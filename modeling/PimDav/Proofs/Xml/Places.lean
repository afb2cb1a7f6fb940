import PimDav.Proofs.Xml.DeepElements
import PimDav.Proofs.Xml.Skeleton

/-!
# Elements in their namespaces

An element that was written and read is the one that was written, with every name in the
namespace that its prefix stands for among the declarations around it.  Texts stay as they
are, and the elements inside come in the order in which they were written.
-/

namespace PimDav
namespace Xml

namespace Binding

/-- The namespace that a prefix stands for. -/
def spaceOf
    (inForce : List Binding)
    (start : String) : Option String :=
  match inForce.find? (·.named == some (Utf8.encode start)) with
  | some binding =>
    if binding.space.isEmpty then none else some (Utf8.decodeLossy binding.space)
  | none => none

/-- A name with a prefix is in the namespace that the prefix stands for. -/
theorem resolve_prefixed
    {start : String}
    (hstart : ':' ∉ start.toList)
    (inForce : List Binding)
    (name : String) :
    (resolve inForce (Utf8.encode (start ++ ":" ++ name))).map Utf8.decodeLossy =
      spaceOf inForce start := by
  have hbytes : Utf8.encode (start ++ ":" ++ name) =
      Utf8.encode start ++ 0x3A :: Utf8.encode name := by
    rw [Utf8.encode_append, Utf8.encode_append, List.append_assoc]
    rfl
  have hfree : ∀ b ∈ Utf8.encode start, (b != 0x3A) = true := by
    intro b hb
    rw [bne_iff_ne]
    rintro rfl
    exact Utf8.not_mem_encodeChars (by decide) hstart hb
  have hcolon : (Utf8.encode (start ++ ":" ++ name)).contains 0x3A = true := by
    rw [hbytes, List.contains_iff_mem]
    exact List.mem_append_right _ List.mem_cons_self
  have hbefore : (Utf8.encode (start ++ ":" ++ name)).takeWhile (· != 0x3A) =
      Utf8.encode start := by
    rw [hbytes, List.takeWhile_append_of_pos hfree]
    simp
  rw [resolve, spaceOf, hcolon, if_pos rfl, hbefore]
  cases inForce.find? (·.named == some (Utf8.encode start)) with
  | none => rfl
  | some binding =>
    dsimp only
    cases binding.space.isEmpty <;> rfl

end Binding

/-- What a name is but for its prefix: the local name and the namespace. -/
def Element.expandedName (e : Element) : String × Option String :=
  (e.localName, e.tag.space)

theorem Element.is_eq_caseless
    (e : Element)
    (wanted : String) :
    e.is wanted = Text.caseless e.expandedName.1 wanted :=
  rfl

/-- The element with every name in its namespace, inside the given bindings. -/
def Element.placedIn
    (inForce : List Binding)
    (e : Element) : Element :=
  let bindings := e.tag.declared inForce
  ⟨e.tag.placed bindings, e.content.placed bindings⟩

namespace Content

theorem elements_placed
    (inForce : List Binding)
    (c : Content) :
    (c.placed inForce).elements = c.elements.map (Element.placedIn inForce) := by
  induction c with
  | nothing => rfl
  | text v after ih => exact ih
  | element tag inside after _ ih =>
    rw [placed, elements, ih]
    rfl

theorem characters_placed
    (inForce : List Binding)
    (c : Content) :
    (c.placed inForce).characters = c.characters := by
  rw [← characters_withoutSpaces, withoutSpaces_placed, characters_withoutSpaces]

theorem placed_addText
    (inForce : List Binding)
    (s : String)
    (c : Content) :
    (c.addText s).placed inForce = (c.placed inForce).addText s := by
  induction c with
  | nothing =>
    rw [addText, placed, addText]
    cases s.isEmpty <;> rfl
  | text v after ih =>
    cases after with
    | nothing => rfl
    | text w after => exact congrArg (Content.text v) ih
    | element tag inside after => exact congrArg (Content.text v) ih
  | element tag inside after _ ih => rw [addText, placed, ih, placed, addText]

theorem placed_addElement
    (inForce : List Binding)
    (e : Element)
    (c : Content) :
    (c.addElement e).placed inForce = (c.placed inForce).addElement (e.placedIn inForce) := by
  induction c with
  | nothing => rfl
  | text v after ih => rw [addElement, placed, ih, placed, addElement]
  | element tag inside after _ ih => rw [addElement, placed, ih, placed, addElement]

end Content

namespace Element

variable (inForce : List Binding)

theorem placedIn_text
    (e : Element)
    (s : String) :
    (e.text s).placedIn inForce = (e.placedIn inForce).text s := by
  rw [placedIn, text, Content.placed_addText]
  rfl

theorem placedIn_child
    (e added : Element) :
    (e.child added).placedIn inForce =
      (e.placedIn inForce).child (added.placedIn (e.tag.declared inForce)) := by
  rw [placedIn, child, Content.placed_addElement]
  rfl

theorem placedIn_children
    (e : Element)
    (added : List Element) :
    (e.children added).placedIn inForce =
      (e.placedIn inForce).children (added.map (placedIn (e.tag.declared inForce))) := by
  induction added generalizing e with
  | nil => rfl
  | cons d added ih =>
    have hrest := ih (e.child d)
    rw [placedIn_child] at hrest
    exact hrest

theorem elements_placedIn
    (e : Element) :
    (e.placedIn inForce).elements = e.elements.map (placedIn (e.tag.declared inForce)) :=
  Content.elements_placed _ e.content

theorem elements_placed
    (e : Element) :
    e.placed.elements = e.elements.map (placedIn (e.tag.declared Binding.builtin)) :=
  elements_placedIn Binding.builtin e

@[simp] theorem textContent_placedIn
    (e : Element) :
    (e.placedIn inForce).textContent = e.textContent :=
  congrArg String.ofList (Content.characters_placed _ e.content)

/-- The name of an element whose prefix is bound around it, or by the element itself. -/
theorem expandedName_placedIn
    {e : Element}
    {start name : String}
    (he : e.tag.name = start ++ ":" ++ name)
    (hstart : ':' ∉ start.toList)
    (hname : ':' ∉ name.toList) :
    (e.placedIn inForce).expandedName =
      (name, Binding.spaceOf (e.tag.declared inForce) start) := by
  have hlocal : e.localName = name := by
    rw [localName, Tag.localName, he, localPart_append_colon hname]
  have hspace : (e.placedIn inForce).tag.space =
      Binding.spaceOf (e.tag.declared inForce) start := by
    rw [← Binding.resolve_prefixed hstart _ name, ← he]
    rfl
  rw [expandedName, hspace, ← hlocal]
  rfl

/-! An element that binds nothing itself. -/

section Unbound

variable {e : Element} (hattributes : e.tag.attributes = [])

include hattributes

theorem declared_of_attributes :
    e.tag.declared inForce = inForce := by
  rw [Tag.declared, hattributes]
  rfl

theorem expandedName_placedIn_of_attributes
    {start name : String}
    (he : e.tag.name = start ++ ":" ++ name)
    (hstart : ':' ∉ start.toList)
    (hname : ':' ∉ name.toList) :
    (e.placedIn inForce).expandedName = (name, Binding.spaceOf inForce start) := by
  rw [expandedName_placedIn inForce he hstart hname, declared_of_attributes inForce hattributes]

theorem elements_placedIn_of_attributes :
    (e.placedIn inForce).elements = e.elements.map (placedIn inForce) := by
  rw [elements_placedIn, declared_of_attributes inForce hattributes]

end Unbound

/-! The names of an element and of all elements below it. -/

def expandedNames (e : Element) : List (String × Option String) :=
  (e :: e.deepElements).map expandedName

@[simp] theorem expandedNames_text
    (e : Element)
    (s : String) :
    (e.text s).expandedNames = e.expandedNames := by
  rw [expandedNames, deepElements_text]
  rfl

@[simp] theorem expandedNames_child
    (e added : Element) :
    (e.child added).expandedNames = e.expandedNames ++ added.expandedNames := by
  rw [expandedNames, deepElements_child, ← List.cons_append, List.map_append]
  rfl

@[simp] theorem expandedNames_children
    (e : Element)
    (added : List Element) :
    (e.children added).expandedNames = e.expandedNames ++ added.flatMap expandedNames :=
  append_children expandedNames_child e added

/-- An element without attributes and content in a namespace. -/
def newIn (space written : String) : Element :=
  { tag := { name := written, space := some space } }

@[simp] theorem expandedNames_newIn
    (space written : String) :
    (newIn space written).expandedNames = [(localPart written, some space)] :=
  rfl

/-- A name without content whose prefix is bound around it. -/
theorem placedIn_new
    {start space : String}
    (hspace : Binding.spaceOf inForce start = some space)
    (hstart : ':' ∉ start.toList)
    {written : String}
    (name : String)
    (hwritten : written = start ++ ":" ++ name) :
    (new written).placedIn inForce = newIn space written := by
  have hresolved := Binding.resolve_prefixed hstart inForce name
  rw [← hwritten, hspace] at hresolved
  rw [newIn, ← hresolved]
  rfl

/-- An attribute that is no declaration stays as it is. -/
theorem placedIn_attr
    (e : Element)
    {key : String}
    (hkey : isDeclarationKey key = false)
    (value : String) :
    (e.attr key value).placedIn inForce = (e.placedIn inForce).attr key value := by
  have hdeclared : (e.attr key value).tag.declared inForce = e.tag.declared inForce := by
    rw [Tag.declared, attr, List.filterMap_append, List.filterMap_cons,
      ofAttribute_written hkey]
    exact congrArg (fun bound => bound.reverse ++ inForce) (List.append_nil _)
  rw [placedIn, hdeclared]
  rfl

end Element
end Xml
end PimDav

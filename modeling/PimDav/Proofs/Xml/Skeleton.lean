import PimDav.Proofs.Xml.RoundTrip

/-!
# Skeletons of elements

The skeleton of an element is what is left of it without its texts and the values of its
attributes: names, namespaces, and where there is a text at all.  Elements that are built in
the same steps from different strings have the same skeleton, and have it still after they
were written and read.
-/

namespace PimDav
namespace Xml

/-- Whether an attribute says something about namespaces, by its key. -/
def isDeclarationKey (key : String) : Bool :=
  ((Utf8.encode "xmlns").isPrefixOf? (Utf8.encode key)).isSome

/-- An attribute that is no declaration binds nothing, whatever its value is. -/
theorem ofAttribute_written
    {key : String}
    (hkey : isDeclarationKey key = false)
    (value : String) :
    Binding.ofAttribute (.written (key, value)) = some none := by
  have hnone : (Utf8.encode "xmlns").isPrefixOf? (Utf8.encode key) = none :=
    Option.isSome_eq_false_iff.1 hkey |> Option.isNone_iff_eq_none.1
  rw [Binding.ofAttribute, RawAttribute.written, hnone]

namespace Tag

/-- The tag without the values of its attributes, declarations aside. -/
def skeleton (tag : Tag) : Tag :=
  { tag with
    attributes := tag.attributes.map fun a => (a.1, if isDeclarationKey a.1 then a.2 else "") }

/-- The values of the attributes that are no declarations. -/
def values (tag : Tag) : List String :=
  (tag.attributes.filter fun a => !isDeclarationKey a.1).map (·.2)

/-- What a tag declares is in its skeleton. -/
theorem declared_skeleton
    (inForce : List Binding)
    (tag : Tag) :
    tag.skeleton.declared inForce = tag.declared inForce := by
  have hone : ∀ a : String × String,
      Binding.ofAttribute (.written (a.1, if isDeclarationKey a.1 then a.2 else "")) =
        Binding.ofAttribute (.written a) := by
    intro a
    cases hkey : isDeclarationKey a.1 with
    | true => rfl
    | false => rw [ofAttribute_written hkey, ofAttribute_written hkey a.2]
  rw [declared, declared, skeleton, List.filterMap_map]
  simp only [Function.comp_def, hone]

end Tag

namespace Content

/-- The content without the strings of its texts and attributes. -/
def skeleton : Content → Content
  | nothing => nothing
  | text _ after => text "" (skeleton after)
  | element tag inside after => element tag.skeleton (skeleton inside) (skeleton after)

/-- The values of the attributes and the texts, in document order. -/
def values : Content → List String
  | nothing => []
  | text v after => v :: values after
  | element tag inside after => tag.values ++ (values inside ++ values after)

theorem skeleton_addElement
    (e : Element)
    (c : Content) :
    (c.addElement e).skeleton =
      c.skeleton.addElement ⟨e.tag.skeleton, e.content.skeleton⟩ := by
  induction c with
  | nothing => rfl
  | text v after ih => simp [addElement, skeleton, ih]
  | element tag inside after _ ih => simp [addElement, skeleton, ih]

theorem values_addElement
    (e : Element)
    (c : Content) :
    (c.addElement e).values = c.values ++ (e.tag.values ++ e.content.values) := by
  induction c with
  | nothing => simp [addElement, values]
  | text v after ih => simp [addElement, values, ih]
  | element tag inside after _ ih => simp [addElement, values, ih]

/-- Finding out about namespaces needs no more than the skeleton. -/
theorem skeleton_placed
    (inForce : List Binding)
    (c : Content) :
    (c.placed inForce).skeleton = c.skeleton.placed inForce := by
  induction c generalizing inForce with
  | nothing => rfl
  | text v after ih => rw [placed, skeleton, ih, skeleton, placed]
  | element tag inside after ihInside ihAfter =>
    rw [placed, skeleton, ihInside, ihAfter, skeleton, placed, Tag.declared_skeleton]
    rfl

theorem values_placed
    (inForce : List Binding)
    (c : Content) :
    (c.placed inForce).values = c.values := by
  induction c generalizing inForce with
  | nothing => rfl
  | text v after ih => rw [placed, values, ih, values]
  | element tag inside after ihInside ihAfter =>
    rw [placed, values, ihInside, ihAfter]
    rfl

end Content

namespace Element

/-- The element without the strings of its texts and attributes. -/
def skeleton (e : Element) : Element :=
  ⟨e.tag.skeleton, e.content.skeleton⟩

/-- The values of the attributes and the texts, in document order. -/
def values (e : Element) : List String :=
  e.tag.values ++ e.content.values

theorem skeleton_child
    (e added : Element) :
    (e.child added).skeleton = e.skeleton.child added.skeleton := by
  rw [child, skeleton, Content.skeleton_addElement]
  rfl

theorem values_child
    (e added : Element) :
    (e.child added).values = e.values ++ added.values := by
  rw [child, values, Content.values_addElement, values, values, List.append_assoc]

theorem skeleton_placed
    (e : Element) :
    e.placed.skeleton = e.skeleton.placed := by
  rw [placed, skeleton, Content.skeleton_placed, placed, skeleton, Tag.declared_skeleton]
  rfl

theorem values_placed
    (e : Element) :
    e.placed.values = e.values := by
  rw [values, placed, Content.values_placed]
  rfl

theorem tag_foldl_attr
    (attributes : List (String × String))
    (e : Element) :
    (attributes.foldl (fun e a => e.attr a.1 a.2) e).tag =
      { e.tag with attributes := e.tag.attributes ++ attributes } := by
  induction attributes generalizing e with
  | nil => simp
  | cons a attributes ih => rw [List.foldl_cons, ih, attr, List.append_assoc]; rfl

end Element

theorem Built.foldl_attr
    {e : Element}
    (he : Built e)
    (attributes : List (String × String)) :
    Built (attributes.foldl (fun e a => e.attr a.1 a.2) e) := by
  induction attributes generalizing e with
  | nil => exact he
  | cons a attributes ih => exact ih (he.attr a.1 a.2)

/-- An element that can be written and read back, with the skeleton of another one and with
the given strings as its values and texts. -/
structure Alike
    (e other : Element)
    (strings : List String) : Prop where
  built : Built e
  isWellFormed : e.isWellFormed = true
  skeleton : e.skeleton = other.skeleton
  values : e.values = strings

/-- Elements that are alike one by one. -/
inductive AlikeAll : List Element → List Element → List String → Prop
  | nil : AlikeAll [] [] []
  | cons
      {e other : Element}
      {es others : List Element}
      {strings more : List String}
      (he : Alike e other strings)
      (hes : AlikeAll es others more) :
      AlikeAll (e :: es) (other :: others) (strings ++ more)

/-- A string as a text: an empty one makes none. -/
def presentText (s : String) : List String :=
  if s.isEmpty then [] else [s]

namespace AlikeAll

variable {es others : List Element} {strings : List String}

theorem singleton
    {e other : Element}
    (he : Alike e other strings) :
    AlikeAll [e] [other] strings := by
  have hone := cons he nil
  rwa [List.append_nil] at hone

theorem append
    {fs furthers : List Element}
    {more : List String}
    (hes : AlikeAll es others strings)
    (hfs : AlikeAll fs furthers more) :
    AlikeAll (es ++ fs) (others ++ furthers) (strings ++ more) := by
  induction hes with
  | nil => exact hfs
  | cons he _ ih =>
    rw [List.append_assoc]
    exact cons he ih

/-- Elements that are made of the members of a list, and others of what stands in for them. -/
theorem map
    {α β : Type}
    {f : α → Element}
    {g : β → Element}
    {stand : α → β}
    {read : α → List String}
    {xs : List α}
    (hone : ∀ x ∈ xs, Alike (f x) (g (stand x)) (read x)) :
    AlikeAll (xs.map f) ((xs.map stand).map g) (xs.flatMap read) := by
  induction xs with
  | nil => exact nil
  | cons x xs ih =>
    obtain ⟨hx, hxs⟩ := List.forall_mem_cons.1 hone
    exact cons hx (ih hxs)

theorem toList
    {α β : Type}
    {f : α → Element}
    {g : β → Element}
    {stand : α → β}
    {read : α → List String}
    (hone : ∀ x, Alike (f x) (g (stand x)) (read x))
    (x : Option α) :
    AlikeAll (x.map f).toList ((x.map stand).map g).toList (x.toList.flatMap read) := by
  cases x with
  | none => exact nil
  | some x => exact cons (hone x) nil

end AlikeAll

namespace Alike

variable {e other : Element} {strings : List String}

/-- An element without attributes and content. -/
theorem new
    {name : String}
    (hname : (Element.new name).isWellFormed = true) :
    Alike (Element.new name) (Element.new name) [] where
  built := .new name
  isWellFormed := hname
  skeleton := rfl
  values := rfl

/-- An element that does nothing but declare namespaces. -/
theorem declaring
    {name : String}
    {spaces : List (String × String)}
    (hname : (Element.new name).isWellFormed = true)
    (hspaces : ∀ s ∈ spaces, isDeclarationKey s.1 = true ∧
      (isName s.1 && (Binding.ofAttribute (.written s)).isSome) = true) :
    let e := spaces.foldl (fun e s => e.attr s.1 s.2) (Element.new name)
    Alike e e [] where
  built := (Built.new name).foldl_attr spaces
  isWellFormed := by
    simp only [Element.isWellFormed, Tag.isWellFormed, Bool.and_eq_true, Element.new] at hname
    have hall := List.all_eq_true.2 fun s hs => (hspaces s hs).2
    simp only [Element.isWellFormed, Tag.isWellFormed, Element.tag_foldl_attr,
      Element.content_foldl_attr, Element.new, List.nil_append, hname, hall]
    rfl
  skeleton := rfl
  values := by
    have hnone : spaces.filter (fun s => !isDeclarationKey s.1) = [] := by
      rw [List.filter_eq_nil_iff]
      intro s hs
      simp [(hspaces s hs).1]
    simp only [Element.values, Tag.values, Element.tag_foldl_attr, Element.content_foldl_attr,
      Element.new, List.nil_append, hnone]
    rfl

/-- An element with a string as the value of its attribute. -/
theorem field
    {name key : String}
    (hname : (Element.new name).isWellFormed = true)
    (hkey : isName key = true ∧ isDeclarationKey key = false)
    (value otherValue : String) :
    Alike ((Element.new name).attr key value) ((Element.new name).attr key otherValue)
      [value] where
  built := (Built.new name).attr key value
  isWellFormed := by
    simp only [Element.isWellFormed, Tag.isWellFormed, Bool.and_eq_true, Element.new] at hname
    simp [Element.isWellFormed, Tag.isWellFormed, Element.attr, Element.new, hname, hkey.1,
      ofAttribute_written hkey.2]
  skeleton := by
    simp [Element.skeleton, Tag.skeleton, Element.attr, Element.new, hkey.2]
  values := by
    simp [Element.values, Tag.values, Element.attr, Element.new, hkey.2, Content.values]

/-- An element with a string as its text. -/
theorem text
    {name s t : String}
    (hname : (Element.new name).isWellFormed = true)
    (hempty : t.isEmpty = s.isEmpty) :
    Alike ((Element.new name).text s) ((Element.new name).text t) (presentText s) where
  built := (Built.new name).text s
  isWellFormed := (Element.isWellFormed_text _ s).trans hname
  skeleton := by
    simp only [Element.skeleton, Element.text, Element.new, Content.addText, hempty]
    cases s.isEmpty <;> rfl
  values := by
    simp only [Element.values, Element.text, Element.new, Content.addText, presentText]
    cases s.isEmpty <;> rfl

theorem child
    {added otherAdded : Element}
    {more : List String}
    (he : Alike e other strings)
    (hadded : Alike added otherAdded more) :
    Alike (e.child added) (other.child otherAdded) (strings ++ more) where
  built := he.built.child hadded.built
  isWellFormed := by rw [Element.isWellFormed_child, he.isWellFormed, hadded.isWellFormed]; rfl
  skeleton := by
    rw [Element.skeleton_child, he.skeleton, hadded.skeleton, Element.skeleton_child]
  values := by rw [Element.values_child, he.values, hadded.values]

theorem children
    {added otherAdded : List Element}
    {more : List String}
    (he : Alike e other strings)
    (hadded : AlikeAll added otherAdded more) :
    Alike (e.children added) (other.children otherAdded) (strings ++ more) := by
  induction hadded generalizing e other strings with
  | nil =>
    rw [List.append_nil]
    exact he
  | cons hd _ ih =>
    rw [← List.append_assoc]
    exact ih (he.child hd)

/-- The document of an element is read as a tree with the skeleton that the document of the
other element would have, and with the strings as they are. -/
theorem parse_document
    (he : Alike e other strings) :
    ∃ t, parse (Utf8.encode e.document) = .ok t ∧
      t.skeleton = other.placed.skeleton ∧ t.values = strings := by
  refine ⟨e.placed, Xml.parse_document he.built.isJoined he.isWellFormed, ?_, ?_⟩
  · rw [Element.skeleton_placed, he.skeleton, ← Element.skeleton_placed]
  · rw [Element.values_placed, he.values]

end Alike
end Xml
end PimDav

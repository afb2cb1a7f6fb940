import PimDav.Text.Caseless
import PimDav.Text.Split

/-!
# Elements

An element is a tag with a content, and a content is a sequence of texts and
elements.  Contents are built at their end: adding text after text makes one
text, and adding no text changes nothing, so no built content holds an empty
text or two texts side by side.

Searches go by local name, without regard to case and prefix.
-/

namespace PimDav
namespace Xml

/-- What an opening tag says. The `space` is the namespace that the name was
found to belong to; it is known of elements that were read, never of built ones. -/
structure Tag where
  name : String
  space : Option String := none
  attributes : List (String × String) := []
  deriving DecidableEq, Repr

/-- A sequence of texts and elements. -/
inductive Content where
  | nothing
  | text (value : String) (after : Content)
  | element (tag : Tag) (inside after : Content)
  deriving DecidableEq, Repr

structure Element where
  tag : Tag
  content : Content := .nothing
  deriving DecidableEq, Repr

/-- The part of a name after its last colon. -/
def localPart (name : String) : String :=
  String.ofList (name.toList.reverse.takeWhile (· != ':')).reverse

namespace Tag

def localName (tag : Tag) : String :=
  localPart tag.name

/-- Whether the local name is `wanted`, whatever the case of its letters. -/
def is
    (tag : Tag)
    (wanted : String) : Bool :=
  Text.caseless tag.localName wanted

/-- The value of the first attribute with exactly this key, or else of the first
attribute, declarations of namespaces aside, with this local name. -/
def attribute?
    (tag : Tag)
    (key : String) : Option String :=
  let exact := tag.attributes.find? fun a => a.1 == key
  let similar := tag.attributes.find? fun a =>
    !Text.beginsWith "xmlns" a.1 && localPart a.1 == key
  (exact.or similar).map (·.2)

end Tag

namespace Content

def isNothing : Content → Bool
  | nothing => true
  | _ => false

/-- The content followed by a text. -/
def addText (s : String) : Content → Content
  | nothing => if s.isEmpty then nothing else text s nothing
  | text v nothing => text (v ++ s) nothing
  | text v after => text v (addText s after)
  | element tag inside after => element tag inside (addText s after)

/-- The content followed by an element. -/
def addElement (e : Element) : Content → Content
  | nothing => element e.tag e.content nothing
  | text v after => text v (addElement e after)
  | element tag inside after => element tag inside (addElement e after)

/-- The elements of the sequence itself. -/
def elements : Content → List Element
  | nothing => []
  | text _ after => elements after
  | element tag inside after => ⟨tag, inside⟩ :: elements after

/-- The characters of all texts at any depth, in document order. -/
def characters : Content → List Char
  | nothing => []
  | text v after => v.toList ++ characters after
  | element _ inside after => characters inside ++ characters after

/-- The elements at any depth with the given local name, in document order. -/
def descendants (wanted : String) : Content → List Element
  | nothing => []
  | text _ after => descendants wanted after
  | element tag inside after =>
    let below := descendants wanted inside ++ descendants wanted after
    if tag.is wanted then ⟨tag, inside⟩ :: below else below

/-- The first element at any depth with the given local name; the search stops
when it is found. -/
def firstDescendant? (wanted : String) : Content → Option Element
  | nothing => none
  | text _ after => firstDescendant? wanted after
  | element tag inside after =>
    if tag.is wanted then some ⟨tag, inside⟩
    else
      match firstDescendant? wanted inside with
      | some e => some e
      | none => firstDescendant? wanted after

/-- All tags in document order, each with its depth. -/
def outline (depth : Nat) : Content → List (Nat × Tag)
  | nothing => []
  | text _ after => outline depth after
  | element tag inside after =>
    (depth, tag) :: (outline (depth + 1) inside ++ outline depth after)

@[simp] theorem addText_empty
    (c : Content) :
    c.addText "" = c := by
  induction c with
  | nothing => rfl
  | text v after ih =>
    cases after with
    | nothing => simp [addText]
    | text w after => rw [addText, ih]; simp
    | element tag inside after => rw [addText, ih]; simp
  | element tag inside after _ ih => simp [addText, ih]

@[simp] theorem elements_addText
    (s : String)
    (c : Content) :
    (c.addText s).elements = c.elements := by
  fun_induction addText s c <;> simp_all [elements]

@[simp] theorem elements_addElement
    (e : Element)
    (c : Content) :
    (c.addElement e).elements = c.elements ++ [e] := by
  induction c with
  | nothing => rfl
  | text v after ih => simpa [addElement, elements] using ih
  | element tag inside after _ ih => simp [addElement, elements, ih]

@[simp] theorem characters_addText
    (s : String)
    (c : Content) :
    (c.addText s).characters = c.characters ++ s.toList := by
  fun_induction addText s c <;> simp_all [characters]

@[simp] theorem characters_addElement
    (e : Element)
    (c : Content) :
    (c.addElement e).characters = c.characters ++ e.content.characters := by
  induction c with
  | nothing => simp [addElement, characters]
  | text v after ih => simp [addElement, characters, ih]
  | element tag inside after _ ih => simp [addElement, characters, ih]

@[simp] theorem descendants_addText
    (wanted s : String)
    (c : Content) :
    (c.addText s).descendants wanted = c.descendants wanted := by
  fun_induction addText s c <;> simp_all [descendants]

end Content

namespace Element

/-- An element without attributes and content. -/
def new (name : String) : Element :=
  { tag := { name } }

/-- The element with one more attribute. -/
def attr
    (e : Element)
    (key value : String) : Element :=
  { e with tag := { e.tag with attributes := e.tag.attributes ++ [(key, value)] } }

/-- The element with one more element at the end of its content. -/
def child (e added : Element) : Element :=
  { e with content := e.content.addElement added }

/-- The element with more elements at the end of its content. -/
def children
    (e : Element)
    (added : List Element) : Element :=
  added.foldl child e

/-- The element with more text at the end of its content. -/
def text
    (e : Element)
    (s : String) : Element :=
  { e with content := e.content.addText s }

def name (e : Element) : String :=
  e.tag.name

def localName (e : Element) : String :=
  e.tag.localName

def is
    (e : Element)
    (wanted : String) : Bool :=
  e.tag.is wanted

def attribute?
    (e : Element)
    (key : String) : Option String :=
  e.tag.attribute? key

/-- The elements directly inside. -/
def elements (e : Element) : List Element :=
  e.content.elements

def firstElement? (e : Element) : Option Element :=
  e.elements.head?

/-- The first element directly inside with the given local name. -/
def find?
    (e : Element)
    (wanted : String) : Option Element :=
  e.elements.find? (·.is wanted)

/-- The elements below this one with the given local name, in document order. -/
def descendants
    (e : Element)
    (wanted : String) : List Element :=
  e.content.descendants wanted

def firstDescendant?
    (e : Element)
    (wanted : String) : Option Element :=
  e.content.firstDescendant? wanted

/-- All text below the element. -/
def textContent (e : Element) : String :=
  String.ofList e.content.characters

/-- The text below the element without surrounding blanks, unless nothing is left. -/
def trimmedText? (e : Element) : Option String :=
  Text.trimmed? e.textContent

/-- The element as a content of its own. -/
def alone (e : Element) : Content :=
  .element e.tag e.content .nothing

end Element
end Xml
end PimDav

import PimDav.Proofs.Xml.Escape
import PimDav.Proofs.Xml.WellFormed
import PimDav.Xml.Event
import PimDav.Xml.Writer

/-!
# Written tags read back

Between its brackets a written tag holds its name and then its attributes, each
after a blank.  Taking these bytes apart gives the name, the keys and the values
again, and the declarations among the attributes are put in force.
-/

namespace PimDav
namespace Xml

@[simp] theorem encode_escape
    (s : String) :
    Utf8.encode (escape s) = Utf8.encodeChars (escapeChars s.toList) := by
  rw [escape, Utf8.encode_ofList]

/-- An attribute is written as a blank, its key, an equals sign and its value
between quotes. -/
theorem encodeChars_writeAttribute
    (a : String × String) :
    Utf8.encodeChars (Tag.writeAttribute a) =
      0x20 :: ((RawAttribute.written a).key ++
        0x3D :: 0x22 :: ((RawAttribute.written a).value ++ [0x22])) := by
  have hblank : Utf8.encodeChars [' '] = [0x20] := rfl
  have hopen : Utf8.encodeChars ['=', '\x22'] = [0x3D, 0x22] := rfl
  have hclose : Utf8.encodeChars ['\x22'] = [0x22] := rfl
  have hwritten :
      Tag.writeAttribute a =
        [' '] ++ a.1.toList ++ ['=', '\x22'] ++ escapeChars a.2.toList ++ ['\x22'] := by
    simp [Tag.writeAttribute]
  rw [hwritten]
  simp only [Utf8.encodeChars_append, Utf8.encodeChars_toList, hblank, hopen, hclose]
  simp [RawAttribute.written]

namespace RawAttribute

/-- A written value holds no quote that could end it. -/
theorem quote_not_mem_value
    (a : String × String) :
    (0x22 : UInt8) ∉ (written a).value := by
  rw [written, encode_escape]
  apply Utf8.not_mem_encodeChars (by decide)
  intro hmem
  exact (ne_of_mem_escapeChars hmem).2.2.1 rfl

theorem trailFrom_key
    {bytes : Bytes}
    (hplain : ∀ b ∈ bytes, IsPlainByte b)
    (seen rest : Bytes)
    (done : List RawAttribute) :
    trailFrom (.key seen) done (bytes ++ 0x3D :: rest) =
      trailFrom (.afterEquals (seen.reverse ++ bytes)) done rest := by
  induction bytes generalizing seen with
  | nil => simp [trailFrom, step]
  | cons b bytes ih =>
    obtain ⟨hblank, -, hequals, -⟩ := hplain b List.mem_cons_self
    have hstep :
        trailFrom (.key seen) done (b :: bytes ++ 0x3D :: rest) =
          trailFrom (.key (b :: seen)) done (bytes ++ 0x3D :: rest) := by
      simp [trailFrom, step, hblank, hequals]
    rw [hstep, ih fun x hx => hplain x (List.mem_cons_of_mem b hx)]
    simp

theorem trailFrom_value
    {bytes : Bytes}
    (hquote : (0x22 : UInt8) ∉ bytes)
    (key seen rest : Bytes)
    (done : List RawAttribute) :
    trailFrom (.value key 0x22 seen) done (bytes ++ 0x22 :: rest) =
      trailFrom .between (⟨key, seen.reverse ++ bytes⟩ :: done) rest := by
  induction bytes generalizing seen with
  | nil => simp [trailFrom, step]
  | cons b bytes ih =>
    have hb : b ≠ 0x22 := fun h => hquote (h ▸ List.mem_cons_self)
    have hstep :
        trailFrom (.value key 0x22 seen) done (b :: bytes ++ 0x22 :: rest) =
          trailFrom (.value key 0x22 (b :: seen)) done (bytes ++ 0x22 :: rest) := by
      simp [trailFrom, step, hb]
    rw [hstep, ih fun h => hquote (List.mem_cons_of_mem b h)]
    simp

/-- One written attribute in front of whatever follows. -/
theorem trailFrom_written
    {a : String × String}
    (hkey : isName a.1 = true)
    (rest : Bytes)
    (done : List RawAttribute) :
    trailFrom .between done (Utf8.encodeChars (Tag.writeAttribute a) ++ rest) =
      trailFrom .between (written a :: done) rest := by
  have hplain : ∀ b ∈ (written a).key, IsPlainByte b := fun b hb =>
    isPlainByte_of_mem_name hkey hb
  rw [encodeChars_writeAttribute]
  cases hbytes : (written a).key with
  | nil => exact absurd hbytes (encode_ne_nil_of_isName hkey)
  | cons b bytes =>
    rw [hbytes] at hplain
    have hblank := (hplain b List.mem_cons_self).blank
    have hbegin :
        trailFrom .between done
            (0x20 :: (b :: bytes ++ 0x3D :: 0x22 :: ((written a).value ++ [0x22])) ++ rest) =
          trailFrom (.key [b]) done
            (bytes ++ 0x3D :: 0x22 :: ((written a).value ++ 0x22 :: rest)) := by
      have hspace : Text.isMarkupBlank 0x20 = true := rfl
      simp [trailFrom, step, hspace, hblank]
    have hequals :
        trailFrom (.afterEquals (b :: bytes)) done (0x22 :: ((written a).value ++ 0x22 :: rest)) =
          trailFrom (.value (b :: bytes) 0x22 []) done ((written a).value ++ 0x22 :: rest) := by
      simp [trailFrom, step]
    have hwritten : written a = ⟨b :: bytes, (written a).value⟩ := by rw [← hbytes]
    rw [hbegin, trailFrom_key fun x hx => hplain x (List.mem_cons_of_mem b hx)]
    rw [List.reverse_singleton, List.singleton_append, hequals]
    rw [trailFrom_value (quote_not_mem_value a), List.reverse_nil, List.nil_append, ← hwritten]

/-- The written attributes of a tag are read one after another. -/
theorem trail_written
    {attributes : List (String × String)}
    (hkeys : ∀ a ∈ attributes, isName a.1 = true) :
    trail (Utf8.encodeChars (attributes.flatMap Tag.writeAttribute)) =
      ⟨attributes.map written, none⟩ := by
  have hfrom :
      ∀ done : List RawAttribute,
        trailFrom .between done (Utf8.encodeChars (attributes.flatMap Tag.writeAttribute)) =
          ⟨done.reverse ++ attributes.map written, none⟩ := by
    induction attributes with
    | nil =>
      intro done
      simp [trailFrom]
    | cons a attributes ih =>
      intro done
      have hrest := ih fun x hx => hkeys x (List.mem_cons_of_mem a hx)
      rw [List.flatMap_cons, Utf8.encodeChars_append,
        trailFrom_written (hkeys a List.mem_cons_self), hrest]
      simp
  exact hfrom []

/-- A written attribute is understood as the attribute. -/
@[simp] theorem read?_written
    (a : String × String) :
    (written a).read? = some a := by
  have hvalue : Utf8.decode? (written a).value = some (escape a.2) := Utf8.decode?_encode _
  have hkey : Utf8.decodeLossy (written a).key = a.1 := Utf8.decodeLossy_encode _
  have hchars : resolveValue? none (escape a.2).toList = some a.2.toList := by
    rw [escape, String.toList_ofList, resolveValue?_escapeChars]
  rw [read?, hvalue, Option.bind_some, hchars, hkey]
  simp

end RawAttribute

namespace Tag

/-- What is written between the brackets of an opening tag. -/
def written (tag : Tag) : Bytes :=
  Utf8.encode tag.name ++ Utf8.encodeChars (tag.attributes.flatMap writeAttribute)

/-- The tag before its names and values are understood. -/
def raw (tag : Tag) : RawTag where
  name := Utf8.encode tag.name
  attributes := ⟨tag.attributes.map RawAttribute.written, none⟩

/-- What the attributes of the tag bind, innermost first, before what is in force
around it. -/
def declared
    (inForce : List Binding)
    (tag : Tag) : List Binding :=
  (tag.attributes.filterMap fun a => (Binding.ofAttribute (.written a)).join).reverse ++ inForce

/-- The tag in the namespace that its name has among the bindings. -/
def placed
    (inForce : List Binding)
    (tag : Tag) : Tag :=
  { tag with space := (Binding.resolve inForce (Utf8.encode tag.name)).map Utf8.decodeLossy }

variable {tag : Tag}

/-- The attributes begin with a blank, so the name is what stands before it. -/
theorem ofBytes_written
    (hwf : tag.isWellFormed = true) :
    RawTag.ofBytes tag.written = tag.raw := by
  have hname : ∀ b ∈ Utf8.encode tag.name, (!Text.isMarkupBlank b) = true := by
    intro b hb
    rw [(isPlainByte_of_mem_name (isName_name hwf) hb).blank]
    rfl
  have hkeys : ∀ a ∈ tag.attributes, isName a.1 = true := fun a ha => isName_key hwf ha
  have hattributes := RawAttribute.trail_written hkeys
  have hfirst :
      ∀ b ∈ (Utf8.encodeChars (tag.attributes.flatMap writeAttribute)).head?,
        Text.isMarkupBlank b = true := by
    cases tag.attributes with
    | nil => simp
    | cons a attributes =>
      rw [List.flatMap_cons, Utf8.encodeChars_append, encodeChars_writeAttribute]
      simp only [List.cons_append, List.head?_cons, Option.mem_def, Option.some.injEq]
      rintro b rfl
      rfl
  have hcut :
      ∀ rest : Bytes, (∀ b ∈ rest.head?, Text.isMarkupBlank b = true) →
        rest.takeWhile (fun b => !Text.isMarkupBlank b) = [] ∧
          rest.dropWhile (fun b => !Text.isMarkupBlank b) = rest := by
    intro rest hrest
    cases rest with
    | nil => exact ⟨rfl, rfl⟩
    | cons b rest => simp [hrest b rfl]
  obtain ⟨htake, hdrop⟩ := hcut _ hfirst
  rw [RawTag.ofBytes, written, List.takeWhile_append_of_pos hname,
    List.dropWhile_append_of_pos hname, htake, hdrop, hattributes, List.append_nil]
  rfl

theorem opensAndCloses_written_slash
    (tag : Tag) :
    Event.opensAndCloses (tag.written ++ [0x2F]) = (true, tag.written) := by
  simp [Event.opensAndCloses]

/-- The last byte of a written tag belongs to a name or is a quote. -/
theorem opensAndCloses_written
    (hwf : tag.isWellFormed = true) :
    Event.opensAndCloses tag.written = (false, tag.written) := by
  have hlast : tag.written.getLast? ≠ some 0x2F := by
    rw [written]
    cases hattributes : tag.attributes.getLast? with
    | none =>
      rw [List.getLast?_eq_none_iff.1 hattributes, List.flatMap_nil, Utf8.encodeChars_nil,
        List.append_nil]
      intro hslash
      exact (isPlainByte_of_mem_name (isName_name hwf) (List.mem_of_getLast? hslash)).slash rfl
    | some a =>
      obtain ⟨before, hbefore⟩ := List.getLast?_eq_some_iff.1 hattributes
      rw [hbefore, List.flatMap_append, List.flatMap_singleton, Utf8.encodeChars_append,
        encodeChars_writeAttribute]
      simp [List.getLast?_append, List.getLast?_cons]
  unfold Event.opensAndCloses
  split
  · next hslash => exact absurd hslash hlast
  · rfl

/-- A name that ends in no blank is repeated as it is. -/
theorem closingName_encode_name
    (hwf : tag.isWellFormed = true) :
    Event.closingName (Utf8.encode tag.name) = Utf8.encode tag.name := by
  have hname := isName_name hwf
  have hkept :
      (Utf8.encode tag.name).reverse.dropWhile Text.isMarkupBlank =
        (Utf8.encode tag.name).reverse := by
    cases hreverse : (Utf8.encode tag.name).reverse with
    | nil => rfl
    | cons b bytes =>
      have hb : b ∈ Utf8.encode tag.name := by
        rw [← List.mem_reverse, hreverse]
        exact List.mem_cons_self
      simp [(isPlainByte_of_mem_name hname hb).blank]
  rw [Event.closingName, hkept, List.reverse_reverse]
  simp

/-- Every declaration is accepted and put in force. -/
theorem declare_raw
    (hwf : tag.isWellFormed = true)
    (inForce : List Binding) :
    Binding.declare inForce tag.raw = .ok (tag.declared inForce) := by
  have haccepted : ∀ a ∈ tag.attributes, (Binding.ofAttribute (.written a)).isSome = true :=
    fun a ha => isSome_ofAttribute hwf ha
  rw [Binding.declare, raw, declared]
  generalize tag.attributes = attributes at haccepted
  induction attributes generalizing inForce with
  | nil => rfl
  | cons a attributes ih =>
    obtain ⟨bound, hbound⟩ := Option.isSome_iff_exists.1 (haccepted a List.mem_cons_self)
    have hrest : ∀ x ∈ attributes, (Binding.ofAttribute (.written x)).isSome = true := fun x hx =>
      haccepted x (List.mem_cons_of_mem a hx)
    rw [List.map_cons, List.foldlM_cons, hbound]
    cases bound with
    | none =>
      simp only [List.filterMap_cons, hbound, Option.join_some]
      exact ih inForce hrest
    | some binding =>
      simp only [List.filterMap_cons, hbound, Option.join_some, List.reverse_cons,
        List.append_assoc]
      exact ih (binding :: inForce) hrest

theorem mapM_written
    {read : RawAttribute → Except Problem (String × String)}
    (hread : ∀ a, read (.written a) = .ok a)
    (attributes : List (String × String)) :
    (attributes.map RawAttribute.written).mapM read = .ok attributes := by
  induction attributes with
  | nil => rfl
  | cons a attributes ih =>
    rw [List.map_cons, List.mapM_cons, ih, hread]
    rfl

theorem readAttributes_raw
    (tag : Tag) :
    tag.raw.readAttributes = .ok tag.attributes := by
  have hitems : tag.raw.attributes.items = tag.attributes.map RawAttribute.written := rfl
  rw [RawTag.readAttributes, hitems, mapM_written]
  · rfl
  · intro a
    rw [RawAttribute.read?_written]

/-- The tag is understood as it was, in the namespace that was found for it. -/
theorem read_raw
    (tag : Tag)
    (space : Option Bytes) :
    tag.raw.read space = .ok { tag with space := space.map Utf8.decodeLossy } := by
  have hname : Utf8.decodeLossy tag.raw.name = tag.name := Utf8.decodeLossy_encode tag.name
  rw [RawTag.read, readAttributes_raw, hname]
  rfl

end Tag
end Xml
end PimDav

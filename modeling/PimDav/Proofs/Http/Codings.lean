import PimDav.Proofs.Attempts
import PimDav.Proofs.Text.Pieces

/-!
# Codings one on top of the other

A server that codes a body several times names the codings in the order in which it applied
them, in one field or in many, with blanks around the commas, in letters of any case and
under the names that it likes, and it may name the identity as well.  However it writes this
down, the client undoes the codings from the last one to the first.
-/

namespace PimDav

open Http (Answer Call CodedBody Coding Field Headers)

namespace Text

/-- Whether a character may stand in a token of a list. -/
def isPlain (c : Char) : Bool :=
  isReadable c && !isBlank c && c != ','

/-- Letters written large are as plain as small ones. -/
theorem isPlain_of_toLower
    {c : Char}
    (hc : isPlain c.toLower = true) :
    isPlain c = true := by
  by_cases hupper : c.val ≥ 'A'.val ∧ c.val ≤ 'Z'.val
  · have hlow : 65 ≤ c.toNat := UInt32.le_iff_toNat_le.1 hupper.1
    have hhigh : c.toNat ≤ 90 := UInt32.le_iff_toNat_le.1 hupper.2
    have hcomma : c ≠ ',' := by
      rintro rfl
      exact absurd hlow (by decide)
    have hreadable : isReadable c = true := by
      simp only [isReadable, Bool.or_eq_true, Bool.and_eq_true, decide_eq_true_eq]
      omega
    have hblank : isBlank c = false := by
      simp only [isBlank, Bool.or_eq_false_iff, Bool.and_eq_false_iff, decide_eq_false_iff_not,
        beq_eq_false_iff_ne]
      omega
    rw [isPlain, hreadable, hblank, bne_iff_ne.2 hcomma]
    rfl
  · have hsame : c.toLower = c := dif_neg hupper
    rwa [hsame] at hc

end Text

namespace Http

/-- What was done step by step is undone from the last step to the first. -/
theorem foldlM_reverse_foldl
    {α β : Type}
    {step : β → α → β}
    {undo? : β → α → Option β}
    (hundo : ∀ b a, undo? (step b a) a = some b)
    (as : List α)
    (b : β) :
    as.reverse.foldlM undo? (as.foldl step b) = some b := by
  induction as generalizing b with
  | nil => rfl
  | cons a as ih =>
    rw [List.reverse_cons, List.foldlM_append, List.foldl_cons, ih (step b a)]
    simp [hundo]

theorem CodedBody.decode?_apply
    (cs : List Coding)
    (b : Bytes) :
    (apply cs (.plain b)).decode? cs = some b := by
  have hundo : ∀ (body : CodedBody) (c : Coding),
      Coding.undo? c (.coded c body) = some body := fun _ _ => if_pos rfl
  rw [decode?, apply, foldlM_reverse_foldl hundo]
  rfl

/-- Codings as they work on bytes. -/
structure Codec where
  code : Bytes → Coding → Bytes
  undo? : Bytes → Coding → Option Bytes
  undo?_code : ∀ (b : Bytes) (c : Coding), undo? (code b c) c = some b

namespace Codec

/-- The bytes that a body travels as. -/
def written (codec : Codec) : CodedBody → Bytes
  | .plain b => b
  | .coded c body => codec.code (written codec body) c

/-- The bytes before the codings were applied: the last one is undone first. -/
def decode?
    (codec : Codec)
    (codings : List Coding)
    (b : Bytes) : Option Bytes :=
  codings.reverse.foldlM codec.undo? b

variable (codec : Codec)

theorem written_apply
    (cs : List Coding)
    (body : CodedBody) :
    codec.written (CodedBody.apply cs body) = cs.foldl codec.code (codec.written body) := by
  induction cs generalizing body with
  | nil => rfl
  | cons c cs ih => exact ih (.coded c body)

theorem decode?_written
    (cs : List Coding)
    (b : Bytes) :
    codec.decode? cs (codec.written (CodedBody.apply cs (.plain b))) = some b := by
  rw [decode?, written_apply]
  exact foldlM_reverse_foldl codec.undo?_code cs b

end Codec

namespace Coding

/-- The tokens for a coding in small letters. The identity is none, and neither is an empty
piece. -/
def tokens : Option Coding → List String
  | some brotli => ["br"]
  | some gzip => ["gzip", "x-gzip"]
  | some zstd => ["zstd", "zst"]
  | none => ["identity", ""]

theorem isPlain_of_mem_tokens
    {coding : Option Coding}
    {token : String}
    (htoken : token ∈ tokens coding) :
    token.toList.all Text.isPlain = true := by
  have hall : ∀ token ∈ tokens coding, token.toList.all Text.isPlain = true := by
    cases coding with
    | none => decide
    | some c => cases c <;> decide
  exact hall token htoken

/-- A piece of a list of codings: the name of a coding in letters of any case, between
blanks. -/
structure Mention where
  before : String
  name : String
  after : String
  coding : Option Coding
  before_blank : ∀ c ∈ before.toList, c = ' ' ∨ c = '\t'
  after_blank : ∀ c ∈ after.toList, c = ' ' ∨ c = '\t'
  known : Text.lower name ∈ tokens coding

namespace Mention

def written (m : Mention) : String :=
  m.before ++ m.name ++ m.after

/-- A field that lists codings. -/
def field (line : List Mention) : Field :=
  .ofText "content-encoding" (",".intercalate (line.map written))

/-- A blank of a mention is readable, a blank, and no comma. -/
theorem blank_cases
    {c : Char}
    (hc : c = ' ' ∨ c = '\t') :
    Text.isReadable c = true ∧ Text.isBlank c = true ∧ (c == ',') = false := by
  rcases hc with rfl | rfl <;> decide

theorem name_cases
    (m : Mention)
    {c : Char}
    (hc : c ∈ m.name.toList) :
    Text.isReadable c = true ∧ Text.isBlank c = false ∧ (c == ',') = false := by
  have hlower : c.toLower ∈ (Text.lower m.name).toList := by
    rw [Text.toList_lower]
    exact List.mem_map_of_mem hc
  have hplain : Text.isPlain c = true :=
    Text.isPlain_of_toLower (List.all_eq_true.1 (isPlain_of_mem_tokens m.known) _ hlower)
  simpa [Text.isPlain, and_assoc] using hplain

theorem written_cases
    (m : Mention)
    {c : Char}
    (hc : c ∈ m.written.toList) :
    Text.isReadable c = true ∧ (c == ',') = false := by
  rw [written, String.toList_append, String.toList_append, List.mem_append, List.mem_append] at hc
  obtain (hc | hc) | hc := hc
  · exact ⟨(blank_cases (m.before_blank c hc)).1, (blank_cases (m.before_blank c hc)).2.2⟩
  · exact ⟨(m.name_cases hc).1, (m.name_cases hc).2.2⟩
  · exact ⟨(blank_cases (m.after_blank c hc)).1, (blank_cases (m.after_blank c hc)).2.2⟩

/-- A piece is read as what it mentions. -/
theorem ofToken?_written
    (m : Mention) :
    ofToken? m.written = m.coding := by
  have htrim : Text.trim m.written = m.name := by
    rw [Text.trim, written, String.toList_append, String.toList_append, Text.trimWhere_append,
      String.ofList_toList]
    · exact fun c hc => (blank_cases (m.before_blank c hc)).2.1
    · exact fun c hc => (m.name_cases hc).2.1
    · exact fun c hc => (blank_cases (m.after_blank c hc)).2.1
  have hknown := m.known
  rw [ofToken?, htrim]
  generalize Text.lower m.name = token at hknown
  generalize m.coding = coding at hknown
  cases coding with
  | none =>
    simp only [tokens, List.mem_cons, List.not_mem_nil, or_false] at hknown
    rcases hknown with rfl | rfl <;> rfl
  | some c =>
    cases c with
    | brotli =>
      obtain rfl := List.mem_singleton.1 hknown
      rfl
    | gzip =>
      simp only [tokens, List.mem_cons, List.not_mem_nil, or_false] at hknown
      rcases hknown with rfl | rfl <;> rfl
    | zstd =>
      simp only [tokens, List.mem_cons, List.not_mem_nil, or_false] at hknown
      rcases hknown with rfl | rfl <;> rfl

theorem text?_field
    (line : List Mention) :
    (field line).text? = some (",".intercalate (line.map written)) := by
  refine Field.text?_ofText (Text.forall_mem_intercalate ?_ ?_) "content-encoding"
  · intro c hc
    have hcomma : c ∈ [','] := hc
    obtain rfl := List.mem_singleton.1 hcomma
    decide
  · intro value hvalue c hc
    obtain ⟨m, -, rfl⟩ := List.mem_map.1 hvalue
    exact (m.written_cases hc).1

/-- A line is read as what it mentions, piece by piece. -/
theorem filterMap_commaPieces
    (line : List Mention) :
    (Text.commaPieces (",".intercalate (line.map written))).filterMap ofToken? =
      line.filterMap coding := by
  by_cases hline : line = []
  · rw [hline]
    decide
  · have hwritten : line.map written ≠ [] := by simpa using hline
    have hcommas : ∀ value ∈ line.map written, ∀ c ∈ value.toList, (c == ',') = false := by
      intro value hvalue c hc
      obtain ⟨m, -, rfl⟩ := List.mem_map.1 hvalue
      exact (m.written_cases hc).2
    have hread : (fun m : Mention => ofToken? m.written) = coding := funext ofToken?_written
    rw [Text.commaPieces_joined hwritten hcommas, List.filterMap_map, Function.comp_def, hread]

end Mention
end Coding

namespace Headers

variable {h : Headers}

/-- The codings that lines of mentions spell. -/
theorem codings_eq
    {lines : List (List Coding.Mention)}
    (hlines : h.all "content-encoding" = lines.map Coding.Mention.field) :
    h.codings = lines.flatten.filterMap Coding.Mention.coding := by
  rw [codings, pieces, hlines]
  clear hlines
  induction lines with
  | nil => rfl
  | cons line lines ih =>
    rw [List.map_cons, List.filterMap_cons_some (Coding.Mention.text?_field line),
      List.flatMap_cons, List.filterMap_append, ih, Coding.Mention.filterMap_commaPieces,
      List.flatten_cons, List.filterMap_append]

/-- Headers of a decoded body name no coding. -/
theorem codings_decoded
    (h : Headers) :
    (h.decoded h.codings).codings = [] := by
  unfold decoded
  split
  case isTrue hnone => exact List.isEmpty_iff.1 hnone
  case isFalse =>
    rw [codings, pieces, all_without_of_contains rfl]
    rfl

/-- What is delivered when something was undone: the fields that describe the coded body are
gone, and every other field is kept in its place. -/
theorem all_decoded
    {cs : List Coding}
    (hcs : cs ≠ [])
    (h : Headers) :
    (h.decoded cs).all "content-encoding" = [] ∧ (h.decoded cs).all "content-length" = [] ∧
      ∀ name, name ≠ "content-encoding" → name ≠ "content-length" →
        (h.decoded cs).all name = h.all name := by
  have hdecoded : h.decoded cs = h.without ["content-encoding", "content-length"] := by
    rw [decoded, List.isEmpty_eq_false_iff.2 hcs, if_neg Bool.false_ne_true]
  rw [hdecoded]
  refine ⟨all_without_of_contains rfl h, all_without_of_contains rfl h, ?_⟩
  intro name hcoding hlength
  exact all_without (by simp [hcoding, hlength]) h

end Headers
end Http

namespace Exchange

/-- An answer whose body was coded, in headers that spell the codings in the order in which
they were applied, is read as the body before: whatever its code is, and in an exchange that
it makes a success.  No matter how the codings work on bytes, undoing those that are read
from the headers leads back to the body.  The headers that are handed out and remembered
name no coding any more.  They are those of the answer, without the two fields about the
coded body if there was a coding. -/
theorem stacked_codings_undone
    {h : Headers}
    {lines : List (List Coding.Mention)}
    {cs : List Coding}
    (hlines : h.all "content-encoding" = lines.map Coding.Mention.field)
    (hcs : lines.flatten.filterMap Coding.Mention.coding = cs)
    (code : Nat)
    (b : Bytes) :
    let answer : Answer := { code, headers := h, body := CodedBody.apply cs (.plain b) }
    ∃ delivered : Headers,
      (∀ timeout, decode timeout (.answer answer) = .ok (code, delivered, b)) ∧
      (∀ codec : Http.Codec, codec.decode? h.codings (codec.written answer.body) = some b) ∧
      delivered.codings = [] ∧
      (cs = [] → delivered = h) ∧
      (cs ≠ [] → delivered.all "content-encoding" = [] ∧ delivered.all "content-length" = [] ∧
        ∀ name, name ≠ "content-encoding" → name ≠ "content-length" →
          delivered.all name = h.all name) ∧
      ∀ (a : Account) (c : Call) (uri : Uri) (s : Session) (replies : List Http.Reply),
        a.base.resolve c.href = .ok uri → s.server.reachable = true →
        s.server.replies = .answer answer :: replies → Http.isSuccess code = true →
        (perform a c s).1 = (receive b).map (fun body => ⟨code, delivered, body⟩) ∧
          (perform a c s).2.lastHeaders = delivered := by
  intro answer
  have hcodings : h.codings = cs := (Headers.codings_eq hlines).trans hcs
  have hbody : answer.body.decode? answer.headers.codings = some b := by
    rw [hcodings]
    exact CodedBody.decode?_apply cs b
  refine ⟨h.decoded cs, ?_, ?_, ?_, ?_, ?_, ?_⟩
  · intro timeout
    rw [decode, hbody, hcodings]
  · intro codec
    rw [hcodings]
    exact codec.decode?_written cs b
  · rw [← hcodings]
    exact h.codings_decoded
  · rintro rfl
    rfl
  · intro hsome
    exact Headers.all_decoded hsome h
  · intro a c uri s replies hresolve hreachable hreplies hcode
    have hnext : s.server.next = .answer answer := Server.next_of_replies hreachable hreplies
    constructor
    · rw [perform_fst, hnext, outcome_answer hresolve hcode hbody, hcodings]
    · have hremembered : (attempt a c s.server).answer? = some answer := by
        rw [attempt_of_resolve hresolve, hnext]
        exact Attempt.answer?_eq_some_iff.2 ⟨rfl, hcode, b, hbody⟩
      rw [lastHeaders_perform, Attempt.remembered, hremembered]
      exact congrArg h.decoded hcodings

/-- A body that was zipped and then coded once more, with both codings named under other
names, in large letters and in fields of their own. -/
theorem stacked_codings_undone_two_lines :
    let h : Headers := ⟨[.ofText "content-encoding" "X-GZIP ,\tidentity", .ofText "dav" "1",
      .ofText "content-encoding" "Zst", .ofText "content-length" "17"]⟩
    let answer : Answer :=
      { code := 207, headers := h, body := .coded .zstd (.coded .gzip (.plain [0x41])) }
    let a : Account := { base := ⟨"https", "dav.example", ⟨"/dav/", none⟩⟩ }
    let s : Session := { server := { replies := [.answer answer] } }
    ∃ delivered : Headers, delivered.codings = [] ∧ delivered.all "dav" = [.ofText "dav" "1"] ∧
      delivered.all "content-length" = [] ∧
      (perform a { method := "GET", href := "" } s).1 = .ok ⟨207, delivered, .bytes [0x41]⟩ := by
  intro h answer a s
  let zipped : Coding.Mention := ⟨"", "X-GZIP", " ", some .gzip, by simp, by simp, by decide⟩
  let same : Coding.Mention := ⟨"\t", "identity", "", none, by simp, by simp, by decide⟩
  let packed : Coding.Mention := ⟨"", "Zst", "", some .zstd, by simp, by simp, by decide⟩
  have hlines : h.all "content-encoding" = [[zipped, same], [packed]].map Coding.Mention.field := by
    decide +kernel
  obtain ⟨delivered, -, -, hnone, -, hsome, hdone⟩ :=
    stacked_codings_undone hlines rfl 207 [0x41]
  obtain ⟨-, hlength, hothers⟩ := hsome (List.cons_ne_nil _ _)
  have hdav : delivered.all "dav" = h.all "dav" := hothers "dav" (by decide) (by decide)
  have hdav' : h.all "dav" = [.ofText "dav" "1"] := by decide +kernel
  have hresolve : a.base.resolve "" = .ok a.base := eq_ok_of_toOption (by decide +kernel)
  obtain ⟨hresult, -⟩ := hdone a { method := "GET", href := "" } a.base s [] hresolve rfl rfl rfl
  refine ⟨delivered, hnone, hdav.trans hdav', hlength, hresult.trans ?_⟩
  rfl

end Exchange
end PimDav

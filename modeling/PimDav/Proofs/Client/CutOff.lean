import PimDav.Operation
import PimDav.Proofs.Plan
import PimDav.Proofs.Xml.Truncation

/-!
# Answers that were cut off

A document that was cut off anywhere is refused.  So an answer with such a body is
a failure to whoever asked for it, and nothing is handed out that was read from
the part that came through.
-/

namespace PimDav

open Http (Answer Call Reply)
open Xml (Built Element)

namespace Exchange

variable {e : Element} {cut : Bytes}

/-- A body that cannot be read makes every call fail, even when its answer reports
success. -/
theorem outcome_of_parse_error
    {a : Account}
    {c : Call}
    {uri : Uri}
    {answer : Answer}
    {p : Xml.Problem}
    (hresolve : a.base.resolve c.href = .ok uri)
    (hcode : Http.isSuccess answer.code = true)
    (hbody : answer.body.decode? answer.headers.codings = some cut)
    (hdeclared : Xml.isDeclared cut = true)
    (hparse : Xml.parse cut = .error p) :
    outcome a c (.answer answer) = .error (.markup p) := by
  have hreceive : receive cut = .error (.markup p) := by
    rw [receive, hdeclared, if_pos rfl, hparse]
  rw [outcome_answer hresolve hcode hbody, hreceive]
  rfl

end Exchange

namespace Operation

/-- A written document that was cut off is refused.  As long as the part that came
through shows the declaration, every call that it answers fails for this reason, and
so does every operation that comes to see it. -/
theorem fails_on_cut_document
    {e : Element}
    {cut : Bytes}
    (hbuilt : Built e)
    (hwf : e.isWellFormed = true)
    (hcut : cut <+: Utf8.encode e.document)
    (hproper : cut ≠ Utf8.encode e.document) :
    ∃ p, Xml.parse cut = .error p ∧
      (p = .brokenMarkup ∨ p = .unfinished ∨ p = .noRoot) ∧
      (5 ≤ cut.length → ∀ answer : Answer, Http.isSuccess answer.code = true →
        answer.body.decode? answer.headers.codings = some cut →
        (∀ (a : Account) (c : Call) (s : Session) (uri : Uri) (replies : List Reply),
          a.base.resolve c.href = .ok uri → s.server.reachable = true →
          s.server.replies = .answer answer :: replies →
            (Exchange.perform a c s).1 = .error (.markup p)) ∧
        ∀ (a : Account) (operation : Operation) (s : Session) (before after : List Reply),
          s.server.reachable = true → s.server.replies = before ++ .answer answer :: after →
            let done := (operation.plan a.base).run a s
            (done.1 = .error (.markup p) ∧ done.2.server.replies = after) ∨
              .answer answer :: after <:+ done.2.server.replies) := by
  obtain ⟨p, hparse, hp⟩ :
      ∃ p, Xml.parse cut = .error p ∧ (p = .brokenMarkup ∨ p = .unfinished ∨ p = .noRoot) := by
    rcases Xml.parse_document_of_isPrefix hbuilt.isJoined hwf hcut hproper with h | h | h
    · exact ⟨_, h, Or.inl rfl⟩
    · exact ⟨_, h, Or.inr (Or.inl rfl)⟩
    · exact ⟨_, h, Or.inr (Or.inr rfl)⟩
  refine ⟨p, hparse, hp, ?_⟩
  intro hlength answer hcode hbody
  have hdeclared := Exchange.isDeclared_of_isPrefix hcut hlength
  have hfails : ∀ (a : Account) (c : Call) (uri : Uri), a.base.resolve c.href = .ok uri →
      Exchange.outcome a c (.answer answer) = .error (.markup p) := by
    intro a c uri hresolve
    exact Exchange.outcome_of_parse_error hresolve hcode hbody hdeclared hparse
  constructor
  · intro a c s uri replies hresolve hreachable hreplies
    rw [Exchange.perform_fst, Server.next_of_replies hreachable hreplies]
    exact hfails a c uri hresolve
  · intro a operation s before after hreachable hreplies
    exact Plan.run_of_failing_reply (hfails a) (operation.plan a.base) hreachable hreplies

/-- A listing of two items that ends inside a reference in the second href. -/
theorem fails_on_cut_reference :
    let response := (Element.new "response").child ((Element.new "href").text "/dav/cal/a&b.ics")
    let e := ((Element.new "multistatus").child response).child response
    let shown := "<multistatus><response><href>/dav/cal/a&amp;b.ics</href></response>" ++
      "<response><href>/dav/cal/a&am"
    let cut := Utf8.encode (Xml.declaration ++ shown)
    let a : Account := { base := ⟨"https", "dav.example", ⟨"/dav/", none⟩⟩ }
    let answer : Answer := { code := 207, body := .plain cut }
    let s : Session := { server := { replies := [.answer answer] } }
    Built e ∧ e.isWellFormed = true ∧ cut <+: Utf8.encode e.document ∧
      cut ≠ Utf8.encode e.document ∧
      ∃ p, Xml.parse cut = .error p ∧
        (Exchange.perform a (.bare "GET" "cal/") s).1 = .error (.markup p) ∧
        (((search "cal/" .event none).plan a.base).run a s).1 = .error (.markup p) := by
  intro response e shown cut a answer s
  have hresponse : Built response := (Built.new _).child ((Built.new _).text _)
  have hbuilt : Built e := ((Built.new _).child hresponse).child hresponse
  have hwf : e.isWellFormed = true := by decide +kernel
  have hdocument :
      Utf8.encode e.document =
        cut ++ Utf8.encode "p;b.ics</href></response></multistatus>" := by
    have hshown : Utf8.encode e.compact =
        Utf8.encode (shown ++ "p;b.ics</href></response></multistatus>") := by
      rw [Element.compact, Utf8.encode_ofList]
      decide +kernel
    simp only [cut, Element.document, Utf8.encode_append, hshown, List.append_assoc]
  have hcut : cut <+: Utf8.encode e.document := hdocument ▸ List.prefix_append _ _
  have hproper : cut ≠ Utf8.encode e.document := by
    rw [hdocument, ne_eq, List.self_eq_append_right]
    decide +kernel
  have hlength : 5 ≤ cut.length := by
    simp only [cut, Utf8.encode_append, List.length_append]
    exact Nat.le_add_right_of_le (by decide)
  have hresolve : a.base.resolve "cal/" = .ok { a.base with target := ⟨"/dav/cal/", none⟩ } := by
    have htarget : Target.read? (a.base.targetText "cal/") = some ⟨"/dav/cal/", none⟩ := by
      decide +kernel
    rw [Uri.resolve, if_neg (by decide), htarget]
  have hcodings : answer.headers.codings = [] := by decide +kernel
  have hbody : answer.body.decode? answer.headers.codings = some cut := by
    rw [hcodings]
    rfl
  obtain ⟨p, hparse, -, hfails⟩ := fails_on_cut_document hbuilt hwf hcut hproper
  obtain ⟨hcall, hoperation⟩ := hfails hlength answer (by decide) hbody
  refine ⟨hbuilt, hwf, hcut, hproper, p, hparse, ?_, ?_⟩
  · exact hcall a (.bare "GET" "cal/") s _ [] hresolve rfl rfl
  · rcases hoperation a (search "cal/" .event none) s [] [] rfl rfl with ⟨hdone, -⟩ | hwaits
    · exact hdone
    · have hused : (((search "cal/" .event none).plan a.base).run a s).2.server.replies = [] := by
        decide +kernel
      rw [hused, List.suffix_nil] at hwaits
      cases hwaits

end Operation
end PimDav

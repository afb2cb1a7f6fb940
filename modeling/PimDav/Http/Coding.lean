import PimDav.Http.Field

/-!
# Content codings

A server may code a body more than once, and names the codings in the order in
which it applied them.  The client undoes them from the last to the first and
then drops the fields that describe the coded body.
-/

namespace PimDav
namespace Http

inductive Coding where
  | brotli
  | gzip
  | zstd
  deriving DecidableEq, Repr

/-- A body as it travels. What a coding makes of a body is not looked into: only
the same coding leads back to it, and a plain body is no coded one. -/
inductive CodedBody where
  | plain (bytes : Bytes)
  | coded (coding : Coding) (body : CodedBody)
  deriving DecidableEq, Repr

namespace Coding

/-- The coding that a token names; identity and unknown tokens name none. -/
def ofToken? (token : String) : Option Coding :=
  match Text.lower (Text.trim token) with
  | "br" => some brotli
  | "gzip" => some gzip
  | "x-gzip" => some gzip
  | "zstd" => some zstd
  | "zst" => some zstd
  | _ => none

/-- The body before a coding was applied. -/
def undo? (coding : Coding) : CodedBody → Option CodedBody
  | .plain _ => none
  | .coded applied body => if applied = coding then some body else none

end Coding

namespace CodedBody

/-- The body with codings applied one after another. -/
def apply
    (codings : List Coding)
    (body : CodedBody) : CodedBody :=
  codings.foldl (fun b c => .coded c b) body

/-- The bytes, when nothing is left to undo. -/
def bytes? : CodedBody → Option Bytes
  | plain bytes => some bytes
  | coded .. => none

/-- The bytes before the codings were applied: the last one is undone first. -/
def decode?
    (codings : List Coding)
    (body : CodedBody) : Option Bytes :=
  (codings.reverse.foldlM (fun b c => Coding.undo? c b) body).bind bytes?

end CodedBody

namespace Headers

/-- The codings of a body in the order in which they were applied. -/
def codings (h : Headers) : List Coding :=
  (h.pieces "content-encoding").filterMap Coding.ofToken?

/-- The headers that offer the known codings, unless the caller has offers. -/
def withOffer (h : Headers) : Headers :=
  h.addMissing (.ofText "accept-encoding" "br, zstd, gzip")

/-- The headers of a decoded body. -/
def decoded
    (h : Headers)
    (undone : List Coding) : Headers :=
  if undone.isEmpty then h else h.without ["content-encoding", "content-length"]

end Headers
end Http
end PimDav

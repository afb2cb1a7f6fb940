import PimDav.Text.Caseless
import PimDav.Text.Split
import PimDav.Text.Utf8

/-!
# Addresses

An absolute address has a scheme, an authority, a path and perhaps a query.  It
is kept as it was written: nothing is decoded, and neither host nor port is
checked.  A fragment is dropped.
-/

namespace PimDav

/-- A path and perhaps a query. The path is never empty. -/
structure Target where
  path : String
  query : Option String
  deriving DecidableEq, Repr

structure Uri where
  scheme : String
  authority : String
  target : Target
  deriving DecidableEq, Repr

namespace Target

/-- The greatest number of bytes that an address, or a target alone, may have. -/
def lengthLimit : Nat :=
  65534

def isPathChar (c : Char) : Bool :=
  let n := c.toNat
  n == 0x21 || n == 0x22 || (0x24 ≤ n && n ≤ 0x3B) || n == 0x3D || (0x40 ≤ n && n ≤ 0x5F) ||
    (0x61 ≤ n && n ≤ 0x7E) || 0x80 ≤ n

def isQueryChar (c : Char) : Bool :=
  let n := c.toNat
  n == 0x21 || (0x24 ≤ n && n ≤ 0x3B) || n == 0x3D || (0x3F ≤ n && n ≤ 0x7E) || 0x80 ≤ n

/-- The target before a fragment: the first question mark starts the query, and
an empty path stands for the root. -/
def ofChars? (cs : List Char) : Option Target :=
  let parts := Text.cutWhere (· == '?') (cs.takeWhile (· != '#'))
  if parts.1.all isPathChar && (parts.2.getD []).all isQueryChar then
    some {
      path := if parts.1.isEmpty then "/" else String.ofList parts.1
      query := parts.2.map String.ofList }
  else none

/-- The target that a text of its own gives. -/
def read? (s : String) : Option Target :=
  if Target.lengthLimit < (Utf8.encode s).length then none
  else
    match s.toList with
    | [] => none
    | c :: cs =>
      if c == '/' || c == '?' || c == '#' then ofChars? (c :: cs)
      else if c == '*' && cs.isEmpty then some ⟨"*", none⟩
      else none

def text (t : Target) : String :=
  t.path ++ ((t.query.map ("?" ++ ·)).getD "")

end Target

namespace Uri

/-- Why a text is no absolute address. -/
inductive Flaw where
  | malformed
  /-- It is a path or an authority by itself. -/
  | relative
  deriving DecidableEq, Repr

def isAuthorityChar (c : Char) : Bool :=
  c.isAlphanum || "!$&'()*+,-.:;=@[]_~%".toList.contains c

def isSchemeChar (c : Char) : Bool :=
  c.isAlphanum || c == '+' || c == '-' || c == '.' || c == '~'

/-- What was met while walking over an authority: colons that may stand before a
port, brackets, a percent sign, and whether the last character was an at sign. -/
structure Walk where
  colons : Nat := 0
  opened : Bool := false
  closed : Bool := false
  percent : Bool := false
  atSign : Bool := false
  deriving DecidableEq, Repr

namespace Walk

/-- One character. An at sign and a closing bracket cancel the colons and the
percent sign before them. -/
def step?
    (w : Walk)
    (c : Char) : Option Walk :=
  let w := { w with atSign := c == '@' }
  if !isAuthorityChar c then none
  else if c == ':' then
    if 8 ≤ w.colons then none else some { w with colons := w.colons + 1 }
  else if c == '[' then
    if w.percent || w.opened then none else some { w with opened := true }
  else if c == ']' then
    if !w.opened || w.closed then none
    else some { w with closed := true, colons := 0, percent := false }
  else if c == '@' then some { w with colons := 0, percent := false }
  else if c == '%' then some { w with percent := true }
  else some w

def isSound (w : Walk) : Bool :=
  w.opened == w.closed && w.colons ≤ 1 && !w.atSign && !w.percent

end Walk

/-- Whether the characters can be an authority. -/
def isAuthority (cs : List Char) : Bool :=
  !cs.isEmpty && ((cs.foldlM Walk.step? {}).map Walk.isSound).getD false

/-- The scheme of an address and what follows its two slashes. The two schemes of
the web are written small; any other keeps its letters and may be empty. -/
def splitScheme? (s : String) : Option (String × List Char) :=
  let known (scheme : String) : Option (String × List Char) :=
    let start := scheme ++ "://"
    let cs := s.toList
    if Text.lower (String.ofList (cs.take start.length)) == start then
      some (scheme, cs.drop start.length)
    else none
  let other : Option (String × List Char) :=
    let run := s.toList.takeWhile isSchemeChar
    match s.toList.dropWhile isSchemeChar with
    | ':' :: '/' :: '/' :: rest =>
      if 3 < s.length && run.length ≤ 64 then some (String.ofList run, rest) else none
    | _ => none
  ((known "http").or (known "https")).or other

/-- The absolute address that a text gives. -/
def read (s : String) : Except Flaw Uri :=
  if s.isEmpty || Target.lengthLimit < (Utf8.encode s).length then .error .malformed
  else if s == "*" then .error .relative
  else if Text.beginsWith "/" s then
    if (Target.read? s).isSome then .error .relative else .error .malformed
  else
    match splitScheme? s with
    | none => if isAuthority s.toList then .error .relative else .error .malformed
    | some (scheme, rest) =>
      let inAuthority (c : Char) : Bool := c != '/' && c != '?' && c != '#'
      let authority := rest.takeWhile inAuthority
      match Target.ofChars? (rest.dropWhile inAuthority) with
      | some target =>
        if isAuthority authority then .ok ⟨scheme, String.ofList authority, target⟩
        else .error .malformed
      | none => .error .malformed

def path (uri : Uri) : String :=
  uri.target.path

/-- The written form. -/
def text (uri : Uri) : String :=
  uri.scheme ++ "://" ++ uri.authority ++ uri.target.text

end Uri
end PimDav

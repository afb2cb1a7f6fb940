/-!
# Durations

A duration is a number of nanoseconds.  It is written in the largest unit of
seconds, milliseconds, microseconds and nanoseconds that it reaches, with an
exact decimal fraction.
-/

namespace PimDav

structure Duration where
  nanoseconds : Nat
  deriving DecidableEq, Repr

namespace Duration

def ofMilliseconds (n : Nat) : Duration :=
  ⟨n * 1000000⟩

def ofSeconds (n : Nat) : Duration :=
  ⟨n * 1000000000⟩

/-- The digits of `n < 10 ^ places` behind a decimal point, without trailing
zeros; nothing at all when `n` is zero. -/
def fraction (places n : Nat) : List Char :=
  let digits := Nat.toDigits 10 n
  let padded := List.replicate (places - digits.length) '0' ++ digits
  if n == 0 then [] else '.' :: (padded.reverse.dropWhile (· == '0')).reverse

/-- A number of nanoseconds counted in a unit of `10 ^ places` nanoseconds. -/
def inUnit
    (places n : Nat)
    (unit : String) : String :=
  let size := Nat.pow 10 places
  String.ofList (Nat.toDigits 10 (n / size) ++ fraction places (n % size)) ++ unit

/-- The written form, such as `20s`, `1.5ms` or `0ns`. -/
def text (d : Duration) : String :=
  let n := d.nanoseconds
  if n ≥ 1000000000 then inUnit 9 n "s"
  else if n ≥ 1000000 then inUnit 6 n "ms"
  else if n ≥ 1000 then inUnit 3 n "µs"
  else inUnit 0 n "ns"

example : (⟨20000000001⟩ : Duration).text = "20.000000001s" := by
  decide +kernel

end Duration
end PimDav

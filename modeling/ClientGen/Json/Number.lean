/-!
# Number literals

A number literal is kept as it is written. Two questions are asked of it: which integer it is, if it
is written as one, and whether it is small enough to be rounded to a double-precision number.
-/

namespace ClientGen.Json

/-- The parts of a number literal. -/
structure Number where
  negative : Bool
  /-- The digits before the point, as numbers below ten. -/
  whole : List Nat
  /-- The digits after the point; none if there is no point. -/
  fraction : Option (List Nat)
  /-- The exponent; none if there is none. -/
  exponent : Option Int
  deriving DecidableEq, Repr

namespace Number

/-- The value of a list of decimal digits. -/
def digitsValue (digits : List Nat) : Nat := digits.foldl (fun n d => n * 10 + d) 0

/-- The integer that a literal denotes, if it is written as one and fits 64 bits with a sign. A
negative zero is no integer. -/
def toInt? (n : Number) : Option Int :=
  match n.fraction, n.exponent with
  | none, none =>
    let value := digitsValue n.whole
    if n.negative then
      if value = 0 || Nat.pow 2 63 < value then none else some (-(value : Int))
    else
      if value < Nat.pow 2 63 then some value else none
  | _, _ => none

/-- The decimal significand and exponent that a literal is evaluated with. -/
structure Scaled where
  significand : Nat
  exponent : Int

/-- The significand can take one more digit and stay below `2 ^ 64`. -/
def Scaled.takes (s : Scaled) (digit : Nat) : Bool := s.significand * 10 + digit < Nat.pow 2 64

/-- Digits before the point: as many as fit extend the significand, the others only scale it. -/
def Scaled.whole (s : Scaled) : List Nat → Scaled
  | [] => s
  | d :: rest =>
    if s.takes d then Scaled.whole ⟨s.significand * 10 + d, s.exponent⟩ rest
    else ⟨s.significand, s.exponent + (rest.length + 1)⟩

/-- Digits after the point: as many as fit extend the significand, the others are dropped. -/
def Scaled.fraction (s : Scaled) : List Nat → Scaled
  | [] => s
  | d :: rest =>
    if s.takes d then Scaled.fraction ⟨s.significand * 10 + d, s.exponent - 1⟩ rest
    else s

/-- The significand and exponent of a literal. -/
def scaled (n : Number) : Scaled :=
  let s := (Scaled.mk 0 0).whole n.whole
  let s := s.fraction (n.fraction.getD [])
  ⟨s.significand, s.exponent + n.exponent.getD 0⟩

/-- A natural number rounded to 53 significant bits, to the nearest, ties to even. -/
def round53 (n : Nat) : Nat :=
  let bits := Nat.log2 n + 1
  if bits ≤ 53 then n
  else
    let unit := Nat.pow 2 (bits - 53)
    let q := n / unit
    let r := n % unit
    if unit < 2 * r || (unit = 2 * r && q % 2 = 1) then (q + 1) * unit else q * unit

/-- The least number that is rounded to infinity. -/
def overflowBound : Nat := (Nat.pow 2 54 - 1) * Nat.pow 2 970

/-- The literal can be rounded to a finite double-precision number: the rounded significand times
the rounded power of ten stays below the bound. -/
def inRange (n : Number) : Bool :=
  let s := n.scaled
  if s.significand = 0 || s.exponent < 0 then true
  else if 308 < s.exponent then false
  else round53 s.significand * round53 (Nat.pow 10 s.exponent.toNat) < overflowBound

end Number

end ClientGen.Json

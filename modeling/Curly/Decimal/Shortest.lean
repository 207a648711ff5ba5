import Curly.Text.Basic

namespace Curly

namespace Decimal

/-- A positive number `m * 2 ^ q`. The reals that round to it form an interval around it, whose ends
belong to it when `m` is even. -/
structure Binary where
  m : Nat
  q : Int
deriving DecidableEq, Repr

def Binary.ofFloat (x : Float) : Binary :=
  let bits : Nat := x.toBits.toNat
  let exponent : Nat := bits / 2 ^ 52 % 2 ^ 11
  let fraction : Nat := bits % 2 ^ 52
  if exponent = 0 then ⟨fraction, -1074⟩ else ⟨2 ^ 52 + fraction, (exponent : Int) - 1075⟩

namespace Binary

variable (b : Binary)

def den : Nat := 4 * 2 ^ (-b.q).toNat

def num : Nat := 4 * b.m * 2 ^ b.q.toNat

/-- Lower end of the interval. Below a power of two the doubles lie closer. -/
def low : Nat :=
  (4 * b.m - if b.m = 2 ^ 52 ∧ b.q ≠ -1074 then 1 else 2) * 2 ^ b.q.toNat

def high : Nat := (4 * b.m + 2) * 2 ^ b.q.toNat

def rounds (n : Nat) (g : Int) : Bool :=
  let point := n * b.den * 10 ^ g.toNat
  let scale := 10 ^ (-g).toNat
  if b.m % 2 = 0 then b.low * scale ≤ point && point ≤ b.high * scale
  else b.low * scale < point && point < b.high * scale

def floorOn (g : Int) : Nat := b.num * 10 ^ (-g).toNat / (b.den * 10 ^ g.toNat)

/-- Whether the number lies nearer to `n * 10 ^ g` than to the next grid point; in the middle the
even one is taken. -/
def nearerBelow (n : Nat) (g : Int) : Bool :=
  let double := 2 * b.num * 10 ^ (-g).toNat
  let middle := (2 * n + 1) * b.den * 10 ^ g.toNat
  double < middle || (double = middle && n % 2 = 0)

def neighbour? (g : Int) : Option Nat :=
  let n := b.floorOn g
  match b.rounds n g, b.rounds (n + 1) g with
  | true, true => some (if b.nearerBelow n g then n else n + 1)
  | true, false => some n
  | false, true => some (n + 1)
  | false, false => none

/-- The number is at least `10 ^ (point - 1)` and below `10 ^ point`. -/
def point : Int :=
  if b.den ≤ b.num then (Text.ofNat (b.num / b.den)).length
  else 1 - ((List.range 400).find? fun j => b.den ≤ b.num * 10 ^ j).getD 0

end Binary

/-- The decimal number `0.d₁d₂… * 10 ^ point`. -/
structure Digits where
  digits : Text
  point : Int
deriving DecidableEq, Repr

def Digits.ofGrid (n : Nat) (g : Int) : Digits :=
  let ds := Text.ofNat n
  ⟨(ds.reverse.dropWhile (· = '0')).reverse, g + ds.length⟩

/-- The shortest digits that read back as the number. For one digit, two digits and so on, its two
neighbours on that decimal grid are tried, and the first grid with a neighbour inside the interval
gives the digits. -/
def Binary.shortest (b : Binary) : Digits :=
  let grid (k : Nat) : Option Digits :=
    let g := b.point - (k + 1)
    (b.neighbour? g).map fun n => .ofGrid n g
  ((List.range 17).findSome? grid).getD (.ofGrid (b.floorOn (b.point - 17)) (b.point - 17))

end Decimal

end Curly

import Curly.EvalError
import Curly.Value.Compare

namespace Curly

namespace Value

def isWide (n : Int) : Bool := -2 ^ 127 ≤ n && n < 2 ^ 127

/-- Whole numbers are computed exactly and must fit 128 bits, signed. -/
def wide (n : Int) : Except EvalError Value :=
  if isWide n then .ok (int n) else .error .invalid

def wrapped (n : Nat) : Int := if n < 2 ^ 127 then n else (n : Int) - 2 ^ 128

/-- Where a double takes part, both operands become doubles. Two operands that are both written with
more than 64 bits are read as the signed numbers of the same 128 bits. -/
def operands? (v w : Value) : Option Numbers :=
  match v, w, numbers? toFloat? v w with
  | nat m, nat n, operands =>
    if 2 ^ 64 ≤ m && 2 ^ 64 ≤ n then some (.ints (wrapped m) (wrapped n)) else fitting operands
  | _, _, operands => fitting operands
where
  fitting : Option Numbers → Option Numbers
    | some (.ints m n) => if isWide m && isWide n then some (.ints m n) else .none
    | operands => operands

def arithmetic (ints : Int → Int → Except EvalError Value) (doubles : Float → Float → Float)
    (v w : Value) : Except EvalError Value :=
  match operands? v w with
  | some (.ints m n) => ints m n
  | some (.doubles x y) => .ok (double (doubles x y))
  | .none => .error .invalid

/-- The remainder that goes with division toward zero. -/
def floatRemainder (x y : Float) : Float :=
  if x.isNaN || y.isNaN || x.isInf || y == 0 then 0 / 0
  else if y.isInf || x == 0 then x
  else
    let a := Decimal.Binary.ofFloat x
    let b := Decimal.Binary.ofFloat y
    let q := min a.q b.q
    let r := a.m * 2 ^ (a.q - q).toNat % (b.m * 2 ^ (b.q - q).toNat)
    let magnitude := (Float.ofNat r).scaleB q
    if x < 0 then -magnitude else magnitude

def floatTruncate (x : Float) : Float := if x < 0 then x.ceil else x.floor

/-- The quotient that leaves a remainder which is not negative. -/
def floatQuotient (x y : Float) : Float :=
  let q := floatTruncate (x / y)
  if floatRemainder x y < 0 then (if y > 0 then q - 1 else q + 1) else q

def add (v w : Value) : Except EvalError Value :=
  match v, w with
  | list vs _, list ws _ => .ok (derived (vs ++ ws))
  | text s _, text t _ => .ok (plain (s ++ t))
  | v, w => arithmetic (fun m n => wide (m + n)) (· + ·) v w

def sub (v w : Value) : Except EvalError Value :=
  arithmetic (fun m n => wide (m - n)) (· - ·) v w

def count (v : Value) : Except EvalError Nat :=
  match v.toIndex? with
  | some n => if 0 ≤ n && n < 2 ^ 64 then .ok n.toNat else .error .invalid
  | .none => .error .invalid

def repetition {α : Type} (n : Nat) (items : List α) : List α :=
  if items.isEmpty then [] else (List.replicate n items).flatten

def mul (v w : Value) : Except EvalError Value :=
  match v, w with
  | text s _, w => do return plain (repetition (← w.count) s)
  | v, text s _ => do return plain (repetition (← v.count) s)
  | list vs _, w => do return derived (repetition (← w.count) vs)
  | v, list ws _ => do return derived (repetition (← v.count) ws)
  | v, w => arithmetic (fun m n => wide (m * n)) (· * ·) v w

def div (v w : Value) : Except EvalError Value :=
  match v.toFloat?, w.toFloat? with
  | some x, some y => .ok (double (x / y))
  | _, _ => .error .invalid

def quotient (v w : Value) : Except EvalError Value :=
  arithmetic (fun m n => if n = 0 then .error .invalid else wide (m / n)) floatQuotient v w

def remainder (v w : Value) : Except EvalError Value :=
  arithmetic (fun m n => if n = 0 then .error .invalid else wide (m % n)) floatRemainder v w

/-- A power with a natural exponent below `2 ^ 32`. -/
def intPower (m n : Int) : Except EvalError Value :=
  if n < 0 || 2 ^ 32 ≤ n then .error .invalid
  else if m.natAbs ≤ 1 then wide (if n = 0 then 1 else if n % 2 = 0 then m * m else m)
  else if 128 ≤ n then .error .invalid
  else wide (m ^ n.toNat)

def power (v w : Value) : Except EvalError Value := arithmetic intPower Float.pow v w

/-- The number with the other sign. The power of two that only the negative numbers of 128 bits
reach stays what it is. -/
def negate (v : Value) : Except EvalError Value :=
  match v with
  | nat n =>
    if n < 2 ^ 127 then wide (-n) else if n = 2 ^ 127 then .ok (nat n) else .error .invalid
  | int n => wide (-n)
  | double x => .ok (double (-x))
  | _ => .error .invalid

def concat (v w : Value) : Value := plain (v.toText ++ w.toText)

/-- Whether `v` is in a container. Nothing is in the undefined value. -/
def isIn (v container : Value) : Except EvalError Bool :=
  match container with
  | undefined => .ok false
  | text s _ => .ok (Text.includes s v.toText)
  | list items _ => .ok (items.any (·.equals v))
  | map _ => .ok (container.item? v).isSome
  | loop _ | function _ => .ok false
  | _ => .error .invalid

def items? : Value → Option (List Value)
  | undefined | none => some []
  | text s _ => some (s.map fun c => plain [c])
  | list items _ => some items
  | map entries => some (entries.map (·.1))
  | _ => .none

def iterate (v : Value) : Except EvalError (List Value) :=
  match v.items? with
  | some items => .ok items
  | .none => .error .invalid

end Value

end Curly

import Curly.Value.Basic

namespace Curly

namespace Value

def wholeOfFloat? (x : Float) : Option Int :=
  if x.isNaN || x.isInf then .none
  else
    let b := Decimal.Binary.ofFloat x
    let magnitude :=
      if 0 ≤ b.q then some (b.m * 2 ^ b.q.toNat)
      else if b.m % 2 ^ (-b.q).toNat = 0 then some (b.m / 2 ^ (-b.q).toNat)
      else .none
    magnitude.map fun n => if x < 0 then -n else n

def toInt? : Value → Option Int
  | bool b => some (if b then 1 else 0)
  | nat n => some n
  | int n => some n
  | _ => .none

def toFloat? : Value → Option Float
  | bool b => some (if b then 1 else 0)
  | nat n => some (.ofNat n)
  | int n => some (.ofInt n)
  | double x => some x
  | _ => .none

/-- The greatest whole number that takes as many bits as this one. -/
def greatest : Value → Int
  | nat n => if n < 2 ^ 64 then 2 ^ 64 - 1 else 2 ^ 128 - 1
  | int n => if n < 2 ^ 63 then 2 ^ 63 - 1 else 2 ^ 127 - 1
  | _ => 1

/-- The double that a number is exactly. The greatest number of a width also counts as the power of
two above it. -/
def exactFloat? (v : Value) : Option Float :=
  match v with
  | double x => some x
  | v => do
    let n ← v.toInt?
    let x ← v.toFloat?
    let m ← wholeOfFloat? x
    if min m v.greatest = n then some x else .none

/-- A number that counts places in a list, a whole double included. -/
def toIndex? : Value → Option Int
  | double x => wholeOfFloat? x
  | v => v.toInt?

inductive Numbers where
  | ints (m n : Int)
  | doubles (x y : Float)

def numbers? (convert : Value → Option Float) : Value → Value → Option Numbers
  | double x, w => (convert w).map (.doubles x ·)
  | v, double y => (convert v).map (.doubles · y)
  | v, w => do return .ints (← v.toInt?) (← w.toInt?)

/-- A whole number equals a double when it is one exactly. -/
def numbersEqual (v w : Value) : Bool :=
  match numbers? exactFloat? v w with
  | some (.ints m n) => m = n
  | some (.doubles x y) => x == y
  | .none => false

mutual

/-- Equality. Safe text equals plain text, a derived list equals any other of the same items, and
the order of a map's entries does not count. -/
def equals : Value → Value → Bool
  | undefined, undefined => true
  | none, none => true
  | text s _, text t _ => s = t
  | list vs _, list ws _ => itemsEqual vs ws
  | map es, map fs => es.length = fs.length && entriesEqual es fs
  | loop i, loop j => i = j
  | function f, function g => f = g
  | v, w => numbersEqual v w

def itemsEqual : List Value → List Value → Bool
  | [], [] => true
  | v :: vs, w :: ws => equals v w && itemsEqual vs ws
  | _, _ => false

def entriesEqual : List (Value × Value) → List (Value × Value) → Bool
  | [], _ => true
  | (k, v) :: es, fs => fs.any (fun (l, w) => equals k l && equals v w) && entriesEqual es fs

end

def Kind.rank : Kind → Nat
  | undefined => 0
  | none => 1
  | bool => 2
  | number => 3
  | text => 4
  | list => 5
  | map => 6
  | derivedList => 7
  | other => 8

/-- A key for the order of doubles that are not equal: NaNs come last. -/
def floatKey (x : Float) : Int :=
  let bits := x.toBits.toNat
  if bits < 2 ^ 63 then bits else 2 ^ 63 - 1 - (bits : Int)

def compareFloats (x y : Float) : Ordering :=
  if x == y then .eq else compare (floatKey x) (floatKey y)

/-- A whole number and a double are compared without rounding. -/
def compareMixed (n : Int) (x : Float) : Ordering :=
  if x.isNaN then .lt
  else if x.isInf then (if x < 0 then .gt else .lt)
  else
    let b := Decimal.Binary.ofFloat x
    let m : Int := if x < 0 then -b.m else b.m
    if 0 ≤ b.q then compare n (m * 2 ^ b.q.toNat) else compare (n * 2 ^ (-b.q).toNat) m

def compareNumbers (v w : Value) : Ordering :=
  match v, w with
  | double x, double y => compareFloats x y
  | double x, w => ((w.toInt?.map fun n => compareMixed n x).getD .eq).swap
  | v, double y => (v.toInt?.map fun n => compareMixed n y).getD .eq
  | v, w => compare (v.toInt?.getD 0) (w.toInt?.getD 0)

def compareText : Text → Text → Ordering
  | [], [] => .eq
  | [], _ :: _ => .lt
  | _ :: _, [] => .gt
  | c :: s, d :: t => (compare c.toNat d.toNat).then (compareText s t)

mutual

/-- The order of all values: by kind, then within the kind. Truth values count as 0 and 1 beside
numbers elsewhere, but here the kinds come first. -/
def order : Value → Value → Ordering
  | text s _, text t _ => compareText s t
  | list vs a, list ws b =>
    if a = b then itemsOrder vs ws else compare (list vs a).kind.rank (list ws b).kind.rank
  | map es, map fs => entriesOrder es fs
  | function f, function g => compareText f g
  | v, w => (compare v.kind.rank w.kind.rank).then (compareNumbers v w)

def itemsOrder : List Value → List Value → Ordering
  | [], [] => .eq
  | [], _ :: _ => .lt
  | _ :: _, [] => .gt
  | v :: vs, w :: ws => (order v w).then (itemsOrder vs ws)

def entriesOrder : List (Value × Value) → List (Value × Value) → Ordering
  | [], [] => .eq
  | [], _ :: _ => .lt
  | _ :: _, [] => .gt
  | (k, v) :: es, (l, w) :: fs => ((order k l).then (order v w)).then (entriesOrder es fs)

end

/-- Puts an entry into a map, whose entries are in the order of their keys. A key that is there
already stays as it is written. -/
def insertEntry (k v : Value) : List (Value × Value) → List (Value × Value)
  | [] => [(k, v)]
  | (l, w) :: rest =>
    match order k l with
    | .lt => (k, v) :: (l, w) :: rest
    | .eq => (l, v) :: rest
    | .gt => (l, w) :: insertEntry k v rest

def place? (index : Int) (length : Nat) : Option Nat :=
  if 0 ≤ index then some index.toNat
  else if index.natAbs ≤ length then some (length - index.natAbs)
  else .none

/-- The item of a value under a key. A map answers to the keys it has; lists and texts answer to
whole numbers. -/
def item? : Value → Value → Option Value
  | map entries, text s _ => lookupText entries s
  | map entries, k => (entries.find? fun (l, _) => order l k = .eq).map (·.2)
  | list items _, k => do items[← place? (← k.toIndex?) items.length]?
  | text s _, k => do return plain [← s[← place? (← k.toIndex?) s.length]?]
  | _, _ => .none

end Value

end Curly

import Curly.Decimal.Shortest

namespace Curly

namespace Decimal

/-- The numbers written without an exponent: those whose digits start after the `lowest` place and
not after the `highest`; all of them where a bound is missing. -/
structure Style where
  lowest : Option Int
  highest : Option Int

def Style.plain : Style := ⟨none, none⟩

/-- Inside lists and maps numbers from `10 ^ 16` up and below `10 ^ -4` show one. -/
def Style.nested : Style := ⟨some (-4), some 16⟩

/-- JSON text shows one from `10 ^ 16` up and below `10 ^ -5`. -/
def Style.json : Style := ⟨some (-5), some 16⟩

def Style.positional (s : Style) (point : Int) : Bool :=
  s.lowest.all (· < point) && s.highest.all (point ≤ ·)

namespace Digits

def zeros (n : Nat) : Text := List.replicate n '0'

def positional (d : Digits) : Text :=
  if d.point ≤ 0 then ['0', '.'] ++ zeros (-d.point).toNat ++ d.digits
  else
    let whole := d.point.toNat
    if d.digits.length ≤ whole then d.digits ++ zeros (whole - d.digits.length) ++ ['.', '0']
    else d.digits.take whole ++ ['.'] ++ d.digits.drop whole

def exponential (d : Digits) : Text :=
  let tail := d.digits.drop 1
  d.digits.take 1 ++ (if tail = [] then [] else '.' :: tail) ++ ['e'] ++ Text.ofInt (d.point - 1)

def write (s : Style) (d : Digits) : Text :=
  if s.positional d.point then d.positional else d.exponential

end Digits

def ofFloat (s : Style) (x : Float) : Text :=
  if x.isNaN then ['N', 'a', 'N']
  else
    let body :=
      if x.isInf then ['i', 'n', 'f']
      else if x == 0 then ['0', '.', '0']
      else (Binary.ofFloat x).shortest.write s
    if x.toBits.toNat ≥ 2 ^ 63 then '-' :: body else body

def toFloat (m : Nat) (e : Int) : Float := Float.ofScientific m (e < 0) e.natAbs

end Decimal

end Curly

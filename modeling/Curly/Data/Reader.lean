import Curly.Data.Basic

namespace Curly

namespace Data

def skipSpace (s : Text) : Text :=
  s.dropWhile fun c => c = ' ' || c = '\t' || c = '\n' || c = '\r'

def hexDigit? (c : Char) : Option Nat :=
  if c.isDigit then some (c.toNat - '0'.toNat)
  else if 'a' ≤ c ∧ c ≤ 'f' then some (c.toNat - 'a'.toNat + 10)
  else if 'A' ≤ c ∧ c ≤ 'F' then some (c.toNat - 'A'.toNat + 10)
  else none

def hexCode? : Text → Option (Nat × Text)
  | a :: b :: c :: d :: rest => do
    let a ← hexDigit? a
    let b ← hexDigit? b
    let c ← hexDigit? c
    let d ← hexDigit? d
    some (((a * 16 + b) * 16 + c) * 16 + d, rest)
  | _ => none

/-- The character behind `\u`; two halves of a surrogate pair stand for one character. -/
def readUnit? (s : Text) : Option (Char × Text) := do
  let (n, rest) ← hexCode? s
  if 0xD800 ≤ n ∧ n < 0xDC00 then
    let (low, rest) ← (Text.after? ['\\', 'u'] rest).bind hexCode?
    if 0xDC00 ≤ low ∧ low < 0xE000 then
      some (Char.ofNat (0x10000 + (n - 0xD800) * 0x400 + (low - 0xDC00)), rest)
    else none
  else if 0xDC00 ≤ n ∧ n < 0xE000 then none
  else some (Char.ofNat n, rest)

def readString? : (fuel : Nat) → Text → Option (Text × Text)
  | 0, _ => none
  | _, [] => none
  | _, '"' :: rest => some ([], rest)
  | fuel + 1, '\\' :: c :: rest => do
    let (c, rest) ←
      match c with
      | '"' | '\\' | '/' => some (c, rest)
      | 'b' => some ('\x08', rest)
      | 'f' => some ('\x0c', rest)
      | 'n' => some ('\n', rest)
      | 'r' => some ('\r', rest)
      | 't' => some ('\t', rest)
      | 'u' => readUnit? rest
      | _ => none
    let (s, rest) ← readString? fuel rest
    some (c :: s, rest)
  | fuel + 1, c :: rest => do
    let (s, rest) ← readString? fuel rest
    some (c :: s, rest)

def natOfDigits (ds : Text) : Nat := ds.foldl (fun n c => 10 * n + (c.toNat - '0'.toNat)) 0

def readExponent? (s : Text) : Option (Int × Text) :=
  let (negative, s) :=
    match s with
    | '-' :: s => (true, s)
    | '+' :: s => (false, s)
    | s => (false, s)
  let ds := s.takeWhile Char.isDigit
  if ds = [] then none
  else
    let n : Int := natOfDigits ds
    some (if negative then -n else n, s.dropWhile Char.isDigit)

def ofNumber (negative : Bool) (m : Nat) (e : Int) : Data :=
  let x := Decimal.toFloat m e
  double (if negative then -x else x)

/-- A number written with digits alone is whole when it fits 64 bits, signed or unsigned. Every
other number, `-0` included, is the nearest double. -/
def readNumber? (s : Text) : Option (Data × Text) := do
  let (negative, s) :=
    match s with
    | '-' :: s => (true, s)
    | s => (false, s)
  let whole := s.takeWhile Char.isDigit
  let s := s.dropWhile Char.isDigit
  if whole = [] then none
  else
    let (fraction, s) :=
      match s with
      | '.' :: s => (some (s.takeWhile Char.isDigit), s.dropWhile Char.isDigit)
      | s => (none, s)
    let (exponent, s) ←
      match s with
      | 'e' :: s | 'E' :: s => (readExponent? s).map fun (e, s) => (some e, s)
      | s => some (none, s)
    let n := natOfDigits whole
    match fraction, exponent with
    | none, none =>
      if negative then
        if 0 < n ∧ n ≤ 2 ^ 63 then some (int (-n), s) else some (ofNumber true n 0, s)
      else if n < 2 ^ 64 then some (int n, s)
      else some (ofNumber false n 0, s)
    | fraction, exponent =>
      let ds := fraction.getD []
      some (ofNumber negative (natOfDigits (whole ++ ds)) (exponent.getD 0 - ds.length), s)

mutual

def readValue? : (fuel : Nat) → Text → Option (Data × Text)
  | 0, _ => none
  | fuel + 1, s =>
    match skipSpace s with
    | '"' :: s => (readString? s.length.succ s).map fun (s, rest) => (text s, rest)
    | '[' :: s =>
      match skipSpace s with
      | ']' :: s => some (list [], s)
      | s => (readItems? fuel s).map fun (items, rest) => (list items, rest)
    | '{' :: s =>
      match skipSpace s with
      | '}' :: s => some (object [], s)
      | s => (readFields? fuel s []).map fun (fields, rest) => (object fields, rest)
    | 't' :: 'r' :: 'u' :: 'e' :: s => some (bool true, s)
    | 'f' :: 'a' :: 'l' :: 's' :: 'e' :: s => some (bool false, s)
    | 'n' :: 'u' :: 'l' :: 'l' :: s => some (null, s)
    | s => readNumber? s

def readItems? : (fuel : Nat) → Text → Option (List Data × Text)
  | 0, _ => none
  | fuel + 1, s => do
    let (d, s) ← readValue? fuel s
    match skipSpace s with
    | ',' :: s =>
      let (items, s) ← readItems? fuel s
      some (d :: items, s)
    | ']' :: s => some ([d], s)
    | _ => none

/-- Of two fields of one name the last one counts. -/
def readFields? : (fuel : Nat) → Text → List (Text × Data) → Option (List (Text × Data) × Text)
  | 0, _, _ => none
  | fuel + 1, s, fields =>
    match skipSpace s with
    | '"' :: s => do
      let (name, s) ← readString? s.length.succ s
      match skipSpace s with
      | ':' :: s =>
        let (d, s) ← readValue? fuel s
        let fields := insertByName name d fields
        match skipSpace s with
        | ',' :: s => readFields? fuel s fields
        | '}' :: s => some (fields, s)
        | _ => none
      | _ => none
    | _ => none

end

def read? (s : Text) : Option Data :=
  match readValue? (2 * s.length + 2) s with
  | some (d, rest) => if skipSpace rest = [] then some d else none
  | none => none

end Data

end Curly

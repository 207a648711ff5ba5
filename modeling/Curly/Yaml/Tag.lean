import Curly.Data.Reader
import Curly.Yaml.Basic

namespace Curly.Yaml

/-- Tags may hold any octets, written with percent signs. -/
abbrev Octets := List UInt8

def octets (s : Text) : Octets := (String.ofList s).toUTF8.toList

def textOf? (bytes : Octets) : Option Text :=
  (String.fromUTF8? ⟨bytes.toArray⟩).map String.toList

/-- Characters of a tag that stand for themselves. Between angle brackets a tag may hold commas and
square brackets. -/
def isTagChar (verbatim : Bool) (c : Char) : Bool :=
  isNameChar c || c ∈ [';', '/', '?', ':', '@', '&', '=', '+', '$', '.', '!', '~', '*', '\'', '(',
    ')'] || (verbatim && c ∈ [',', '[', ']'])

def readOctet? : Text → Option (UInt8 × Text)
  | '%' :: a :: b :: s => do some ((16 * (← Data.hexDigit? a) + (← Data.hexDigit? b)).toUInt8, s)
  | _ => none

def width? (b : UInt8) : Option Nat :=
  if b < 0x80 then some 1
  else if b < 0xC0 then none
  else if b < 0xE0 then some 2
  else if b < 0xF0 then some 3
  else if b < 0xF8 then some 4
  else none

def readTrailing? : (n : Nat) → Text → Option (Octets × Text)
  | 0, s => some ([], s)
  | n + 1, s => do
    let (b, s) ← readOctet? s
    if b < 0x80 ∨ 0xC0 ≤ b then none
    else
      let (more, s) ← readTrailing? n s
      some (b :: more, s)

def readOctets? (s : Text) : Option (Octets × Text) := do
  let (b, s) ← readOctet? s
  let (more, s) ← readTrailing? ((← width? b) - 1) s
  some (b :: more, s)

def readPart? (verbatim : Bool) : (fuel : Nat) → Text → Option (Octets × Text)
  | 0, _ => none
  | fuel + 1, s =>
    let more (bytes : Octets) (s : Text) : Option (Octets × Text) :=
      (readPart? verbatim fuel s).map fun (rest, s) => (bytes ++ rest, s)
    match s with
    | '%' :: _ => do
      let (bytes, s) ← readOctets? s
      more bytes s
    | c :: s => if isTagChar verbatim c then more [c.toUInt8] s else some ([], c :: s)
    | [] => some ([], [])

/-- A part of a tag that is not empty. A zero octet and what follows it do not count. -/
def readSome? (verbatim : Bool) (s : Text) : Option (Octets × Text) := do
  match ← readPart? verbatim (s.length + 1) s with
  | ([], _) => none
  | (bytes, s) => some (bytes.takeWhile (· ≠ 0), s)

/-- The handle and suffix of a tag, from behind its first sign. A lone sign is a suffix without
handle, and so is what stands between angle brackets. -/
def readTag? (flow : Bool) (s : Text) : Option (Text × Octets × Text) := do
  let (handle, suffix, rest) ←
    match s with
    | '<' :: s => do
      let (suffix, s) ← readSome? true s
      some ([], suffix, ← Text.after? ['>'] s)
    | s =>
      let name := s.takeWhile isNameChar
      match s.drop name.length with
      | '!' :: s => do some ('!' :: name ++ ['!'], ← readSome? false s)
      | s => do
        let (more, s) ← readPart? false (s.length + 1) s
        let suffix := octets name ++ more.takeWhile (· ≠ 0)
        if suffix = [] then some ([], octets ['!'], s) else some (['!'], suffix, s)
  if atGap rest || (flow && rest.head? = some ',') then some (handle, suffix, rest) else none

inductive Directive where
  | version (major minor : Nat)
  /-- A tag with this handle starts with these octets. -/
  | tag (handle : Text) (lead : Octets)
deriving DecidableEq, Repr

def readNumber? (s : Text) : Option (Nat × Text) :=
  let digits := s.takeWhile Char.isDigit
  if digits.length = 0 ∨ 9 < digits.length then none
  else
    some (digits.foldl (fun n c => 10 * n + (c.toNat - '0'.toNat)) 0, s.drop digits.length)

def readVersion? (s : Text) : Option (Directive × Text) := do
  let (major, s) ← readNumber? s
  let (minor, s) ← readNumber? (← Text.after? ['.'] s)
  some (.version major minor, s)

def readTagDirective? (s : Text) : Option (Directive × Text) := do
  let s ← Text.after? ['!'] s
  let name := s.takeWhile isNameChar
  let (handle, s) ←
    match name, s.drop name.length with
    | name, '!' :: s => some ('!' :: name ++ ['!'], s)
    | [], s => some (['!'], s)
    | _, _ => none
  if s.head?.any isBlank then
    let (lead, s) ← readSome? true (s.dropWhile isBlank)
    if atGap s then some (.tag handle lead, s) else none
  else none

def readDirective? (s : Text) : Option (Directive × Text) := do
  let name := s.takeWhile isNameChar
  let s := s.drop name.length
  if atGap s then
    let s := s.dropWhile isBlank
    let (d, s) ←
      if name = "YAML".toList then readVersion? s
      else if name = "TAG".toList then readTagDirective? s
      else none
    some (d, ← lineEnd? s)
  else none

abbrev Handles := List (Text × Octets)

def Directive.isVersion : Directive → Bool
  | version .. => true
  | tag .. => false

def Directive.isSupported : Directive → Bool
  | version major minor => major = 1 && (minor = 1 || minor = 2)
  | tag .. => true

def Directive.handle? : Directive → Option (Text × Octets)
  | version .. => none
  | tag handle lead => some (handle, lead)

/-- The handles of a document with these directives, none of which may repeat another. Two handles
are known if no directive changes them. -/
def Handles.ofDirectives? (ds : List Directive) : Option Handles :=
  let handles := ds.filterMap Directive.handle?
  if ds.all Directive.isSupported && (ds.filter Directive.isVersion).length ≤ 1
    && (handles.map (·.1)).Nodup then
    some (handles ++
      [(['!'], octets ['!']), (['!', '!'], octets "tag:yaml.org,2002:".toList)])
  else none

def Handles.tag? (handles : Handles) (handle : Text) (suffix : Octets) : Option Octets :=
  if handle = [] then some suffix else (handles.lookup handle).map (· ++ suffix)

end Curly.Yaml

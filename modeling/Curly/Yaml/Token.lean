import Curly.Yaml.Scalar
import Curly.Yaml.Tag

namespace Curly.Yaml

inductive Token where
  | directive (d : Directive)
  | documentStart
  | documentEnd
  | blockList
  | blockMap
  | blockEnd
  | openList
  | closeList
  | openMap
  | closeMap
  | comma
  | item
  | key
  | value
  | anchor (number : Nat)
  | aliasOf (number : Nat)
  | tag (handle : Text) (suffix : Octets)
  | scalar (style : Style) (s : Text)
deriving DecidableEq, Repr

/-- Something that turns out to be a key if a colon follows. A required one stands where only a key
can stand. -/
structure Candidate where
  /-- The number of tokens before it. -/
  index : Nat
  line : Nat
  column : Nat
  required : Bool

/-- A key without a mark has at most this many characters before its colon. -/
def longestKey : Nat := 1024

/-- How far a document has been read. Block collections are told by columns: an entry further to the
right than the innermost block opens a new one, and a token further to the left closes blocks. A key
need not be marked, so that the token for it is put in when the colon behind it is found. -/
structure Scan where
  place : Place
  /-- The latest token comes first. -/
  tokens : List Token := []
  /-- The columns of the open blocks, from the inside. -/
  columns : List Nat := []
  candidate : Option Candidate := none
  /-- The candidates around the open flow collections, from the inside. -/
  outer : List (Option Candidate) := []
  /-- Whether a key, or an item of a block, may come next. -/
  ready : Bool := true
  /-- The numbers of the known anchors. -/
  anchors : List (Text × Nat) := []

namespace Scan

def flow (x : Scan) : Bool := !x.outer.isEmpty

def least (x : Scan) : Nat := (x.columns.head?.map (· + 1)).getD 0

def push (x : Scan) (t : Token) : Scan := { x with tokens := t :: x.tokens }

def insert (x : Scan) (index : Nat) (t : Token) : Scan :=
  { x with tokens := x.tokens.insertIdx (x.tokens.length - index) t }

def moveTo (x : Scan) (rest : Text) : Scan := { x with place := x.place.moveTo rest }

def closeTo (x : Scan) (column : Nat) : Scan :=
  if x.flow then x
  else
    let ended := x.columns.takeWhile (column < ·)
    { x with
      tokens := ended.map (fun _ => .blockEnd) ++ x.tokens
      columns := x.columns.drop ended.length }

def closeAll (x : Scan) : Scan :=
  if x.flow then x
  else { x with tokens := x.columns.map (fun _ => .blockEnd) ++ x.tokens, columns := [] }

def openBlock (x : Scan) (start : Token) (index column : Nat) : Scan :=
  if x.flow || x.columns.any (column ≤ ·) then x
  else { x.insert index start with columns := column :: x.columns }

def dropKey? (x : Scan) : Option Scan :=
  if x.candidate.any (·.required) then none else some { x with candidate := none }

def tryKey? (x : Scan) : Option Scan :=
  if x.ready then
    let p := x.place
    x.dropKey?.map fun y =>
      { y with
        candidate := some {
          index := x.tokens.length
          line := p.line
          column := p.column
          required := !x.flow && x.columns.head? = some p.column } }
  else some x

/-- A candidate as long as a colon at `p` would make it a key. -/
def expire? (p : Place) : Option Candidate → Option (Option Candidate)
  | none => some none
  | some c =>
    if c.line = p.line ∧ p.column ≤ c.column + longestKey then some (some c)
    else if c.required then none
    else some none

def expireKeys? (x : Scan) : Option Scan := do
  let outer ← x.outer.mapM (expire? x.place)
  some { x with candidate := ← expire? x.place x.candidate, outer }

/-- Skips to the next token: whether a key may come then, and the rest. Tabs are skipped where no
key may come, and at the start of a line a byte order mark is. -/
def skipGaps (flow : Bool) (ready fresh : Bool) : Text → Bool × Text
  | [] => (ready, [])
  | c :: s =>
    if fresh && c = '\ufeff' then skipGaps flow ready false s
    else if c = ' ' || (c = '\t' && (flow || !ready)) then skipGaps flow ready false s
    else if c = '#' then
      have := (s.dropWhile_sublist (!isBreak ·)).length_le
      skipGaps flow ready false (s.dropWhile (!isBreak ·))
    else if isBreak c then skipGaps flow (ready || !flow) true s
    else (ready, c :: s)
termination_by s => s.length
decreasing_by all_goals simp only [List.length_cons]; omega

def toNextToken (x : Scan) : Scan :=
  let (ready, rest) := skipGaps x.flow x.ready (x.place.column = 0) x.place.rest
  { x.moveTo rest with ready }

def breakOff? (x : Scan) (t : Token) (rest : Text) : Option Scan :=
  x.closeAll.dropKey?.map fun x => { (x.push t).moveTo rest with ready := false }

def openFlow? (x : Scan) (t : Token) (rest : Text) : Option Scan :=
  x.tryKey?.map fun x =>
    { (x.push t).moveTo rest with
      outer := x.candidate :: x.outer
      candidate := none
      ready := true }

def closeFlow? (x : Scan) (t : Token) (rest : Text) : Option Scan :=
  x.dropKey?.map fun x =>
    { (x.push t).moveTo rest with
      outer := x.outer.tail
      candidate := x.outer.head?.getD none
      ready := false }

def comma? (x : Scan) (rest : Text) : Option Scan :=
  x.dropKey?.map fun x => { (x.push .comma).moveTo rest with ready := true }

def startEntry? (x : Scan) (block t : Token) (ready : Bool) (rest : Text) : Option Scan :=
  if x.flow || x.ready then
    (x.openBlock block x.tokens.length x.place.column).dropKey?.map fun x =>
      { (x.push t).moveTo rest with ready }
  else none

def value? (x : Scan) (rest : Text) : Option Scan :=
  match x.candidate with
  | some c =>
    let x := (x.insert c.index .key).openBlock .blockMap c.index c.column
    some { (x.push .value).moveTo rest with candidate := none, ready := false }
  | none => x.startEntry? .blockMap .value (!x.flow) rest

def keyPart? (x : Scan) (t : Token) (ready : Bool) (rest : Text) : Option Scan :=
  x.tryKey?.map fun x => { (x.push t).moveTo rest with ready }

def readName? (s : Text) : Option (Text × Text) :=
  let name := s.takeWhile isNameChar
  let rest := s.drop name.length
  if name ≠ []
    ∧ (atGap rest ∨ rest.head?.any (· ∈ ['?', ':', ',', ']', '}', '%', '@', '\x60'])) then
    some (name, rest)
  else none

/-- An anchor takes the number of names that are known. A name that comes again has a new number,
which the next new name has, too. -/
def anchor? (x : Scan) (s : Text) : Option Scan := do
  let (name, rest) ← readName? s
  let n := x.anchors.length
  let anchors := (name, n) :: x.anchors.filter (·.1 ≠ name)
  { x with anchors }.keyPart? (.anchor n) false rest

def aliasOf? (x : Scan) (s : Text) : Option Scan := do
  let (name, rest) ← readName? s
  x.keyPart? (.aliasOf (← x.anchors.lookup name)) false rest

def tag? (x : Scan) (s : Text) : Option Scan := do
  let (handle, suffix, rest) ← readTag? x.flow s
  x.keyPart? (.tag handle suffix) false rest

def block? (x : Scan) (folded : Bool) (s : Text) : Option Scan := do
  let (text, rest) ← readBlock? folded x.columns.head? s
  let t := .scalar (if folded then .folded else .literal) text
  (← x.dropKey?).push t |>.moveTo rest |> fun x => some { x with ready := true }

def quoted? (x : Scan) (single : Bool) (s : Text) : Option Scan := do
  let (text, rest) ← readQuoted? single (s.length + 1) false s
  x.keyPart? (.scalar .quoted text) false rest

def plain? (x : Scan) : Option Scan := do
  let s := x.place.rest
  if startsPlain x.flow s then
    let (text, broken, rest) ← readPlain? x.flow x.least (s.length + 1) s
    x.keyPart? (.scalar .plain text) broken rest
  else none

def token? (x : Scan) : Option Scan :=
  let fresh := x.place.column = 0
  match x.place.rest with
  | [] => none
  | c :: s =>
    if fresh && c = '%' then do
      let (d, rest) ← readDirective? s
      x.breakOff? (.directive d) rest
    else if fresh && atMarker (c :: s) then
      x.breakOff? (if c = '-' then .documentStart else .documentEnd) (s.drop 2)
    else
      match c with
      | '[' => x.openFlow? .openList s
      | '{' => x.openFlow? .openMap s
      | ']' => x.closeFlow? .closeList s
      | '}' => x.closeFlow? .closeMap s
      | ',' => x.comma? s
      | '-' => if atGap s then x.startEntry? .blockList .item true s else x.plain?
      | '?' => if x.flow || atGap s then x.startEntry? .blockMap .key (!x.flow) s else x.plain?
      | ':' => if x.flow || atGap s then x.value? s else x.plain?
      | '*' => x.aliasOf? s
      | '&' => x.anchor? s
      | '!' => x.tag? s
      | '|' => if x.flow then none else x.block? false s
      | '>' => if x.flow then none else x.block? true s
      | '\'' => x.quoted? true s
      | '"' => x.quoted? false s
      | _ => x.plain?

def run? : (fuel : Nat) → Scan → Option (List Token)
  | 0, _ => none
  | fuel + 1, x => do
    let x ← x.toNextToken.expireKeys?
    if x.place.rest = [] then (x.closeAll.dropKey?).map (·.tokens.reverse)
    else run? fuel (← (x.closeTo x.place.column).token?)

end Scan

def tokens? (s : Text) : Option (List Token) :=
  if s.all isAllowed then
    let s := normalize s
    Scan.run? (s.length + 1) { place := ⟨s, 0, 0⟩ }
  else none

end Curly.Yaml

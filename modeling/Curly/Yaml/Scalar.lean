import Curly.Data.Reader
import Curly.Yaml.Basic

namespace Curly.Yaml

inductive Style where
  | plain
  | quoted
  | literal
  | folded
deriving DecidableEq, Repr

/-- What a gap inside a scalar stands for. A lone line feed becomes a space, and of several line
ends the first is dropped if it is a line feed. -/
def foldGap (gap : Text) : Text :=
  match gap.filter isBreak with
  | [] => gap
  | ['\n'] => [' ']
  | '\n' :: more => more
  | breaks => breaks

def endsLine (gap : Text) : Bool := gap.getLast?.any isBreak

def escaped? : Char → Option Char
  | '0' => some '\x00'
  | 'a' => some '\x07'
  | 'b' => some '\x08'
  | 't' | '\t' => some '\t'
  | 'n' => some '\n'
  | 'v' => some '\x0b'
  | 'f' => some '\x0c'
  | 'r' => some '\r'
  | 'e' => some '\x1b'
  | ' ' => some ' '
  | '"' => some '"'
  | '/' => some '/'
  | '\\' => some '\\'
  | 'N' => some '\u0085'
  | '_' => some '\u00a0'
  | 'L' => some '\u2028'
  | 'P' => some '\u2029'
  | _ => none

def codeLength? : Char → Option Nat
  | 'x' => some 2
  | 'u' => some 4
  | 'U' => some 8
  | _ => none

def readCode? (n : Nat) (s : Text) : Option (Char × Text) := do
  if s.length < n then none
  else
    let code ← (s.take n).foldlM (fun code c => do some (16 * code + (← Data.hexDigit? c))) 0
    if code.isValidChar then some (Char.ofNat code, s.drop n) else none

def readEscape? : Text → Option (Char × Text)
  | [] => none
  | c :: s =>
    match escaped? c with
    | some d => some (d, s)
    | none => do readCode? (← codeLength? c) s

/-- The rest of a quoted scalar. A backslash in front of a gap hides the end of its line. Documents
must not seem to start or end inside; `fresh` tells whether `s` starts a line. -/
def readQuoted? (single : Bool) : (fuel : Nat) → (fresh : Bool) → (s : Text) → Option (Text × Text)
  | 0, _, _ => none
  | _ + 1, _, [] => none
  | fuel + 1, fresh, c :: s => do
    let more (part : Text) (fresh : Bool) (rest : Text) : Option (Text × Text) :=
      (readQuoted? single fuel fresh rest).map fun (t, rest) => (part ++ t, rest)
    if fresh && atMarker (c :: s) then none
    else if isGap c then
      let gap := c :: s.takeWhile isGap
      more (foldGap gap) (endsLine gap) (s.dropWhile isGap)
    else if c = '\'' && single then
      match s with
      | '\'' :: s => more ['\''] false s
      | s => some ([], s)
    else if c = '"' && !single then some ([], s)
    else if c = '\\' && !single then
      if s.head?.any isBreak then
        let gap := s.takeWhile isGap
        more ((gap.filter isBreak).drop 1) (endsLine gap) (s.dropWhile isGap)
      else
        let (d, s) ← readEscape? s
        more [d] false s
    else more [c] false s

def startsPlain (flow : Bool) : Text → Bool
  | [] => false
  | '-' :: s => !atGap s
  | c :: s =>
    if c = '?' || c = ':' then !flow && !atGap s
    else !isGap c && !isIndicator c

/-- A word of a plain scalar. A colon ends it before a gap, and in a flow collection a colon must
not stand before a flow sign. -/
def readWord? (flow : Bool) : Text → Option (Text × Text)
  | [] => some ([], [])
  | c :: s =>
    if flow && c = ':' && s.head?.any (fun d => isFlowSign d || d = '?') then none
    else if isGap c || (c = ':' && atGap s) || (flow && isFlowSign c) then some ([], c :: s)
    else (readWord? flow s).map fun (word, rest) => (c :: word, rest)

def hasStrayTab (least : Nat) : Text → Bool
  | [] => false
  | c :: gap =>
    (isBreak c && '\t' ∈ (gap.takeWhile isBlank).take least) || hasStrayTab least gap

/-- Whether a plain scalar must end with the lines that `gap` ends. Outside of flow collections, its
further lines are indented by at least `least`. -/
def cutsPlain (flow : Bool) (least : Nat) (gap rest : Text) : Bool :=
  (!flow && gap.any isBreak && (gap.reverse.takeWhile isBlank).length < least)
    || (endsLine gap && atMarker rest) || rest.head? = some '#'

def readPlain? (flow : Bool) (least : Nat) : (fuel : Nat) → Text → Option (Text × Bool × Text)
  | 0, _ => none
  | fuel + 1, s => do
    let (word, s) ← readWord? flow s
    let gap := s.takeWhile isGap
    let rest := s.dropWhile isGap
    if gap = [] then some (word, false, s)
    else if hasStrayTab least gap then none
    else if cutsPlain flow least gap rest then some (word, gap.any isBreak, rest)
    else
      match ← readPlain? flow least fuel rest with
      | ([], _) => some (word, gap.any isBreak, rest)
      | (more, broken, rest) => some (word ++ foldGap gap ++ more, broken, rest)

inductive Chomping where
  | strip
  | clip
  | keep
deriving DecidableEq, Repr

def readChomping? : Text → Option (Chomping × Text)
  | '-' :: s => some (.strip, s)
  | '+' :: s => some (.keep, s)
  | _ => none

def readIncrement? : Text → Option (Option Nat × Text)
  | [] => some (none, [])
  | c :: s =>
    if c = '0' then none
    else if c.isDigit then some (some (c.toNat - '0'.toNat), s)
    else some (none, c :: s)

def readHeader? (s : Text) : Option (Chomping × Option Nat × Text) := do
  match readChomping? s with
  | some (chomping, s) => some (chomping, ← readIncrement? s)
  | none =>
    let (increment, s) ← readIncrement? s
    if increment.isNone then some (.clip, none, s)
    else
      let (chomping, s) := (readChomping? s).getD (.clip, s)
      some (chomping, increment, s)

/-- Empty lines of a block of text: their ends, the width of the widest one or of the spaces behind
them, the column of the next content, and what starts there. -/
structure EmptyLines where
  breaks : Text
  width : Nat
  column : Nat
  rest : Text

/-- Reads empty lines. The spaces behind the indentation of the block belong to its content, and
before it is known all spaces are indentation. Tabs do not indent. -/
def readEmpty? (indent : Option Nat) : (fuel : Nat) → Text → Option EmptyLines
  | 0, _ => none
  | fuel + 1, s =>
    let spaces := (s.takeWhile (· = ' ')).length
    let n := (indent.map (min spaces)).getD spaces
    match s.drop n with
    | [] => some ⟨[], n, n, []⟩
    | c :: rest =>
      if c = '\t' && indent.all (n < ·) then none
      else if isBreak c then
        (readEmpty? indent fuel rest).map fun e =>
          { e with breaks := c :: e.breaks, width := max n e.width }
      else some ⟨[], n, n, c :: rest⟩

structure Line where
  content : Text
  ending : Text
  empties : Text

def Line.startsBlank (l : Line) : Bool := l.content.head?.any isBlank

def readLines? (indent : Nat) : (fuel : Nat) → (column : Nat) → Text → Option (List Line × Text)
  | 0, _, _ => none
  | fuel + 1, column, s => do
    if column ≠ indent ∨ s = [] then some ([], s)
    else
      let content := s.takeWhile (!isBreak ·)
      let s := s.drop content.length
      let e ← readEmpty? (some indent) (s.length + 1) (s.drop 1)
      let (lines, rest) ← readLines? indent fuel e.column e.rest
      some (⟨content, s.take 1, e.breaks⟩ :: lines, rest)

/-- What stands between two lines. Lines are folded together unless one of them starts with a
blank. -/
def joint (folded : Bool) (a b : Line) : Text :=
  if folded && a.ending = ['\n'] && !a.startsBlank && !b.startsBlank then
    if a.empties = [] then [' '] else a.empties
  else a.ending ++ a.empties

def joinLines (folded : Bool) (chomping : Chomping) : List Line → Text
  | [] => []
  | [a] =>
    a.content ++
      match chomping with
      | .strip => []
      | .clip => a.ending
      | .keep => a.ending ++ a.empties
  | a :: b :: rest => a.content ++ joint folded a b ++ joinLines folded chomping (b :: rest)

/-- A block of text, from behind its first sign, inside a block that is indented by `parent`. If no
digit tells the indentation, it is that of the first line that is not empty. -/
def readBlock? (folded : Bool) (parent : Option Nat) (s : Text) : Option (Text × Text) := do
  let (chomping, increment, s) ← readHeader? s
  let s ← lineEnd? s
  let told := increment.map (· + parent.getD 0)
  let e ← readEmpty? told (s.length + 1) s
  let indent := told.getD (max e.width (max 1 ((parent.map (· + 1)).getD 0)))
  let (lines, rest) ← readLines? indent (s.length + 1) e.column e.rest
  if lines.isEmpty && chomping ≠ .keep then some ([], rest)
  else some (e.breaks ++ joinLines folded chomping lines, rest)

end Curly.Yaml

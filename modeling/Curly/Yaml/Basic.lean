import Curly.Text.Basic

namespace Curly.Yaml

def isBlank (c : Char) : Bool := c = ' ' || c = '\t'

/-- Once line endings are normalized, a line ends in a line feed or in one of the separators of
Unicode. -/
def isBreak (c : Char) : Bool := c = '\n' || c = '\u2028' || c = '\u2029'

def isGap (c : Char) : Bool := isBlank c || isBreak c

def atGap (s : Text) : Bool := s.head?.all isGap

def atMarker (s : Text) : Bool :=
  match s with
  | '-' :: '-' :: '-' :: rest | '.' :: '.' :: '.' :: rest => atGap rest
  | _ => false

/-- What follows the line, if nothing but blanks and a comment is left of it. -/
def lineEnd? (s : Text) : Option Text :=
  let s := s.dropWhile isBlank
  match if s.head? = some '#' then s.dropWhile (!isBreak ·) else s with
  | [] => some []
  | c :: rest => if isBreak c then some rest else none

def isNameChar (c : Char) : Bool := c.isAlphanum || c = '_' || c = '-'

def isFlowSign (c : Char) : Bool := c ∈ [',', '[', ']', '{', '}']

def isIndicator (c : Char) : Bool :=
  isFlowSign c ||
    c ∈ ['-', '?', ':', '#', '&', '*', '!', '|', '>', '\'', '"', '%', '@', '\x60']

def isAllowed : Char → Bool :=
  Text.inRanges [(0x09, 0x0A), (0x0D, 0x0D), (0x20, 0x7E), (0x85, 0x85), (0xA0, 0xD7FF),
    (0xE000, 0xFFFD), (0x10000, 0x10FFFF)]

def normalize : Text → Text
  | [] => []
  | '\r' :: '\n' :: s => '\n' :: normalize s
  | '\r' :: s => '\n' :: normalize s
  | '\u0085' :: s => '\n' :: normalize s
  | c :: s => c :: normalize s

/-- A place in a document: what is left from there on, and how many lines, and characters of its
own line, come before it. -/
structure Place where
  rest : Text
  line : Nat
  column : Nat

namespace Place

def next (p : Place) : Place :=
  match p.rest with
  | [] => p
  | c :: s => if isBreak c then ⟨s, p.line + 1, 0⟩ else ⟨s, p.line, p.column + 1⟩

def advance : Nat → Place → Place
  | 0, p => p
  | n + 1, p => advance n p.next

def moveTo (p : Place) (rest : Text) : Place := advance (p.rest.length - rest.length) p

end Place

end Curly.Yaml

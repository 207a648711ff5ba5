import Curly.Mark

namespace Curly

inductive Fault where
  | pairing (e : PairingError)
  | reserved (m : Mark)
  | tripleMismatch
  | unexpected (m : Mark)
  | emptyTag
  | orphanClose (name : Text)
  | wrongClose (opened closed : Text)
  | unclosedSection (name : Text)
deriving DecidableEq, Repr

namespace Fault

def closingTag (name : Text) : Text := ['`', '{', '{', '/'] ++ name ++ ['}', '}', '`']

/-- A section as it is called in messages; without a name it shows as its tag. -/
def sectionLabel (name : Text) : Text := if name = [] then ['{', '{', '#', '}', '}'] else name

def message : Fault → Text
  | pairing e => e.message
  | reserved m => "unsupported tag `".toList ++ m.literal ++ ['`']
  | tripleMismatch =>
    ['`'] ++ Mark.literal .verbatimOpen ++ "` must be closed with `".toList
      ++ Mark.literal .tripleClose ++ ['`']
  | unexpected m => "unexpected `".toList ++ m.literal ++ ['`']
  | emptyTag => "empty tag".toList
  | orphanClose name => closingTag name ++ " closes no open section".toList
  | wrongClose opened closed =>
    "section `".toList ++ opened ++ "` closed by ".toList ++ closingTag closed
  | unclosedSection name => "unclosed section `".toList ++ sectionLabel name ++ ['`']

end Fault

structure Complaint where
  fault : Fault
  offset : Nat
deriving DecidableEq, Repr

structure Diagnostic where
  name : Text
  position : Position
  detail : Text
  context : Text
deriving DecidableEq, Repr

namespace Diagnostic

/-- The lines around a line, with their numbers: two before it and two behind it, where they
exist. -/
def window (source : Text) (line : Nat) : List (Text × Nat) :=
  (((Text.lines source).zipIdx 1).take (line + 2)).drop (line - 3)

def padLeft (width : Nat) (s : Text) : Text := List.replicate (width - s.length) ' ' ++ s

def row (width : Nat) (marked : Bool) (number : Nat) (line : Text) : Text :=
  [' ', ' ', if marked then '>' else ' ', ' '] ++ padLeft width (Text.ofNat number)
    ++ [' ', '|', ' '] ++ line ++ ['\n']

def contextAt (source : Text) (line : Nat) : Text :=
  let width := (Text.ofNat (min (line + 2) (Text.lines source).length)).length
  (window source line).flatMap fun (text, number) => row width (number = line) number text

def ofComplaint (name source : Text) (c : Complaint) : Diagnostic :=
  let position := Position.ofOffset source c.offset
  ⟨name, position, c.fault.message, contextAt source position.line⟩

def message (d : Diagnostic) : Text :=
  let head :=
    "syntax error in template `".toList ++ d.name ++ "` at ".toList ++ Text.ofNat d.position.line
      ++ [':'] ++ Text.ofNat d.position.col ++ [':', ' '] ++ d.detail
  if d.context = [] then head
  else head ++ ['\n'] ++ (d.context.reverse.dropWhile (· = '\n')).reverse

end Diagnostic

end Curly

import Curly.Text.Basic

namespace Curly

/-- Both count from one. A column counts characters, and only LF ends a line. -/
structure Position where
  line : Nat
  col : Nat
deriving DecidableEq, Repr

namespace Text

def takeBytes? : (offset : Nat) → Text → Option Text
  | 0, _ => some []
  | _ + 1, [] => none
  | n + 1, c :: s =>
    if c.utf8Size ≤ n + 1 then (takeBytes? (n + 1 - c.utf8Size) s).map (c :: ·) else none

/-- The text before an offset. One that is no place of the text, past its end or inside the bytes of
one character, stands for the end. -/
def before (s : Text) (offset : Nat) : Text := (takeBytes? offset s).getD s

end Text

namespace Position

def ofText (s : Text) : Position where
  line := s.count '\n' + 1
  col := (s.reverse.takeWhile (· ≠ '\n')).length + 1

def ofOffset (s : Text) (offset : Nat) : Position := ofText (s.before offset)

end Position

end Curly

import Curly.Text.CaseProperty
import Curly.Text.CaseTable

namespace Curly

namespace Text

def mapCase (runs : List (Nat × Nat × Nat × Int)) (sequences : List (Nat × List Nat)) (c : Char) :
    Text :=
  let n := c.toNat
  match runs.find? fun (lo, hi, step, _) => lo ≤ n && n ≤ hi && (n - lo) % step = 0 with
  | some (_, _, _, shift) => [Char.ofNat (n + shift).toNat]
  | none =>
    match sequences.find? fun (code, _) => code = n with
    | some (_, codes) => codes.map Char.ofNat
    | none => [c]

def upperChar (c : Char) : Text :=
  if c.toNat < 0x80 then [c.toUpper] else mapCase upperRuns upperSequences c

def lowerChar (c : Char) : Text :=
  if c.toNat < 0x80 then [c.toLower] else mapCase lowerRuns lowerSequences c

/-- Whether the nearest character that counts has a case. -/
def besideCased (s : Text) : Bool :=
  match s.dropWhile isCaseIgnorable with
  | [] => false
  | c :: _ => isCased c

def upper (s : Text) : Text := s.flatMap upperChar

/-- A capital sigma at the end of a word becomes the final small sigma; a word is a run of
characters that have a case, where marks and apostrophes do not count. `seen` holds the characters
before `s`, last first. -/
def lowerFrom (seen : Text) : Text → Text
  | [] => []
  | c :: s =>
    (if c = 'Σ' && besideCased seen && !besideCased s then ['ς'] else lowerChar c)
      ++ lowerFrom (c :: seen) s

def lower (s : Text) : Text := lowerFrom [] s

def capitalize : Text → Text
  | [] => []
  | c :: s => upperChar c ++ lower s

end Text

end Curly

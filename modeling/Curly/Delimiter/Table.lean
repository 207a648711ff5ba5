import Curly.Pattern.Reader
import Curly.Text.Position

namespace Curly

inductive Role where
  | opening
  | closing
deriving DecidableEq, Repr

/-- One definition of the table. Without a pattern it matches its literal. -/
structure Delimiter (κ : Type) where
  kind : κ
  literal : Text
  role : Role
  source : Option Text := none
deriving DecidableEq, Repr

def Delimiter.pattern? {κ : Type} (d : Delimiter κ) : Option Pattern :=
  match d.source with
  | none => some (.literal d.literal)
  | some source => Pattern.read? source

inductive TableError where
  | noDelimiters
  | invalidPattern (literal : Text)
  | emptyPattern (literal : Text)
deriving DecidableEq, Repr

def TableError.message : TableError → Text
  | noDelimiters => "grammar has no delimiters".toList
  | invalidPattern literal => "invalid pattern for delimiter `".toList ++ literal ++ ['`']
  | emptyPattern literal =>
    "pattern for delimiter `".toList ++ literal ++ "` matches the empty string".toList

/-- The delimiters of a table form one choice, in table order, so that of all delimiters that match
at the first possible place the earliest one wins. Each of them is a named group of that choice, and
the group that took part tells which one matched. -/
structure DelimiterTable (κ : Type) where
  defs : List (Delimiter κ)
  pattern : Pattern

namespace DelimiterTable

variable {κ : Type}

def groupName (index : Nat) : Text := 'd' :: Text.ofNat index

def choice (index : Nat) : List Pattern → Pattern
  | [] => .never
  | p :: ps => .alt (.group (some (groupName index)) p) (choice (index + 1) ps)

def checkedPattern (d : Delimiter κ) : Except TableError Pattern :=
  match d.pattern? with
  | none => .error (.invalidPattern d.literal)
  | some p => if p.matchesEmpty then .error (.emptyPattern d.literal) else .ok p

def ofDelimiters (defs : List (Delimiter κ)) : Except TableError (DelimiterTable κ) :=
  if defs = [] then .error .noDelimiters
  else do
    let pattern := choice 0 (← defs.mapM checkedPattern)
    if pattern.names.Nodup then .ok ⟨defs, pattern⟩
    else .error (.invalidPattern (Text.join [' '] (defs.map (·.literal))))

def defOf? (t : DelimiterTable κ) (names : List Text) : Option (Delimiter κ) :=
  (t.defs.zipIdx.find? fun (_, index) => groupName index ∈ names).map (·.1)

/-- The first delimiter in `s`, before which `place` characters come. -/
def find? (t : DelimiterTable κ) (place : Nat) (s : Text) : Option (Delimiter κ × Hit) := do
  let hit ← t.pattern.search? place s
  let d ← t.defOf? hit.names
  some (d, hit)

end DelimiterTable

end Curly

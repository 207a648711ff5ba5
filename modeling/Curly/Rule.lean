import Curly.Path
import Curly.Text.Quoted

namespace Curly

/-- Answers with the meaning of a content, or leaves it to others. -/
abbrev Rule := Text → Option Meaning

inductive StockRule where
  | opening
  | inverted
  | closing
  | path
deriving DecidableEq, Repr

namespace StockRule

def all : List StockRule := [opening, inverted, closing, path]

def name : StockRule → Text
  | opening => "section".toList
  | inverted => "inverted".toList
  | closing => "close".toList
  | path => "context_miss".toList

def markedWord (marker : Char) : Text → Option Text
  | c :: word => if c = marker ∧ Path.isWord word then some word else none
  | [] => none

def apply : StockRule → Rule
  | opening, content => (markedWord '#' content).map .opening
  | inverted, content => (markedWord '^' content).map .inverted
  | closing, content => (markedWord '/' content).map .closing
  | path, content => Path.meaning? content

end StockRule

namespace Rule

/-- Answers contents that start with `lead`: the rest of the content takes every place of a brace
pair in `form`, and `make` turns the outcome into a meaning. -/
def substituting (lead form : Text) (make : Text → Option Meaning) : Rule := fun content =>
  (Text.after? lead content).bind fun rest => make (Text.replace form ['{', '}'] rest)

end Rule

structure RuleTable where
  entries : List (Text × Rule)

namespace RuleTable

def stock : RuleTable := ⟨StockRule.all.map fun r => (r.name, r.apply)⟩

instance : Inhabited RuleTable := ⟨stock⟩

def insertEntry (name : Text) (f : Rule) : List (Text × Rule) → List (Text × Rule)
  | [] => [(name, f)]
  | (k, g) :: rest => if k = name then (name, f) :: rest else (k, g) :: insertEntry name f rest

/-- Puts a rule at the end, or in the place of the one of the same name. -/
def insert (t : RuleTable) (name : Text) (f : Rule) : RuleTable :=
  ⟨insertEntry name f t.entries⟩

def names (t : RuleTable) : List Text := t.entries.map (·.1)

def size (t : RuleTable) : Nat := t.entries.length

def isEmpty (t : RuleTable) : Bool := t.entries.isEmpty

def apply (t : RuleTable) : Rule := fun content =>
  t.entries.findSome? fun (_, f) => f content

def describe (t : RuleTable) : Text :=
  ['['] ++ Text.join [',', ' '] (t.names.map Text.quoted) ++ [']']

end RuleTable

end Curly

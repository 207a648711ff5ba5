import Curly.Catalog
import Curly.EvalError
import Curly.Value.Basic

namespace Curly

abbrev Helper := Value → List Value → Except EvalError Value

abbrev HelperTable := Catalog Helper

def describeNames (names : List Text) : Text :=
  ['{'] ++ Text.join [',', ' '] (names.map Text.quoted) ++ ['}']

/-- The helpers of one rendering, with its data, which every helper also gets. -/
structure BoundHelpers where
  data : Value
  helpers : HelperTable

namespace BoundHelpers

def new (data : Value) (defaults extras : HelperTable) : BoundHelpers :=
  ⟨data, defaults.overlay extras⟩

def get? (hs : BoundHelpers) (name : Text) : Option Helper := hs.helpers.get? name

def contains (hs : BoundHelpers) (name : Text) : Bool := hs.helpers.contains name

def names (hs : BoundHelpers) : List Text := hs.helpers.names

def call (hs : BoundHelpers) (name : Text) (args : List Value) : Except EvalError Value :=
  match hs.get? name with
  | some helper => helper hs.data args
  | none => .error (.unknownFunction name)

def describe (hs : BoundHelpers) : Text :=
  "HelperSet \x7b data: ".toList ++ hs.data.nestedText ++ ", helpers: ".toList
    ++ describeNames hs.names ++ [' ', '}']

end BoundHelpers

end Curly

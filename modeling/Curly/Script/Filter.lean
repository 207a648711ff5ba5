import Curly.Text.Blank
import Curly.Text.Case
import Curly.Text.Entity
import Curly.Value.Arithmetic

namespace Curly.Script

abbrev Filter := Value → List Value → Except EvalError Value

namespace Filter

def bare (f : Value → Except EvalError Value) : Filter
  | v, [] => f v
  | _, _ :: _ => .error .tooManyArguments

def ofText (f : Text → Text) : Filter := bare fun v => .ok (.plain (f v.toText))

/-- An argument, unless it counts as left out. -/
def given? (args : List Value) : Option Value := args.head?.filter fun v => !v.isMissing

def atMost (n : Nat) (args : List Value) (v : Value) : Except EvalError Value :=
  if args.length ≤ n then .ok v else .error .tooManyArguments

def strip (chars s : Text) : Text :=
  ((s.dropWhile (· ∈ chars)).reverse.dropWhile (· ∈ chars)).reverse

def trim : Filter := fun v args =>
  atMost 1 args (.plain (
    match given? args with
    | some chars => strip chars.toText v.toText
    | none => Text.trim v.toText))

def length : Value → Except EvalError Value
  | .text s _ => .ok (.nat s.length)
  | .list items _ => .ok (.nat items.length)
  | .map entries => .ok (.nat entries.length)
  | _ => .error .invalid

/-- Something else in place of an undefined value or, on request, of every falsy value. -/
def default : Filter := fun v args =>
  let falsyToo := (args[1]?.map Value.isTruthy).getD false
  let other := args.head?.getD (.plain [])
  atMost 2 args (if v.isUndefined || (falsyToo && !v.isTruthy) then other else v)

def join : Filter := fun v args => do
  let _ ← atMost 1 args v
  let joiner := ((given? args).map Value.toText).getD []
  .ok (.plain (Text.join joiner ((← v.iterate).map Value.toText)))

def first : Value → Except EvalError Value
  | .text s _ => .ok ((s.head?.map fun c => .plain [c]).getD .undefined)
  | .list items _ => .ok (items.head?.getD .undefined)
  | .map entries => .ok ((entries.head?.map (·.1)).getD .undefined)
  | _ => .error .invalid

def last : Value → Except EvalError Value
  | .text s _ => .ok ((s.getLast?.map fun c => .plain [c]).getD .undefined)
  | .list items _ => .ok (items.getLast?.getD .undefined)
  | _ => .error .invalid

def replace : Filter
  | v, [old, new] => .ok (.plain (Text.replace v.toText old.toText new.toText))
  | _, _ :: _ :: _ :: _ => .error .tooManyArguments
  | _, _ => .error .missingArgument

def reverse : Value → Except EvalError Value
  | .text s _ => .ok (.plain s.reverse)
  | .list items _ => .ok (.derived items.reverse)
  | .map entries => .ok (.derived (entries.map (·.1)).reverse)
  | .undefined => .ok .undefined
  | .none => .ok .none
  | _ => .error .invalid

/-- The order of sorted items: between two texts, the case of ASCII letters does not count. -/
def sortOrder : Value → Value → Ordering
  | .text s _, .text t _ => Value.compareText (s.map Char.toLower) (t.map Char.toLower)
  | v, w => v.order w

def sort (v : Value) : Except EvalError Value := do
  .ok (.ofList ((← v.iterate).mergeSort fun v w => sortOrder v w != .gt))

def items : Value → Except EvalError Value
  | .map entries => .ok (.derived (entries.map fun (k, v) => .ofList [k, v]))
  | _ => .error .invalid

def escape (v : Value) : Except EvalError Value :=
  .ok (if v.isSafe then v else .text (Text.escapeStrict v.toText) true)

/-- Marks as safe; a missing value becomes the empty text. -/
def unescaped (v : Value) : Except EvalError Value :=
  .ok (if v.isMissing then .plain [] else .text v.toText true)

/-- The filters that are covered: one of templates, `unescaped`, and these of the evaluator. Its
others, such as `abs`, `map` and `tojson`, count as unknown. -/
def table : List (Text × Filter) :=
  [("upper".toList, ofText Text.upper),
    ("lower".toList, ofText Text.lower),
    ("capitalize".toList, ofText Text.capitalize),
    ("trim".toList, trim),
    ("length".toList, bare length),
    ("default".toList, default),
    ("join".toList, join),
    ("first".toList, bare first),
    ("last".toList, bare last),
    ("replace".toList, replace),
    ("reverse".toList, bare reverse),
    ("list".toList, bare fun v => do .ok (.ofList (← v.iterate))),
    ("sort".toList, bare sort),
    ("items".toList, bare items),
    ("safe".toList, bare fun v => .ok (.text v.toText true)),
    ("escape".toList, bare escape),
    ("e".toList, bare escape),
    ("unescaped".toList, bare unescaped)]

def apply (name : Text) (v : Value) (args : List Value) : Except EvalError Value :=
  match table.lookup name with
  | some f => f v args
  | none => .error (.unknownFilter name)

end Filter

namespace Test

/-- The tests of the evaluator that are covered. Its others, such as `odd`, `mapping` and
`startingwith`, count as unknown. -/
def table : List (Text × (Value → Bool)) :=
  [("defined".toList, fun v => !v.isUndefined),
    ("undefined".toList, Value.isUndefined),
    ("none".toList, fun v => v.kind = .none),
    ("string".toList, fun v => v.kind = .text),
    ("number".toList, fun v => v.kind = .number)]

def apply (name : Text) (v : Value) (args : List Value) : Except EvalError Bool :=
  match table.lookup name with
  | none => .error (.unknownTest name)
  | some p => if args.isEmpty then .ok (p v) else .error .tooManyArguments

end Test

end Curly.Script

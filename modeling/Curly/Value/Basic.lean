import Curly.Data.Basic

namespace Curly

/-- Beyond data there are the undefined value, text marked as safe, running loops, and functions. A
function is known by its name, and a loop by its level, which is the number of scopes around it. -/
inductive Value where
  | undefined
  | none
  | bool (b : Bool)
  /-- A whole number as literals, data and counts give it. -/
  | nat (n : Nat)
  /-- A whole number as it is computed, or a negative one. -/
  | int (n : Int)
  | double (x : Float)
  | text (s : Text) (safe : Bool)
  /-- A derived list is one that an operator or filter makes. It is used like any other, but it
  comes behind the maps in the order of kinds. -/
  | list (items : List Value) (derived : Bool)
  | map (entries : List (Value × Value))
  | loop (level : Nat)
  | function (name : Text)
deriving Repr, Inhabited

namespace Value

abbrev plain (s : Text) : Value := text s false

abbrev ofList (items : List Value) : Value := list items false

abbrev derived (items : List Value) : Value := list items true

mutual

def ofData : Data → Value
  | .null => none
  | .bool b => bool b
  | .int (.ofNat n) => nat n
  | .int (.negSucc n) => int (.negSucc n)
  | .double x => double x
  | .text s => plain s
  | .list items => ofList (ofItems items)
  | .object fields => map (ofFields fields)

def ofItems : List Data → List Value
  | [] => []
  | d :: rest => ofData d :: ofItems rest

def ofFields : List (Text × Data) → List (Value × Value)
  | [] => []
  | (k, d) :: rest => (plain k, ofData d) :: ofFields rest

end

inductive Kind where
  | undefined
  | none
  | bool
  | number
  | text
  | list
  | map
  | derivedList
  | other
deriving DecidableEq, Repr

def kind : Value → Kind
  | undefined => .undefined
  | none => .none
  | bool _ => .bool
  | nat _ | int _ | double _ => .number
  | text _ _ => .text
  | list _ derived => if derived then .derivedList else .list
  | map _ => .map
  | loop _ | function _ => .other

def isUndefined : Value → Bool
  | undefined => true
  | _ => false

def isMissing : Value → Bool
  | undefined | none => true
  | _ => false

def isSafe : Value → Bool
  | text _ safe => safe
  | _ => false

/-- False are undefined, none, `false`, zero, and everything empty. -/
def isTruthy : Value → Bool
  | undefined | none => false
  | bool b => b
  | nat n => n ≠ 0
  | int n => n ≠ 0
  | double x => x != 0
  | text s _ => s ≠ []
  | list items _ => !items.isEmpty
  | map entries => !entries.isEmpty
  | loop _ | function _ => true

mutual

def nestedText : Value → Text
  | undefined => "undefined".toList
  | none => "none".toList
  | bool true => "true".toList
  | bool false => "false".toList
  | nat n => Text.ofNat n
  | int n => Text.ofInt n
  | double x => Decimal.ofFloat .nested x
  | text s _ => Text.quoted s
  | list items _ => '[' :: itemsText items ++ [']']
  | map entries => '{' :: entriesText entries ++ ['}']
  | loop level => "<loop ".toList ++ Text.ofNat level ++ ['>']
  | function name => "<function ".toList ++ name ++ ['>']

def itemsText : List Value → Text
  | [] => []
  | [v] => nestedText v
  | v :: w :: rest => nestedText v ++ [',', ' '] ++ itemsText (w :: rest)

def entriesText : List (Value × Value) → Text
  | [] => []
  | [(k, v)] => nestedText k ++ [':', ' '] ++ nestedText v
  | (k, v) :: e :: rest =>
    nestedText k ++ [':', ' '] ++ nestedText v ++ [',', ' '] ++ entriesText (e :: rest)

end

def toText : Value → Text
  | undefined => []
  | double x => Decimal.ofFloat .plain x
  | text s _ => s
  | v => nestedText v

def lookupText (entries : List (Value × Value)) (name : Text) : Option Value :=
  match entries with
  | [] => .none
  | (text s _, v) :: rest => if s = name then some v else lookupText rest name
  | _ :: rest => lookupText rest name

def attr? : Value → Text → Option Value
  | map entries, name => lookupText entries name
  | _, _ => .none

theorem lookupText_ofFields (fields : List (Text × Data)) (name : Text) :
    lookupText (ofFields fields) name = (fields.lookup name).map ofData := by
  induction fields with
  | nil => rfl
  | cons f rest ih =>
    obtain ⟨k, d⟩ := f
    rw [ofFields, lookupText, lookup_cons_eq_ite, ih]
    by_cases h : k = name
    · simp [h]
    · simp [h, Ne.symm h]

end Value

end Curly

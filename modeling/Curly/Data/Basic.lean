import Curly.Catalog
import Curly.Decimal.Style
import Curly.Text.Quoted

namespace Curly

/-- JSON values. Whole numbers and doubles stay apart, and the fields of an object are kept in the
order of their names. -/
inductive Data where
  | null
  | bool (b : Bool)
  | int (n : Int)
  | double (x : Float)
  | text (s : Text)
  | list (items : List Data)
  | object (fields : List (Text × Data))
deriving Repr, Inhabited

namespace Data

def get? : Data → Text → Option Data
  | object fields, name => fields.lookup name
  | _, _ => none

/-- The name that a key gives to a field. Keys are texts, truth values and finite numbers. -/
def fieldName? : Data → Option Text
  | text s => some s
  | bool true => some "true".toList
  | bool false => some "false".toList
  | int n => some (Text.ofInt n)
  | double x => if x.isFinite then some (Decimal.ofFloat .json x) else none
  | null | list _ | object _ => none

/-- The object with those entries; of two entries of one name the last one counts. -/
def ofEntries? (entries : List (Data × Data)) : Option Data := do
  let fields ← entries.foldlM (fun fields (key, d) => do
    some (insertByName (← key.fieldName?) d fields)) []
  some (object fields)

mutual

def toJson : Data → Text
  | null => ['n', 'u', 'l', 'l']
  | bool true => ['t', 'r', 'u', 'e']
  | bool false => ['f', 'a', 'l', 's', 'e']
  | int n => Text.ofInt n
  | double x => Decimal.ofFloat .json x
  | text s => s.jsonString
  | list items => '[' :: itemsToJson items ++ [']']
  | object fields => '{' :: fieldsToJson fields ++ ['}']

def itemsToJson : List Data → Text
  | [] => []
  | [d] => d.toJson
  | d :: e :: rest => d.toJson ++ [','] ++ itemsToJson (e :: rest)

def fieldsToJson : List (Text × Data) → Text
  | [] => []
  | [(k, d)] => k.jsonString ++ [':'] ++ d.toJson
  | (k, d) :: e :: rest => k.jsonString ++ [':'] ++ d.toJson ++ [','] ++ fieldsToJson (e :: rest)

end

end Data

end Curly

import Curly.Helper.Basic
import Curly.Text.Case
import Curly.Value.Access

namespace Curly

inductive StockHelper where
  /-- Always the same value. -/
  | const (v : Value)
  /-- The first argument. -/
  | echo
  /-- The number of arguments. -/
  | count
  /-- The texts of all arguments with commas between them. -/
  | concat
  /-- The text of the first argument in upper case. -/
  | upper
  /-- The text of the first argument in bold, marked as safe. -/
  | bold
  /-- An attribute of the data. -/
  | attr (name : Text)
  /-- The data. -/
  | data
  /-- An error. -/
  | fail
deriving Repr

namespace StockHelper

def bolden (s : Text) : Value := .text ("<b>".toList ++ s ++ "</b>".toList) true

def apply : StockHelper → Helper
  | const v, _, _ => .ok v
  | echo, _, args => .ok (args.head?.getD .undefined)
  | count, _, args => .ok (.nat args.length)
  | concat, _, args => .ok (.plain (Text.join [','] (args.map Value.toText)))
  | upper, _, v :: _ => .ok (.plain (Text.upper v.toText))
  | upper, _, [] => .error .missingArgument
  | bold, _, args => .ok (bolden ((args.head?.map Value.toText).getD []))
  | attr name, d, _ => d.getAttr name
  | data, d, _ => .ok d
  | fail, _, _ => .error (.invalidOperation (some "helper failed".toList))

end StockHelper

end Curly

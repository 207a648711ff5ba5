import Curly.EvalError
import Curly.Value.Compare

namespace Curly

namespace Value

/-- What a value does not have is undefined, but nothing can be asked of the undefined value
itself. -/
def found (v : Value) (part : Option Value) : Except EvalError Value :=
  match part with
  | some w => .ok w
  | .none => if v.isUndefined then .error .undefinedParent else .ok undefined

def getAttr (v : Value) (name : Text) : Except EvalError Value := found v (v.attr? name)

def getItem (v key : Value) : Except EvalError Value := found v (v.item? key)

end Value

end Curly

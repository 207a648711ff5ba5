import Curly.Text.Basic

namespace Curly

inductive EvalError where
  | invalidOperation (detail : Option Text)
  /-- An attribute or item of the undefined value was asked for. -/
  | undefinedParent
  | unknownFunction (name : Text)
  | unknownMethod (name : Text)
  | unknownFilter (name : Text)
  | unknownTest (name : Text)
  | unknownBlock (name : Text)
  | missingArgument
  | tooManyArguments
  | cannotUnpack
deriving DecidableEq, Repr

namespace EvalError

def invalid : EvalError := invalidOperation none

def detail : EvalError → Option Text
  | invalidOperation detail => detail
  | unknownFunction name => some ("helper `".toList ++ name ++ "` is not defined".toList)
  | _ => none

end EvalError

end Curly

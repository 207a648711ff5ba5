import Curly.Value.Arithmetic

namespace Curly.Script

inductive UnaryOp where
  | not
  | negate
deriving DecidableEq, Repr

inductive BinaryOp where
  | or | and
  | add | sub | concat
  | mul | div | quotient | remainder
  | power
deriving DecidableEq, Repr

inductive Comparison where
  | eq | ne | lt | le | gt | ge
  | isIn | notIn
deriving DecidableEq, Repr

namespace UnaryOp

def apply (op : UnaryOp) (v : Value) : Except EvalError Value :=
  match op with
  | not => .ok (.bool !v.isTruthy)
  | negate => v.negate

end UnaryOp

namespace BinaryOp

/-- An operator on two values. For `or` and `and` this is the outcome when both are looked at. -/
def apply (op : BinaryOp) (v w : Value) : Except EvalError Value :=
  match op with
  | or => .ok (if v.isTruthy then v else w)
  | and => .ok (if v.isTruthy then w else v)
  | add => v.add w
  | sub => v.sub w
  | concat => .ok (v.concat w)
  | mul => v.mul w
  | div => v.div w
  | quotient => v.quotient w
  | remainder => v.remainder w
  | power => v.power w

def settles (op : BinaryOp) (v : Value) : Bool :=
  match op with
  | or => v.isTruthy
  | and => !v.isTruthy
  | _ => false

/-- An operator on two constants. Here `and` is false when one of them is. -/
def fold (op : BinaryOp) (v w : Value) : Except EvalError Value :=
  match op with
  | and => .ok (if v.isTruthy && w.isTruthy then w else .bool false)
  | op => op.apply v w

end BinaryOp

namespace Comparison

def holds (c : Comparison) (v w : Value) : Except EvalError Bool :=
  match c with
  | eq => .ok (v.equals w)
  | ne => .ok (!v.equals w)
  | lt => .ok (v.order w == .lt)
  | le => .ok (v.order w != .gt)
  | gt => .ok (v.order w == .gt)
  | ge => .ok (v.order w != .lt)
  | isIn => v.isIn w
  | notIn => (v.isIn w).map (!·)

end Comparison

end Curly.Script

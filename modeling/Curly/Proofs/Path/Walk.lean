import Curly.Proofs.Path.Expression
import Curly.Proofs.Script.Demand

namespace Curly

theorem Value.isUndefined_of_isTruthy {v : Value} (h : v.isTruthy = true) :
    v.isUndefined = false := by
  cases v with
  | undefined => cases h
  | _ => rfl

theorem Value.isTruthy_of_isUndefined {v : Value} (h : v.isUndefined = true) :
    v.isTruthy = false := by
  cases v with
  | undefined => rfl
  | _ => cases h

theorem Value.found_eq {v : Value} (hv : v.isUndefined = false) (part : Option Value) :
    found v part = .ok (part.getD undefined) := by
  cases part with
  | none => simp [found, hv]
  | some w => rfl

namespace Script.Env

open Curly.Path

def member (env : Env) (s : Scope) : Value → Text → Value
  | .loop level, name =>
    ((Scope.countersAt? level (s :: env.outer)).bind (·.attr? name)).getD .undefined
  | v, name => (v.attr? name).getD .undefined

def part (env : Env) (s : Scope) (v : Value) (segment : Text) : Value :=
  match startsWithDigit segment, numeral? segment with
  | true, some n => (v.item? (.nat n)).getD .undefined
  | _, _ => env.member s v segment

def root (env : Env) (s : Scope) (name : Text) : Value :=
  if isQuoted name then env.member s (env.lookup s data) name else env.lookup s name

/-- What segments lead to, when everything on the way there and the leaf itself are truthy. -/
def leaf? (env : Env) (s : Scope) (v : Value) : List Text → Option Value
  | [] => if v.isTruthy then some v else none
  | segment :: rest => if v.isTruthy then leaf? env s (env.part s v segment) rest else none

/-- What a path stands for: a name alone for its value, and a longer path for its leaf. -/
def found? (env : Env) (s : Scope) (name : Text) : List Text → Option Value
  | [] => if (env.root s name).isUndefined then none else some (env.root s name)
  | segments => env.leaf? s (env.root s name) segments

variable {env : Env} {s : Scope}

theorem getAttr_eq {v : Value} (hv : v.isUndefined = false) (name : Text) :
    env.getAttr s v name = .ok (env.member s v name) := by
  cases v with
  | loop level => rfl
  | _ =>
    rw [getAttr, Value.getAttr, Value.found_eq hv, member]
    all_goals nofun

theorem getItem_nat {v : Value} (hv : v.isUndefined = false) (n : Nat) :
    env.getItem s v (.nat n) = .ok ((v.item? (.nat n)).getD .undefined) := by
  have hitem : env.getItem s v (.nat n) = v.getItem (.nat n) := by cases v <;> rfl
  rw [hitem, Value.getItem, Value.found_eq hv]

theorem getItem_plain (v : Value) (name : Text) :
    env.getItem s v (.plain name) = env.getAttr s v name := by
  cases v <;> rfl

theorem found?_cons (name segment : Text) (segments : List Text) :
    env.found? s name (segment :: segments) =
      env.leaf? s (env.root s name) (segment :: segments) := rfl

theorem leaf?_of_falsy {v : Value} (h : v.isTruthy = false) (segments : List Text) :
    env.leaf? s v segments = none := by
  cases segments <;> simp [leaf?, h]

end Script.Env

namespace Path

open Script Expr

variable {env : Env} {s : Scope}

theorem eval_item_const {e : Expr} {v : Value} (he : e.eval env s = .ok v) (w : Value) :
    (Expr.item e (.const w)).eval env s = env.getItem s v w := by
  rw [Expr.eval_item, he, Expr.eval_const]
  rfl

theorem eval_segmentExpr {e : Expr} {v : Value} (he : e.eval env s = .ok v)
    (hv : v.isUndefined = false) (segment : Text) :
    (segmentExpr e segment).eval env s = .ok (env.part s v segment) := by
  have ha : (Expr.attr e segment).eval env s = .ok (env.member s v segment) := by
    rw [Expr.eval_attr, he]
    exact Env.getAttr_eq hv segment
  rw [segmentExpr, Env.part]
  cases startsWithDigit segment with
  | false => exact ha
  | true =>
    cases numeral? segment with
    | none => exact ha
    | some n => exact (eval_item_const he _).trans (Env.getItem_nat hv n)

theorem eval_rootExpr (hd : (env.lookup s data).isUndefined = false) (name : Text) :
    (rootExpr name).eval env s = .ok (env.root s name) := by
  rw [rootExpr, Env.root]
  cases isQuoted name with
  | false => exact Expr.eval_name name
  | true =>
    rw [if_pos rfl, if_pos rfl, eval_item_const (Expr.eval_name data), Env.getItem_plain,
      Env.getAttr_eq hd]

theorem constant?_rootExpr (name : Text) : (rootExpr name).constant? = none := by
  rw [rootExpr]
  split <;> rfl

theorem constant?_and {e : Expr} (h : e.constant? = none) (e' : Expr) :
    (Expr.binary .and e e').constant? = none := by
  simp [Expr.constant?, h]

theorem eval_binary_of_eval {op : BinaryOp} {l r : Expr} {v : Value} (hc : l.constant? = none)
    (hl : l.eval env s = .ok v) :
    (Expr.binary op l r).eval env s =
      if op.settles v then .ok v else (r.eval env s).bind (op.apply v) := by
  rw [Expr.eval_binary (.inl hc), hl, Except.bind]

theorem eval_and_of_falsy {operands : List (List Lexeme × Expr)} {e : Expr} {v : Value}
    (hc : e.constant? = none) (he : e.eval env s = .ok v) (hv : v.isTruthy = false) :
    (operands.foldl (fun e o => .binary .and e o.2) e).eval env s = .ok v := by
  induction operands generalizing e with
  | nil => exact he
  | cons o operands ih =>
    refine ih (constant?_and hc o.2) ?_
    rw [eval_binary_of_eval hc he, if_pos (by simp [BinaryOp.settles, hv])]

/-- The conjunction of the references to a path is its leaf when all of them are truthy, and
something falsy otherwise. -/
theorem eval_references {ls : List Lexeme} {e reference : Expr} {v : Value}
    (hc : e.constant? = none) (he : e.eval env s = .ok v) (hr : reference.eval env s = .ok v)
    (segments : List Text) :
    ∃ w, ((references ls reference segments).foldl (fun e o => .binary .and e o.2) e).eval env s =
        .ok w ∧ env.leaf? s v segments = if w.isTruthy then some w else none := by
  -- The conjunction so far and the last reference have the same value, so the next segment is
  -- never asked of the undefined value.
  induction segments generalizing ls e reference v with
  | nil => exact ⟨v, he, rfl⟩
  | cons segment segments ih =>
    cases hv : v.isTruthy with
    | false => exact ⟨v, eval_and_of_falsy hc he hv, by simp [Env.leaf?, hv]⟩
    | true =>
      have hs := eval_segmentExpr hr (Value.isUndefined_of_isTruthy hv) segment
      have hnext : (Expr.binary .and e (segmentExpr reference segment)).eval env s =
          .ok (env.part s v segment) := by
        rw [eval_binary_of_eval hc he, if_neg (by simp [BinaryOp.settles, hv]), hs]
        simp [Except.bind, BinaryOp.apply, hv]
      rw [Env.leaf?, if_pos hv]
      exact ih (constant?_and hc _) hnext hs

theorem eval_conjunction (hd : (env.lookup s data).isUndefined = false) (name : Text)
    (segments : List Text) :
    ∃ w, (conjunction name segments).eval env s = .ok w ∧
      env.leaf? s (env.root s name) segments = if w.isTruthy then some w else none :=
  eval_references (constant?_rootExpr name) (eval_rootExpr hd name) (eval_rootExpr hd name) segments

theorem constant?_conjunction (name : Text) (segments : List Text) :
    (conjunction name segments).constant? = none := by
  have hfold (operands : List (List Lexeme × Expr)) (e : Expr) (h : e.constant? = none) :
      (operands.foldl (fun e o => .binary .and e o.2) e).constant? = none := by
    induction operands generalizing e with
    | nil => exact h
    | cons o operands ih => exact ih _ (constant?_and h o.2)
  exact hfold _ _ (constant?_rootExpr name)

theorem eval_defined (hd : (env.lookup s data).isUndefined = false) (name : Text) :
    (Expr.test (rootExpr name) "defined".toList []).eval env s =
      .ok (.bool !(env.root s name).isUndefined) := by
  rw [Expr.eval_test, eval_rootExpr hd, Expr.evalAll_nil]
  rfl

theorem eval_ifDefined (hd : (env.lookup s data).isUndefined = false) (name : Text) (yes : Expr)
    (v : Value) :
    (Expr.cond (.test (rootExpr name) "defined".toList []) yes (.const v)).eval env s =
      if (env.root s name).isUndefined then .ok v else yes.eval env s := by
  rw [Expr.eval_cond, eval_defined hd, Expr.eval_const]
  cases (env.root s name).isUndefined <;> rfl

/-- A guarded path evaluates to what the path stands for, and never fails. -/
theorem eval_guardedExpr (hd : (env.lookup s data).isUndefined = false) (name : Text)
    (segments : List Text) :
    (guardedExpr name segments).eval env s =
      .ok ((env.found? s name segments).getD (.plain [])) := by
  rw [guardedExpr, eval_ifDefined hd]
  cases segments with
  | nil =>
    rw [if_pos rfl, eval_rootExpr hd, Env.found?]
    cases (env.root s name).isUndefined <;> rfl
  | cons segment segments =>
    obtain ⟨w, hw, hleaf⟩ := eval_conjunction hd name (segment :: segments)
    have hor : (Expr.binary .or (conjunction name (segment :: segments))
        (.const (.plain []))).eval env s = .ok (if w.isTruthy then w else .plain []) := by
      rw [eval_binary_of_eval (constant?_conjunction _ _) hw, Expr.eval_const]
      cases ht : w.isTruthy <;> simp [BinaryOp.settles, BinaryOp.apply, ht, Except.bind]
    rw [if_neg (List.cons_ne_nil _ _), hor, Env.found?_cons, hleaf]
    cases hu : (env.root s name).isUndefined with
    | false => cases w.isTruthy <;> rfl
    | true =>
      rw [← hleaf, Env.leaf?_of_falsy (Value.isTruthy_of_isUndefined hu), if_pos rfl]
      rfl

def printedValue (unescaped : Bool) (v : Value) : Value :=
  if unescaped then (if v.isMissing then .plain [] else .text v.toText true) else v

theorem eval_printedExpr {e : Expr} {v : Value} (he : e.eval env s = .ok v) (unescaped : Bool) :
    (printedExpr unescaped e).eval env s = .ok (printedValue unescaped v) := by
  cases unescaped with
  | false => exact he
  | true =>
    rw [printedExpr, if_pos rfl, Expr.eval_filter, he, Expr.evalAll_nil]
    rfl

end Path

end Curly

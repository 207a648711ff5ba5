import Curly.Proofs.Outcome
import Curly.Script.Eval

namespace Curly.Script.Expr

/-- The operands that are evaluated in any case. -/
def operands : Expr → List Expr
  | const _ | name _ => []
  | list items => items
  | map entries => entries.flatMap fun (k, e) => [k, e]
  | unary _ e => [e]
  | binary _ l r => if l.constant? = none ∨ r.constant? = none then [l] else []
  | compare e [] => [e]
  | compare e ((_, e') :: _) => [e, e']
  | cond guard _ _ => [guard]
  | attr e _ => [e]
  | item e key => [e, key]
  | call (name _) args | call (attr (name _) _) args => args
  | call (attr e _) args => e :: args
  | call f args => f :: args
  | filter e _ args | test e _ args => e :: args

variable {env : Env} {s : Scope}

variable (env s) in
/-- To evaluate the first expression is, among other things, to evaluate the second. -/
inductive Demands : Expr → Expr → Prop
  | self (e : Expr) : Demands e e
  | operand {e o f : Expr} (h : o ∈ e.operands) (hd : Demands o f) : Demands e f
  | right {op : BinaryOp} {l r f : Expr} {v : Value}
      (hc : l.constant? = none ∨ r.constant? = none) (hl : l.eval env s = .ok v)
      (hv : op.settles v = false) (hd : Demands r f) : Demands (.binary op l r) f
  | yes {guard yes no f : Expr} {v : Value} (hg : guard.eval env s = .ok v)
      (hv : v.isTruthy = true) (hd : Demands yes f) : Demands (.cond guard yes no) f
  | no {guard yes no f : Expr} {v : Value} (hg : guard.eval env s = .ok v)
      (hv : v.isTruthy = false) (hd : Demands no f) : Demands (.cond guard yes no) f
  | chain {e e' f : Expr} {c : Comparison} {links : List (Comparison × Expr)} {v w : Value}
      (he : e.eval env s = .ok v) (he' : e'.eval env s = .ok w) (hc : c.holds v w = .ok true)
      (hd : Demands (.compare e' links) f) : Demands (.compare e ((c, e') :: links)) f

theorem exists_of_evalAll {es : List Expr} {vs : List Value} (h : evalAll env s es = .ok vs) :
    ∀ e ∈ es, ∃ v, e.eval env s = .ok v := by
  induction es generalizing vs with
  | nil => simp
  | cons e es ih =>
    rw [evalAll_cons] at h
    obtain ⟨v, hv, h⟩ := exists_of_bind_eq_ok h
    obtain ⟨ws, hws, -⟩ := exists_of_bind_eq_ok h
    exact List.forall_mem_cons.mpr ⟨⟨v, hv⟩, ih hws⟩

theorem exists_of_evalEntries {entries : List (Expr × Expr)} {done vs : List (Value × Value)}
    (h : evalEntries env s entries done = .ok vs) :
    ∀ e ∈ entries.flatMap fun (k, e) => [k, e], ∃ v, e.eval env s = .ok v := by
  induction entries generalizing done with
  | nil => simp
  | cons entry entries ih =>
    obtain ⟨k, e⟩ := entry
    rw [evalEntries_cons] at h
    obtain ⟨v, hv, h⟩ := exists_of_bind_eq_ok h
    obtain ⟨w, hw, h⟩ := exists_of_bind_eq_ok h
    rw [List.flatMap_cons]
    exact List.forall_mem_cons.mpr ⟨⟨v, hv⟩, List.forall_mem_cons.mpr ⟨⟨w, hw⟩, ih h⟩⟩

theorem exists_of_bind_evalAll {α : Type} {e : Expr} {args : List Expr}
    {f : Value → List Value → Except EvalError α} {a : α}
    (h : (e.eval env s).bind (fun v => (evalAll env s args).bind (f v)) = .ok a) :
    ∀ o ∈ e :: args, ∃ v, o.eval env s = .ok v := by
  obtain ⟨v, hv, h⟩ := exists_of_bind_eq_ok h
  obtain ⟨vs, hvs, -⟩ := exists_of_bind_eq_ok h
  exact List.forall_mem_cons.mpr ⟨⟨v, hv⟩, exists_of_evalAll hvs⟩

theorem eval_operand {e : Expr} {v : Value} (he : e.eval env s = .ok v) :
    ∀ o ∈ e.operands, ∃ w, o.eval env s = .ok w := by
  cases e with
  | const | name => nofun
  | list items =>
    rw [eval_list] at he
    obtain ⟨vs, hvs, -⟩ := exists_of_bind_eq_ok he
    exact exists_of_evalAll hvs
  | map entries =>
    rw [eval_map] at he
    obtain ⟨vs, hvs, -⟩ := exists_of_bind_eq_ok he
    exact exists_of_evalEntries hvs
  | unary op e =>
    rw [eval_unary] at he
    obtain ⟨w, hw, -⟩ := exists_of_bind_eq_ok he
    simpa [operands] using ⟨w, hw⟩
  | attr e n =>
    rw [eval_attr] at he
    obtain ⟨w, hw, -⟩ := exists_of_bind_eq_ok he
    simpa [operands] using ⟨w, hw⟩
  | cond guard yes no =>
    rw [eval_cond] at he
    obtain ⟨w, hw, -⟩ := exists_of_bind_eq_ok he
    simpa [operands] using ⟨w, hw⟩
  | item e key =>
    rw [eval_item] at he
    obtain ⟨w, hw, he⟩ := exists_of_bind_eq_ok he
    obtain ⟨k, hk, -⟩ := exists_of_bind_eq_ok he
    simpa [operands] using ⟨⟨w, hw⟩, ⟨k, hk⟩⟩
  | filter e n args =>
    rw [eval_filter] at he
    exact exists_of_bind_evalAll he
  | test e n args =>
    rw [eval_test] at he
    exact exists_of_bind_evalAll he
  | binary op l r =>
    intro o ho
    rw [operands] at ho
    split at ho
    · next hc =>
      obtain rfl := List.mem_singleton.mp ho
      rw [eval_binary hc] at he
      obtain ⟨w, hw, -⟩ := exists_of_bind_eq_ok he
      exact ⟨w, hw⟩
    · cases ho
  | compare e links =>
    rw [eval_compare] at he
    obtain ⟨w, hw, he⟩ := exists_of_bind_eq_ok he
    cases links with
    | nil => simpa [operands] using ⟨w, hw⟩
    | cons link links =>
      obtain ⟨holds, hchain, -⟩ := exists_of_bind_eq_ok he
      rw [evalChain_cons] at hchain
      obtain ⟨w', hw', -⟩ := exists_of_bind_eq_ok hchain
      simpa [operands] using ⟨⟨w, hw⟩, ⟨w', hw'⟩⟩
  | call f args =>
    -- A callee that is a name, or a member of a name, is no expression to evaluate.
    cases f with
    | name n =>
      rw [eval_call_name] at he
      obtain ⟨vs, hvs, -⟩ := exists_of_bind_eq_ok he
      exact exists_of_evalAll hvs
    | attr e m =>
      cases e with
      | name n =>
        rw [eval_call_member] at he
        split at he
        · cases he
        · obtain ⟨vs, hvs, -⟩ := exists_of_bind_eq_ok he
          exact exists_of_evalAll hvs
      | _ => exact exists_of_bind_evalAll (f := (env.callMethod · m)) he
    | _ => exact exists_of_bind_evalAll (f := env.callValue) he

/-- What an evaluation that succeeds comes to is evaluated with success. -/
theorem Demands.exists_eval {e f : Expr} (h : e.Demands env s f) {v : Value}
    (he : e.eval env s = .ok v) : ∃ w, f.eval env s = .ok w := by
  induction h generalizing v with
  | self e => exact ⟨v, he⟩
  | operand h _ ih =>
    obtain ⟨w, hw⟩ := eval_operand he _ h
    exact ih hw
  | right hc hl hv _ ih =>
    rw [eval_binary hc, hl, Except.bind, if_neg (by simp [hv])] at he
    obtain ⟨w, hw, -⟩ := exists_of_bind_eq_ok he
    exact ih hw
  | yes hg hv _ ih =>
    rw [eval_cond, hg] at he
    exact ih ((if_pos hv).symm.trans he)
  | no hg hv _ ih =>
    rw [eval_cond, hg] at he
    exact ih ((if_neg (by simp [hv])).symm.trans he)
  | @chain e e' f c links v' w hv hw hc _ ih =>
    rw [eval_compare, hv, Except.bind, evalChain_cons, hw, Except.bind, hc, Except.bind,
      if_pos rfl] at he
    exact ih (by rw [eval_compare, hw, Except.bind, he])

/-- An evaluation that succeeds has asked no member of the undefined value. -/
theorem Demands.isDefined_of_attr {e f : Expr} {n : Text} (h : e.Demands env s (.attr f n))
    {v : Value} (he : e.eval env s = .ok v) :
    ∃ w, f.eval env s = .ok w ∧ w.isUndefined = false := by
  obtain ⟨u, hu⟩ := h.exists_eval he
  rw [eval_attr] at hu
  obtain ⟨w, hw, hu⟩ := exists_of_bind_eq_ok hu
  refine ⟨w, hw, ?_⟩
  cases w with
  | undefined => cases hu
  | _ => rfl

theorem Demands.isDefined_of_item {e f k : Expr} (h : e.Demands env s (.item f k)) {v : Value}
    (he : e.eval env s = .ok v) : ∃ w, f.eval env s = .ok w ∧ w.isUndefined = false := by
  obtain ⟨u, hu⟩ := h.exists_eval he
  rw [eval_item] at hu
  obtain ⟨w, hw, hu⟩ := exists_of_bind_eq_ok hu
  obtain ⟨x, -, hu⟩ := exists_of_bind_eq_ok hu
  refine ⟨w, hw, ?_⟩
  cases w with
  | undefined => cases hu
  | _ => rfl

end Curly.Script.Expr

import Curly.Proofs.Path.Lookup
import Curly.Proofs.Path.Walk

namespace Curly

namespace Path

open Script Expr

variable {env : Env} {s : Scope}

def Finds (env : Env) (s : Scope) (data : Data) (name : Text) : Prop :=
  env.lookup s name =
    Value.ofFound (if name = Path.data then some data.whole else data.get? name)

theorem lookup_start (context : Catalog Value) (call : Text → List Value → Except EvalError Value)
    (escape : Escaping) (name : Text) :
    Env.lookup ⟨context, call, escape, []⟩ {} name = (context.get? name).getD .undefined := by
  have hscope : Scope.lookup? name [{}] = none := by
    rw [Scope.lookup?, Scope.lookup?]
    split <;> rfl
  rw [Env.lookup, Env.lookup?, hscope, Option.none_or]

theorem finds_ofData {data : Data} (hd : data.HasDistinctNames) {hs : BoundHelpers}
    (hdata : hs.data = .ofData data) {call : Text → List Value → Except EvalError Value}
    {escape : Escaping} {name : Text} (hn : name ∈ hs.names → name = Path.data) :
    Finds ⟨Context.ofData data hs, call, escape, []⟩ {} data name := by
  rw [Finds, lookup_start, Context.get?_ofData_of_not_mem hd hdata hn]
  cases if name = Path.data then some data.whole else data.get? name <;> rfl

theorem member_ofData (d : Data) (name : Text) :
    env.member s (.ofData d) name = .ofFound (d.get? name) := by
  have hloop (level : Nat) : Value.ofData d ≠ .loop level := by
    cases d with
    | int n => cases n <;> simp [Value.ofData]
    | _ => simp [Value.ofData]
  rw [Env.member, Value.attr?_ofData]
  · cases d.get? name <;> rfl
  · exact hloop

theorem part_ofData (d : Data) (segment : Text) :
    env.part s (.ofData d) segment = .ofFound (d.part? segment) := by
  rw [Env.part, Data.part?]
  cases startsWithDigit segment with
  | false => exact member_ofData d segment
  | true =>
    cases numeral? segment with
    | none => exact member_ofData d segment
    | some n =>
      simp only [Value.item?_nat_ofData]
      cases d.index? n <;> rfl

theorem root_of_finds {data : Data} {name : Text} (hn : Finds env s data name)
    (hd : Finds env s data Path.data) : env.root s name = .ofFound (data.root? name) := by
  rw [Env.root, Data.root?, hn, hd, if_pos rfl]
  split
  · exact member_ofData data.whole name
  · rfl

theorem leaf?_ofData (d : Data) (segments : List Text) :
    env.leaf? s (.ofData d) segments = (d.leaf? segments).map Value.ofData := by
  induction segments generalizing d with
  | nil =>
    rw [Env.leaf?, Data.leaf?, Value.isTruthy_ofData]
    split <;> rfl
  | cons segment segments ih =>
    rw [Env.leaf?, Data.leaf?, Value.isTruthy_ofData, part_ofData]
    split
    · cases d.part? segment with
      | none => exact Env.leaf?_of_falsy rfl segments
      | some part => exact ih part
    · rfl

theorem found?_of_finds {data : Data} {name : Text} (hn : Finds env s data name)
    (hd : Finds env s data Path.data) (segments : List Text) :
    env.found? s name segments = (data.lookup? name segments).map Value.ofData := by
  have hroot := root_of_finds hn hd
  cases segments with
  | nil =>
    rw [Env.found?, Data.lookup?, hroot]
    cases data.root? name with
    | none => rfl
    | some d => rw [Value.ofFound, Value.isUndefined_ofData]; rfl
  | cons segment segments =>
    rw [Env.found?_cons, Data.lookup?, hroot]
    · cases data.root? name with
      | none => rfl
      | some d => exact leaf?_ofData d _
    · exact List.cons_ne_nil segment segments

theorem isUndefined_of_finds {data : Data} (hd : Finds env s data Path.data) :
    (env.lookup s Path.data).isUndefined = false := by
  rw [hd, if_pos rfl]
  exact Value.isUndefined_ofData data.whole

theorem eval_rootExpr_of_finds {data : Data} {name : Text} (hn : Finds env s data name)
    (hd : Finds env s data Path.data) :
    (rootExpr name).eval env s = .ok (.ofFound (data.root? name)) := by
  rw [eval_rootExpr (isUndefined_of_finds hd), root_of_finds hn hd]

/-- A guarded lookup evaluates to what its path stands for, and fails for no data. -/
theorem eval_guardedExpr_of_finds {data : Data} {name : Text} (hn : Finds env s data name)
    (hd : Finds env s data Path.data) (segments : List Text) :
    (guardedExpr name segments).eval env s =
      .ok (((data.lookup? name segments).map Value.ofData).getD (.plain [])) := by
  rw [eval_guardedExpr (isUndefined_of_finds hd), found?_of_finds hn hd]

def Shows (v : Value) (found : Option Data) : Prop :=
  v = .ofFound found ∨ found = none ∧ v = .plain []

theorem printed_nil : env.printed (.plain []) = [] := by
  cases h : env.escape <;> simp [Env.printed, Value.isMissing, Value.toText, h, Text.escape]

theorem printed_safe (t : Text) : env.printed (.text t true) = t := by
  simp [Env.printed, Value.isMissing, Value.isSafe, Value.toText]

theorem printed_of_shows {v : Value} {found : Option Data} (h : Shows v found) :
    env.printed v = Data.shown env.escape false found := by
  obtain rfl | ⟨rfl, rfl⟩ := h
  · cases found with
    | none => rfl
    | some d =>
      by_cases hd : d = .null
      · subst hd
        rfl
      · have hm : (Value.ofData d).isMissing = false := by
          rwa [← Bool.not_eq_true, Value.isMissing_ofData]
        rw [Value.ofFound, Env.printed, hm, Value.isSafe_ofData, Data.shown_some _ _ hd]
        rfl
  · exact printed_nil

theorem printed_unescaped {v : Value} {found : Option Data} (h : Shows v found) :
    env.printed (printedValue true v) = Data.shown env.escape true found := by
  rw [printedValue, if_pos rfl]
  obtain rfl | ⟨rfl, rfl⟩ := h
  · cases found with
    | none => exact printed_nil
    | some d =>
      by_cases hd : d = .null
      · subst hd
        exact printed_nil
      · have hm : (Value.ofData d).isMissing = false := by
          rwa [← Bool.not_eq_true, Value.isMissing_ofData]
        rw [Value.ofFound, hm, Data.shown_some _ _ hd]
        simp [printed_safe]
  · exact printed_safe []

theorem printed_printedExpr {e : Expr} {found : Option Data} {v : Value}
    (he : e.eval env s = .ok v) (hv : Shows v found) (unescaped : Bool) :
    ∃ w, (printedExpr unescaped e).eval env s = .ok w ∧
      env.printed w = Data.shown env.escape unescaped found := by
  refine ⟨_, eval_printedExpr he unescaped, ?_⟩
  cases unescaped with
  | false => exact printed_of_shows hv
  | true => exact printed_unescaped hv

end Path

end Curly

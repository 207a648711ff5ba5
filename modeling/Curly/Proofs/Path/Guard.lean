import Curly.Proofs.Path.Rendering
import Curly.Proofs.Path.Walk

namespace Curly

open Script

namespace Script.Env

def follow (env : Env) (s : Scope) (v : Value) (segments : List Text) : Value :=
  segments.foldl (env.member s) v

variable {env : Env} {s : Scope}

theorem part_eq_member {segment : Text} (h : Path.startsWithDigit segment = false) (v : Value) :
    env.part s v segment = env.member s v segment := by
  rw [part, h]

/-- Without numbers, the leaf is where the segments lead to, if the values at all beginnings of the
way are truthy. -/
theorem leaf?_eq_some_iff {v w : Value} {segments : List Text}
    (h : ∀ segment ∈ segments, Path.startsWithDigit segment = false) :
    env.leaf? s v segments = some w ↔
      (∀ before, before <+: segments → (env.follow s v before).isTruthy = true) ∧
        w = env.follow s v segments := by
  induction segments generalizing v with
  | nil =>
    simp only [leaf?, List.prefix_nil, forall_eq, follow, List.foldl_nil]
    split
    · next hv => simp [hv, eq_comm]
    · next hv => simp [hv]
  | cons segment segments ih =>
    obtain ⟨hsegment, hrest⟩ := List.forall_mem_cons.mp h
    rw [leaf?, forall_prefix_cons, part_eq_member hsegment]
    split
    · next hv =>
      rw [ih hrest]
      exact and_congr_left fun _ => (and_iff_right hv).symm
    · next hv => simp [follow, hv]

end Script.Env

namespace Path

/-- What a path stands for: a name alone for its value, and a longer path for its leaf if the values
at all beginnings of the path are truthy. Otherwise, and where the root is not defined, this is the
empty text. -/
inductive StandsFor (env : Env) (s : Scope) (name : Text) : List Text → Value → Prop
  | root (h : (env.root s name).isUndefined = false) : StandsFor env s name [] (env.root s name)
  | leaf {segments : List Text} (hne : segments ≠ [])
      (hroot : (env.root s name).isUndefined = false)
      (h : ∀ before, before <+: segments →
        (env.follow s (env.root s name) before).isTruthy = true) :
      StandsFor env s name segments (env.follow s (env.root s name) segments)
  | undefined {segments : List Text} (h : (env.root s name).isUndefined = true) :
      StandsFor env s name segments (.plain [])
  | broken {segments before : List Text} (hne : segments ≠ []) (hb : before <+: segments)
      (h : (env.follow s (env.root s name) before).isTruthy = false) :
      StandsFor env s name segments (.plain [])

variable {env : Env} {s : Scope}

theorem standsFor_found? {name : Text} {segments : List Text}
    (h : ∀ segment ∈ segments, startsWithDigit segment = false) :
    StandsFor env s name segments ((env.found? s name segments).getD (.plain [])) := by
  cases segments with
  | nil =>
    rw [Env.found?]
    cases hroot : (env.root s name).isUndefined with
    | false => exact .root hroot
    | true => exact .undefined hroot
  | cons segment segments =>
    have hne := List.cons_ne_nil segment segments
    rw [Env.found?_cons]
    cases hleaf : env.leaf? s (env.root s name) (segment :: segments) with
    | some w =>
      obtain ⟨hall, rfl⟩ := (Env.leaf?_eq_some_iff h).mp hleaf
      exact .leaf hne (Value.isUndefined_of_isTruthy (hall [] List.nil_prefix)) hall
    | none =>
      by_contra hbroken
      have hall (before : List Text) (hb : before <+: segment :: segments) :
          (env.follow s (env.root s name) before).isTruthy = true := by
        by_contra ht
        exact hbroken (.broken hne hb (Bool.not_eq_true _ ▸ ht))
      cases hleaf.symm.trans ((Env.leaf?_eq_some_iff h).mpr ⟨hall, rfl⟩)

theorem startsWithDigit_of_isAlpha {w : Text} (h : ∀ c ∈ w.head?, c.isAlpha = true ∨ c = '_') :
    startsWithDigit w = false := by
  cases w with
  | nil => rfl
  | cons c w =>
    refine Piece.isDigit_of_isWordStart ?_
    rw [Lexeme.isWordStart, Bool.or_eq_true, decide_eq_true_eq]
    exact h c rfl

theorem isReadable_of_startsWithDigit {segments : List Text}
    (h : ∀ w ∈ segments, startsWithDigit w = false) : isReadable segments = true := by
  induction segments with
  | nil => rfl
  | cons segment segments ih =>
    obtain ⟨hsegment, hrest⟩ := List.forall_mem_cons.mp h
    rw [isReadable, hsegment, ih hrest]
    rfl

/-- The guarded lookup of a path is read as one expression, also where it is printed unescaped.
Whatever the names of a script stand for, if only the whole data is defined, it evaluates to what
the path stands for, and no member and no item of the undefined value is asked for on the way. -/
theorem guardedLookup_isSafe {path name : Text} {segments : List Text} (hp : isPath path = true)
    (hs : Text.splitOn '.' path = name :: segments)
    (hw : ∀ w ∈ segments, ∀ c ∈ w.head?, c.isAlpha = true ∨ c = '_') (unescaped : Bool) :
    (∀ keep, Stmt.readAll Stmt.maxDepth keep (Source.output (guardedLookup path) unescaped) =
      .ok [.print (printedExpr unescaped (guardedExpr name segments))]) ∧
    ∀ env s, (env.lookup s data).isUndefined = false →
      (∃ v, (guardedExpr name segments).eval env s = .ok v ∧ StandsFor env s name segments v ∧
        (printedExpr unescaped (guardedExpr name segments)).eval env s =
          .ok (printedValue unescaped v)) ∧
      ∀ f,
        (∀ n, (printedExpr unescaped (guardedExpr name segments)).Demands env s (.attr f n) →
          ∃ w, f.eval env s = .ok w ∧ w.isUndefined = false) ∧
        ∀ k, (printedExpr unescaped (guardedExpr name segments)).Demands env s (.item f k) →
          ∃ w, f.eval env s = .ok w ∧ w.isUndefined = false := by
  obtain ⟨-, hne, hword, hwords⟩ := words_of_isPath hp hs
  have hdigit : ∀ w ∈ segments, startsWithDigit w = false :=
    fun w hm => startsWithDigit_of_isAlpha (hw w hm)
  refine ⟨fun keep => ?_, fun env s hd => ?_⟩
  · rw [guardedLookup, hs]
    exact readAll_output_lookup hne hword hwords (isReadable_of_startsWithDigit hdigit) unescaped
      keep
  · have he := eval_guardedExpr hd name segments
    have hprinted := eval_printedExpr he unescaped
    exact ⟨⟨_, he, standsFor_found? hdigit, hprinted⟩, fun f =>
      ⟨fun n h => h.isDefined_of_attr hprinted, fun k h => h.isDefined_of_item hprinted⟩⟩

theorem guardedLookup_isSafe_loop :
    let env : Env := ⟨({} : Catalog Value).insert data .none, fun _ _ => .error .invalid, .html, []⟩
    let s : Scope := { kind := .rounds { index := 0, length := some 2 } }
    let e := guardedExpr "loop".toList ["first".toList]
    Stmt.readAll Stmt.maxDepth true (Source.output (guardedLookup "loop.first".toList) true) =
        .ok [.print (printedExpr true e)] ∧
      (env.lookup s data).isUndefined = false ∧
      e.eval env s = .ok (.bool true) ∧
      (printedExpr true e).eval env s = .ok (.text "true".toList true) ∧
      (printedExpr true e).Demands env s (.attr (.name "loop".toList) "first".toList) ∧
      ∃ w, (Expr.name "loop".toList).eval env s = .ok w ∧ w.isUndefined = false := by
  intro env s e
  have hfirst : ∀ w ∈ ["first".toList], ∀ c ∈ w.head?, c.isAlpha = true ∨ c = '_' := by
    intro w hw c hc
    obtain rfl := List.mem_singleton.mp hw
    obtain rfl := Option.some.inj hc
    exact .inl rfl
  obtain ⟨hread, heval⟩ := @guardedLookup_isSafe "loop.first".toList "loop".toList ["first".toList]
    (by decide) rfl hfirst true
  have hd : (env.lookup s data).isUndefined = false := by rfl
  obtain ⟨⟨v, hvalue, hstands, hprinted⟩, hdefined⟩ := heval env s hd
  obtain rfl : v = .bool true := by
    cases hstands with
    | leaf => rfl
    | undefined h => cases h
    | broken hne hb h =>
      obtain rfl | ⟨before, rfl, hnil⟩ := List.prefix_cons_iff.mp hb
      · cases h
      · obtain rfl := List.prefix_nil.mp hnil
        cases h
  have hloop : (Expr.name "loop".toList).eval env s = .ok (.loop 0) := Expr.eval_name _
  have hasks : (printedExpr true e).Demands env s (.attr (.name "loop".toList) "first".toList) := by
    refine .operand (o := e) (List.mem_cons_self ..) (.yes (eval_defined hd "loop".toList) rfl ?_)
    refine .operand (o := conjunction "loop".toList ["first".toList]) (List.mem_cons_self ..) ?_
    exact .right (.inl rfl) hloop rfl (.self _)
  exact ⟨hread true, hd, hvalue, hprinted, hasks, (hdefined _).1 _ hasks⟩

end Path

end Curly

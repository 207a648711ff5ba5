import Curly.Proofs.Path.Rendering
import Curly.Proofs.Text.Order

namespace Curly

open Script

/-- What a name stands for in a rendering. -/
inductive Referent where
  | value (d : Data)
  | helper (f : Helper)
  | nothing

namespace Referent

def helper? (defaults extras : HelperTable) (name : Text) : Option Helper :=
  match extras.get? name with
  | some f => some f
  | none => defaults.get? name

/-- Fields of the data come first, then the name of the whole data, then the helpers. -/
def ofName (data : Data) (defaults extras : HelperTable) (name : Text) : Referent :=
  match data.get? name with
  | some d => value d
  | none =>
    if name = Path.data then value data
    else
      match helper? defaults extras name with
      | some f => helper f
      | none => nothing

/-- The value of a name in a script. To call a helper is to call it with the data. -/
inductive IsValue (data : Data) (env : Env) : Referent → Value → Prop
  | value (d : Data) : IsValue data env (value d) (.ofData d)
  | helper {f : Helper} {name : Text}
      (h : ∀ args, env.callValue (.function name) args = f (.ofData data) args) :
      IsValue data env (helper f) (.function name)
  | nothing : IsValue data env nothing .undefined

end Referent

namespace BoundHelpers

theorem get?_new (data : Value) (defaults extras : HelperTable) (name : Text) :
    (new data defaults extras).get? name = Referent.helper? defaults extras name := by
  rw [get?, new, Catalog.get?_overlay, Referent.helper?]
  cases extras.get? name <;> rfl

theorem call_new (data : Value) (defaults extras : HelperTable) (name : Text)
    (args : List Value) :
    (new data defaults extras).call name args =
      match Referent.helper? defaults extras name with
      | some f => f data args
      | none => .error (.unknownFunction name) := by
  rw [call, get?_new]
  rfl

theorem mem_names_new {data : Value} {defaults extras : HelperTable} {name : Text} :
    name ∈ (new data defaults extras).names ↔ name ∈ defaults.names ∨ name ∈ extras.names := by
  rw [names, new, Catalog.mem_names_iff, Catalog.get?_overlay, Option.isSome_or, Bool.or_eq_true,
    ← Catalog.mem_names_iff, ← Catalog.mem_names_iff, or_comm]

theorem mem_names_iff {hs : BoundHelpers} {name : Text} :
    name ∈ hs.names ↔ (hs.get? name).isSome := Catalog.mem_names_iff

theorem sorted_names (hs : BoundHelpers) :
    hs.names.Pairwise fun m n => Text.utf8 m < Text.utf8 n :=
  List.pairwise_map.mpr (hs.helpers.sorted.imp Text.utf8_lt)

end BoundHelpers

namespace Script

/-- The calls that a script keeps to itself: those of `super`, those of `loop` inside of a loop, and
printed ones of `loop` with one argument. -/
def KeepsCall (inLoop isPrinted : Bool) (name : Text) (arity : Nat) : Prop :=
  name = "super".toList ∨
    name = "loop".toList ∧ (inLoop = true ∨ isPrinted = true ∧ arity = 1)

namespace Env

/-- What surrounds the statements of a script that renders data, inside of those scopes. -/
def rendering (data : Data) (hs : BoundHelpers) (escape : Escaping) (outer : List Scope) : Env :=
  ⟨Context.ofData data hs, hs.call, escape, outer⟩

variable {data : Data} {defaults extras : HelperTable} {hs : BoundHelpers} {escape : Escaping}
  {outer : List Scope} {s : Scope} {name : Text}

theorem lookup?_rendering (hd : data.HasDistinctNames)
    (hfree : Scope.lookup? name (s :: outer) = none) :
    (rendering data hs escape outer).lookup? s name =
      ((data.get? name).map Value.ofData).or
        (if name = Path.data then some hs.data
          else if name ∈ hs.names then some (.function name) else none) := by
  rw [← Context.get?_ofData hd, lookup?, rendering, hfree, Option.none_or]

theorem isValue_lookup (hd : data.HasDistinctNames)
    (hfree : Scope.lookup? name (s :: outer) = none) :
    let env := rendering data (.new (.ofData data) defaults extras) escape outer
    (Referent.ofName data defaults extras name).IsValue data env (env.lookup s name) := by
  intro env
  rw [Referent.ofName, lookup, lookup?_rendering hd hfree]
  simp only [BoundHelpers.mem_names_iff, BoundHelpers.get?_new]
  cases data.get? name with
  | some d => exact .value d
  | none =>
    by_cases hp : name = Path.data
    · simp only [if_pos hp]
      exact .value data
    · simp only [if_neg hp]
      cases hf : Referent.helper? defaults extras name with
      | none => exact .nothing
      | some f =>
        refine .helper fun args => ?_
        change BoundHelpers.call _ name args = _
        rw [BoundHelpers.call_new, hf]

/-- A call by name is a call of the helper, also where there is none. -/
theorem callName_rendering (hd : data.HasDistinctNames)
    (hfree : Scope.lookup? name (s :: outer) = none) (hget : data.get? name = none)
    (hp : name ≠ Path.data) (args : List Value)
    (hk : ¬KeepsCall ((rendering data hs escape outer).inLoop s) false name args.length) :
    (rendering data hs escape outer).callName s name args = hs.call name args := by
  have hkeeps : ¬(name = "super".toList ∨
      name = "loop".toList ∧ (rendering data hs escape outer).inLoop s = true) := by
    simpa [KeepsCall] using hk
  rw [callName, if_neg hkeeps, lookup?_rendering hd hfree, hget, if_neg hp, Option.map_none,
    Option.none_or]
  by_cases hm : name ∈ hs.names
  · rw [if_pos hm]
    rfl
  · rw [if_neg hm, BoundHelpers.call]
    cases hg : hs.get? name with
    | none => rfl
    | some f => exact absurd (BoundHelpers.mem_names_iff.mpr (by simp [hg])) hm

end Env

namespace Expr

variable {data : Data} {hs : BoundHelpers} {escape : Escaping} {outer : List Scope} {s : Scope}
  {name : Text}

theorem length_evalAll {env : Env} {es : List Expr} {vs : List Value}
    (h : evalAll env s es = .ok vs) : vs.length = es.length := by
  induction es generalizing vs with
  | nil =>
    cases h
    rfl
  | cons e es ih =>
    rw [evalAll_cons] at h
    obtain ⟨v, -, h⟩ := exists_of_bind_eq_ok h
    obtain ⟨vs, hvs, h⟩ := exists_of_bind_eq_ok h
    cases h
    simp [ih hvs]

theorem eval_call_rendering (hd : data.HasDistinctNames)
    (hfree : Scope.lookup? name (s :: outer) = none) (hget : data.get? name = none)
    (hp : name ≠ Path.data) (es : List Expr)
    (hk : ¬KeepsCall ((Env.rendering data hs escape outer).inLoop s) false name es.length) :
    (call (.name name) es).eval (.rendering data hs escape outer) s =
      (evalAll (.rendering data hs escape outer) s es).bind (hs.call name) := by
  rw [eval_call_name]
  cases hvs : evalAll (.rendering data hs escape outer) s es with
  | error e => rfl
  | ok vs => exact Env.callName_rendering hd hfree hget hp vs (length_evalAll hvs ▸ hk)

theorem evalPrinted_call_rendering (hd : data.HasDistinctNames)
    (hfree : Scope.lookup? name (s :: outer) = none) (hget : data.get? name = none)
    (hp : name ≠ Path.data) (es : List Expr)
    (hk : ¬KeepsCall ((Env.rendering data hs escape outer).inLoop s) true name es.length) :
    evalPrinted (.rendering data hs escape outer) s (call (.name name) es) =
      (evalAll (.rendering data hs escape outer) s es).bind (hs.call name) := by
  have hk' : ¬KeepsCall ((Env.rendering data hs escape outer).inLoop s) false name es.length := by
    rintro (h | ⟨hl, h | ⟨⟨⟩, -⟩⟩)
    · exact hk (.inl h)
    · exact hk (.inr ⟨hl, .inl h⟩)
  rw [← eval_call_rendering hd hfree hget hp es hk']
  unfold evalPrinted
  split
  · next n arg heq =>
    cases heq
    rw [if_neg]
    rintro ⟨hl, -⟩
    exact hk (.inr ⟨hl, .inr ⟨rfl, rfl⟩⟩)
  · rfl

end Expr

end Script

namespace Template

/-- In a rendering a name that the script has not bound stands for a field of the data, else for the
whole data if it is the name of that, else for an extra helper, else for a default one. Where it is
no name of the data, a call by this name in the script is a call of the helpers that renderers given
as functions get, unless the script keeps the call to itself. -/
theorem helpers_agree (data : Option Data) (defaults extras : HelperTable)
    (hd : (dataOrEmpty data).HasDistinctNames) :
    let d := dataOrEmpty data
    let hs := BoundHelpers.new (.ofData d) defaults extras
    (∀ T : Template, T.helpers = defaults →
      (∀ source escape ss, T.body = .script source escape ss → T.render data extras =
        ((Stmt.execAll (.rendering d hs escape []) {} ss).map (·.1)).mapError
          (.failed (some T.name))) ∧
      ∀ f, T.body = .native f → T.render data extras = (f d hs).mapError (.failed none)) ∧
    (∀ n escape outer s, Scope.lookup? n (s :: outer) = none →
      let env := Env.rendering d hs escape outer
      (Path.rootLookup n = n → Expr.ofWord n = .name n ∧ ∃ v, (Expr.name n).eval env s = .ok v ∧
        (Referent.ofName d defaults extras n).IsValue d env v) ∧
      (d.get? n = none → n ≠ Path.data → ∀ es : List Expr,
        (¬KeepsCall (env.inLoop s) false n es.length →
          (Expr.call (.name n) es).eval env s = (Expr.evalAll env s es).bind (hs.call n)) ∧
        (¬KeepsCall (env.inLoop s) true n es.length →
          evalPrinted env s (.call (.name n) es) = (Expr.evalAll env s es).bind (hs.call n)))) ∧
    (∀ n args, hs.call n args =
      match Referent.helper? defaults extras n with
      | some f => f (.ofData d) args
      | none => .error (.unknownFunction n)) ∧
    (hs.names.Pairwise fun m n => Text.utf8 m < Text.utf8 n) ∧
    ∀ n, n ∈ hs.names ↔ n ∈ defaults.names ∨ n ∈ extras.names := by
  intro d hs
  refine ⟨fun T hT => ⟨fun source escape ss hb => ?_, fun f hb => ?_⟩, ?_,
    BoundHelpers.call_new _ defaults extras, hs.sorted_names,
    fun n => BoundHelpers.mem_names_new⟩
  · rw [render, hb, hT]
    change (Stmt.run (Context.ofData d hs) hs.call escape ss).mapError _ = _
    rw [Stmt.run]
    change ((Stmt.execAll (.rendering d hs escape []) {} ss).bind _).mapError _ = _
    cases Stmt.execAll (.rendering d hs escape []) {} ss <;> rfl
  · rw [render, hb, hT]
  · intro n escape outer s hfree env
    constructor
    · intro hn
      have hname := Path.ofWord_of_not_isQuoted (Path.isQuoted_of_rootLookup hn)
      exact ⟨hname, _, by rw [Expr.eval], Env.isValue_lookup hd hfree⟩
    · exact fun hget hp es => ⟨Expr.eval_call_rendering hd hfree hget hp es,
        Expr.evalPrinted_call_rendering hd hfree hget hp es⟩

def constant (s : Text) : Helper := fun _ _ => .ok (.plain s)

theorem helpers_agree_extra :
    let data : Data := .object [("a".toList, .text "v".toList)]
    let defaults : HelperTable := ({} : HelperTable).insert "f".toList (constant "old".toList)
    let extras : HelperTable := ({} : HelperTable).insert "f".toList (constant "new".toList)
    let env := Env.rendering data (.new (.ofData data) defaults extras) .html []
    data.HasDistinctNames ∧ Scope.lookup? "f".toList [{}] = none ∧
      data.get? "f".toList = none ∧ "f".toList ≠ Path.data ∧
        evalPrinted env {} (.call (.name "f".toList) [.name "a".toList]) =
          .ok (.plain "new".toList) := by
  intro data defaults extras env
  have hd : data.HasDistinctNames := by simp [data, Data.HasDistinctNames]
  have hfree : Scope.lookup? "f".toList [{}] = none := rfl
  have hget : data.get? "f".toList = none := by decide
  have hp : "f".toList ≠ Path.data := by decide
  obtain ⟨-, hnames, hcalls, -⟩ := helpers_agree (some data) defaults extras hd
  obtain ⟨-, hcall⟩ := hnames "f".toList .html [] {} hfree
  refine ⟨hd, hfree, hget, hp, ((hcall hget hp _).2 ?_).trans ?_⟩
  · rintro (h | ⟨h, -⟩) <;> revert h <;> decide
  · rfl

/-- Where calls by name are no calls of the helper: calls of `super`, those of `loop` that are
printed with one argument or stand inside of a loop, and those of a name that the script has
bound. -/
theorem render_calls_kept :
    let x : Helper := constant ['x']
    let extras : HelperTable :=
      ((({} : HelperTable).insert "super".toList x).insert "loop".toList x).insert "f".toList x
    let hs := BoundHelpers.new (.ofData (.object [])) {} extras
    let env := Env.rendering (.object []) hs .html []
    let one : Expr := .const (.nat 1)
    (∀ n ∈ ["super".toList, "loop".toList, "f".toList], ∀ args,
      hs.call n args = .ok (.plain ['x'])) ∧
    (∃ t, compile .stock {} "page".toList (Path.tag (Path.callText "super".toList)) {} = .ok t ∧
      t.render (some (.object [])) extras = .error (.failed (some "page".toList) .invalid)) ∧
    evalPrinted env {} (.call (.name "loop".toList) [one]) =
      .error (.unknownFunction "loop".toList) ∧
    Stmt.execAll env {} [.loop (.name "i".toList) (.list [one]) none
      [.print (.call (.name "loop".toList) [])] []] = .error .invalid ∧
    Stmt.execAll env {} [.set (.name "f".toList) one, .print (.call (.name "f".toList) [])] =
      .error .invalid := by
  intro x extras hs env one
  refine ⟨?_, ?_, rfl, rfl, rfl⟩
  · intro n hn args
    simp only [List.mem_cons, List.not_mem_nil, or_false] at hn
    obtain rfl | rfl | rfl := hn <;> rfl
  · have hne : "super".toList ≠ [] := by decide
    have hw : Path.isWord "super".toList = true := by decide
    have hread := Path.readAll_call hne hw (by decide) true
    exact ⟨_, (compileWithin_of_ok (Path.ofTemplate_call hne hw true)).trans
      (by rw [ofScriptWithin, hread]), rfl⟩

end Template

end Curly

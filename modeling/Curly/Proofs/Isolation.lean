import Curly.Proofs.Path.Rendering
import Curly.Proofs.Rule.Insertion
import Curly.Session
import Mathlib.Data.List.Induction

namespace Curly

namespace Step

def helper? (name : Text) : Step → Option Helper
  | addHelper n f => if name = n then some f else none
  | _ => none

def rule? (name : Text) : Step → Option Rule
  | addRule n f => if name = n then some f else none
  | _ => none

def ruleName? : Step → Option Text
  | addRule n _ => some n
  | _ => none

def ruleEntry? : Step → Option (Text × Rule)
  | addRule n f => some (n, f)
  | _ => none

theorem map_fst_ruleEntry? (x : Step) : x.ruleEntry?.map (·.1) = x.ruleName? := by
  cases x <;> rfl

/-- What the last of those steps has that have any. -/
def last? {α : Type} (p : Step → Option α) (steps : List Step) : Option α :=
  steps.reverse.findSome? p

theorem last?_append {α : Type} (p : Step → Option α) (steps more : List Step) :
    last? p (steps ++ more) = (last? p more).or (last? p steps) := by
  rw [last?, List.reverse_append, List.findSome?_append]
  rfl

theorem last?_singleton {α : Type} (p : Step → Option α) (x : Step) : last? p [x] = p x := by
  rw [last?, List.reverse_singleton, List.findSome?_cons]
  cases p x <;> rfl

theorem last?_rule? (name : Text) (steps : List Step) :
    last? (rule? name) steps = (steps.filterMap ruleEntry?).reverse.lookup name := by
  rw [last?, ← List.filterMap_reverse]
  induction steps.reverse with
  | nil => rfl
  | cons x steps ih =>
    cases x with
    | addRule n f =>
      rw [List.filterMap_cons, ruleEntry?, lookup_cons_eq_ite, List.findSome?_cons, rule?, ← ih]
      by_cases h : name = n
      · rw [if_pos h, if_pos h]
      · rw [if_neg h, if_neg h]
    | _ => exact ih

/-- A question about the template that is kept under a name. -/
inductive Asks (id : Text) : Step → Prop
  | render (data : Option Data) (extras : HelperTable) : Asks id (.render id data extras)
  | inspect : Asks id (.inspect id)
  | describe : Asks id (.describe id)

end Step

namespace Defaults

def register (d : Defaults) : Step → Defaults
  | .addHelper name f => d.addHelper name f
  | .addRule name f => d.addRule name f
  | _ => d

/-- The template that a step makes, and the name that it is kept under. -/
def made? (d : Defaults) : Step → Option (Text × Template)
  | .compile id name text o => (d.compile name text o).toOption.map (id, ·)
  | .load id name source o => (d.load name source o).toOption.map (id, ·)
  | .wrap id name render => some (id, d.wrap name render)
  | _ => none

variable {d : Defaults} {x : Step} {id : Text} {t : Template}

theorem get?_helpers_register (d : Defaults) (x : Step) (name : Text) :
    (d.register x).helpers.get? name = (x.helper? name).or (d.helpers.get? name) := by
  cases x with
  | addHelper n f =>
    rw [register, addHelper, Catalog.get?_insert, Step.helper?]
    split <;> rfl
  | _ => rfl

theorem rules_register (d : Defaults) (x : Step) :
    (d.register x).rules = d.rules.insertAll x.ruleEntry?.toList := by
  cases x <;> rfl

theorem map_toOption_eq_some_iff {r : Except TemplateError Template} {k : Text} :
    r.toOption.map (k, ·) = some (id, t) ↔ k = id ∧ r = .ok t := by
  cases r with
  | error e => exact ⟨nofun, nofun⟩
  | ok t' => simp [Except.toOption]

theorem load_eq_ok_iff {name source : Text} {o : Options} :
    d.load name source o = .ok t ↔
      ∃ ss, Script.Stmt.readAll Script.Stmt.maxDepth o.keepTrailingNewline source = .ok ss ∧
        t = ⟨name, .script source o.escape ss, d.helpers⟩ := Template.ofScript_eq_ok_iff

theorem helpers_of_made? (h : d.made? x = some (id, t)) : t.helpers = d.helpers := by
  cases x with
  | compile k name text o =>
    obtain ⟨-, ht⟩ := map_toOption_eq_some_iff.mp h
    obtain ⟨source, -, ht⟩ := Template.compile_eq_ok_iff.mp ht
    obtain ⟨ss, -, rfl⟩ := load_eq_ok_iff.mp ht
    rfl
  | load k name source o =>
    obtain ⟨-, ht⟩ := map_toOption_eq_some_iff.mp h
    obtain ⟨ss, -, rfl⟩ := load_eq_ok_iff.mp ht
    rfl
  | wrap k name render =>
    cases h
    rfl
  | _ => cases h

end Defaults

namespace Session

variable {s : Session} {x : Step} {id : Text} {t : Template} {steps : List Step}

theorem step_fst (s : Session) (x : Step) :
    (s.step x).1 = ⟨s.defaults.register x,
      match s.defaults.made? x with
      | some (id, t) => s.templates.insert id t
      | none => s.templates⟩ := by
  cases x with
  | compile id name text o =>
    rw [step, Defaults.made?]
    cases s.defaults.compile name text o <;> rfl
  | load id name source o =>
    rw [step, Defaults.made?]
    cases s.defaults.load name source o <;> rfl
  | render id data extras =>
    rw [step]
    split <;> rfl
  | inspect id =>
    rw [step]
    split <;> rfl
  | _ => rfl

theorem defaults_step (s : Session) (x : Step) :
    (s.step x).1.defaults = s.defaults.register x := by rw [step_fst]

theorem get?_templates_step (s : Session) (x : Step) (id : Text) :
    (s.step x).1.templates.get? id =
      match s.defaults.made? x with
      | some (k, t) => if id = k then some t else s.templates.get? id
      | none => s.templates.get? id := by
  rw [step_fst]
  cases s.defaults.made? x with
  | none => rfl
  | some made => exact Catalog.get?_insert ..

theorem after_concat (s : Session) (steps : List Step) (x : Step) :
    s.after (steps ++ [x]) = ((s.after steps).step x).1 := by
  rw [after, List.foldl_append]
  rfl

theorem after_append (s : Session) (steps more : List Step) :
    s.after (steps ++ more) = (s.after steps).after more := List.foldl_append ..

theorem get?_helpers_after (s : Session) (steps : List Step) (name : Text) :
    (s.after steps).defaults.helpers.get? name =
      (Step.last? (Step.helper? name) steps).or (s.defaults.helpers.get? name) := by
  induction steps using List.reverseRecOn with
  | nil => rfl
  | append_singleton steps x ih =>
    rw [after_concat, defaults_step, Defaults.get?_helpers_register, ih, Step.last?_append,
      Step.last?_singleton, Option.or_assoc]

theorem get?_helpers_fresh (steps : List Step) (name : Text) :
    (({} : Session).after steps).defaults.helpers.get? name =
      Step.last? (Step.helper? name) steps := by
  rw [get?_helpers_after]
  exact Option.or_none

/-- The rules behind some steps are those before them with all registrations put in. -/
theorem rules_after (s : Session) (steps : List Step) :
    (s.after steps).defaults.rules =
      s.defaults.rules.insertAll (steps.filterMap Step.ruleEntry?) := by
  induction steps using List.reverseRecOn with
  | nil => rfl
  | append_singleton steps x ih =>
    have hx : [x].filterMap Step.ruleEntry? = x.ruleEntry?.toList := by
      rw [List.filterMap_cons]
      cases x.ruleEntry? <;> rfl
    rw [after_concat, defaults_step, Defaults.rules_register, ih, List.filterMap_append, hx,
      RuleTable.insertAll_append]

theorem lookup_rules_after (s : Session) (steps : List Step) (name : Text) :
    (s.after steps).defaults.rules.entries.lookup name =
      (Step.last? (Step.rule? name) steps).or (s.defaults.rules.entries.lookup name) := by
  rw [rules_after, RuleTable.lookup_insertAll, Step.last?_rule?]

theorem ruleNames_after (hs : s.defaults.ruleNames.eraseDups = s.defaults.ruleNames)
    (steps : List Step) :
    (s.after steps).defaults.ruleNames =
      (s.defaults.ruleNames ++ steps.filterMap Step.ruleName?).eraseDups := by
  rw [Defaults.ruleNames, rules_after, RuleTable.names_insertAll hs, List.map_filterMap]
  simp only [Step.map_fst_ruleEntry?]
  rfl

/-- No template that is made in those steps takes the name. -/
def Keeps (s : Session) (id : Text) : List Step → Prop
  | [] => True
  | x :: steps => (∀ t, s.defaults.made? x ≠ some (id, t)) ∧ (s.step x).1.Keeps id steps

theorem get?_templates_after (h : s.Keeps id steps) :
    (s.after steps).templates.get? id = s.templates.get? id := by
  induction steps generalizing s with
  | nil => rfl
  | cons x steps ih =>
    obtain ⟨hx, h⟩ := h
    have hstep : (s.step x).1.templates.get? id = s.templates.get? id := by
      rw [get?_templates_step]
      split
      · next k t hm =>
        rw [if_neg]
        rintro rfl
        exact hx t hm
      · rfl
    rw [after, List.foldl_cons, ← hstep]
    exact ih h

/-- The answer to a question about a template depends on that template alone. -/
theorem answer_congr {s s' : Session} {q : Step} (hq : Step.Asks id q)
    (h : s.templates.get? id = s'.templates.get? id) : (s.step q).2 = (s'.step q).2 := by
  cases hq with
  | render data extras | inspect =>
    simp only [step, h]
    split <;> rfl
  | describe => simp only [step, h]

theorem get?_templates_of_made (hm : s.defaults.made? x = some (id, t)) :
    (s.step x).1.templates.get? id = some t := by
  rw [get?_templates_step, hm]
  exact if_pos rfl

theorem answer_render (h : s.templates.get? id = some t) (data : Option Data)
    (extras : HelperTable) :
    (s.step (.render id data extras)).2 = answer .output (t.render data extras) := by
  rw [step, h]

/-- Until a template takes its name, a template is what it was when it was made. -/
theorem inspect_later (hm : s.defaults.made? x = some (id, t))
    (hk : (s.step x).1.Keeps id steps) :
    (((s.step x).1.after steps).step (.inspect id)).2 = .template t := by
  rw [step, get?_templates_after hk, get?_templates_of_made hm]

theorem step_script_eq_source_iff {name text source : Text} {o : Options} :
    (s.step (.script name text o)).2 = .source source ↔
      s.defaults.script name text o = .ok source := by
  rw [step]
  cases s.defaults.script name text o with
  | error e => exact ⟨nofun, nofun⟩
  | ok source' => simp [answer]

theorem step_compile (s : Session) (id name text : Text) (o : Options) :
    s.step (.compile id name text o) =
      match s.step (.script name text o) with
      | (s', .source source) => s'.step (.load id name source o)
      | failed => failed := by
  have hcompile : s.defaults.compile name text o =
      (s.defaults.script name text o).bind fun source => s.defaults.load name source o := rfl
  cases hs : s.defaults.script name text o with
  | error e => simp only [step, hcompile, hs, answer, Except.bind, store]
  | ok source => simp only [step, hcompile, hs, answer, Except.bind]

theorem load_script {s' : Session} {name text source : Text} {o : Options}
    (h : (s.step (.script name text o)).2 = .source source) :
    s'.defaults.load name source o =
      Template.compile s.defaults.rules s'.defaults.helpers name text o := by
  have hs := step_script_eq_source_iff.mp h
  rw [Template.compile, Template.compileWithin, show Template.script _ name text o = _ from hs]
  rfl

/-- A template does not change by what is registered, made or rendered after it was made. To make
its script first and then to load that makes the same template. With registrations in between, the
template has the script of the rules before them and the helpers behind them. A name stands for what
was registered last under it. -/
theorem templates_isolated :
    (∀ before x behind id t, let s := ({} : Session).after before
      s.defaults.made? x = some (id, t) → (s.step x).1.Keeps id behind →
        (((s.step x).1.after behind).step (.inspect id)).2 = .template t ∧
        (∀ q, Step.Asks id q → (((s.step x).1.after behind).step q).2 = ((s.step x).1.step q).2) ∧
        ∀ n, t.helpers.get? n = Step.last? (Step.helper? n) before) ∧
    (∀ steps id name text o, let s := ({} : Session).after steps
      s.step (.compile id name text o) =
        match s.step (.script name text o) with
        | (s', .source source) => s'.step (.load id name source o)
        | failed => failed) ∧
    (∀ before between id name text o source, let s := ({} : Session).after before
      let s' := s.after (.script name text o :: between)
      (s.step (.script name text o)).2 = .source source →
        Source.ofTemplate s.defaults.rules o.strictSections text = .ok source ∧
        s'.defaults.load name source o =
          Template.compile s.defaults.rules s'.defaults.helpers name text o ∧
        ∀ t, s'.defaults.made? (.load id name source o) = some (id, t) →
          t.source = some source ∧
            ∀ n, t.helpers.get? n = Step.last? (Step.helper? n) (before ++ between)) ∧
    ∀ steps, let d := (({} : Session).after steps).defaults
      (∀ n, d.helpers.get? n = Step.last? (Step.helper? n) steps) ∧
      (∀ n, d.rules.entries.lookup n =
        (Step.last? (Step.rule? n) steps).or (RuleTable.stock.entries.lookup n)) ∧
      d.ruleNames = (RuleTable.stock.names ++ steps.filterMap Step.ruleName?).eraseDups := by
  refine ⟨?_, fun steps => step_compile _, ?_, fun steps => ⟨get?_helpers_fresh steps, ?_, ?_⟩⟩
  · intro before x behind id t s hm hk
    refine ⟨inspect_later hm hk, fun q hq => answer_congr hq (get?_templates_after hk), fun n => ?_⟩
    rw [Defaults.helpers_of_made? hm, get?_helpers_fresh]
  · intro before between id name text o source s s' h
    refine ⟨Template.script_eq_ok_iff.mp (step_script_eq_source_iff.mp h), load_script h,
      fun t ht => ?_⟩
    obtain ⟨-, hload⟩ := Defaults.map_toOption_eq_some_iff.mp ht
    obtain ⟨ss, -, rfl⟩ := Defaults.load_eq_ok_iff.mp hload
    refine ⟨rfl, fun n => ?_⟩
    have hs' : s' = ({} : Session).after (before ++ .script name text o :: between) :=
      (after_append ..).symm
    have hscript : Step.last? (Step.helper? n) [.script name text o] = none := rfl
    rw [hs', get?_helpers_fresh, ← List.singleton_append, Step.last?_append, Step.last?_append,
      Step.last?_append, hscript, Option.or_none]
  · exact fun n => lookup_rules_after {} steps n
  · exact ruleNames_after (by decide) steps

theorem templates_isolated_call :
    let page := "page".toList
    let f := "f".toList
    let call := Path.callText f
    let returning (s : String) : Helper := fun _ _ => .ok (.plain s.toList)
    let extras : HelperTable := ({} : HelperTable).insert f (returning "extra")
    let s := ({} : Session).after [.addHelper f (returning "first")]
    let between : List Step := [.addHelper f (returning "second")]
    let s' := s.after (.script page (Path.tag call) {} :: between)
    let load : Step := .load page page (Source.printed call) {}
    let behind : List Step := [.addHelper f (returning "third"), .render page none extras]
    (s.step (.script page (Path.tag call) {})).2 = .source (Source.printed call) ∧
      (∃ t, s'.defaults.made? load = some (page, t) ∧ (s'.step load).1.Keeps page behind ∧
        (t.helpers.get? f).map (· .none []) = some (.ok (.plain "second".toList))) ∧
      (((s'.step load).1.after behind).step (.render page none {})).2 =
        .output "second".toList := by
  intro page f call returning extras s between s' load behind
  obtain ⟨hanswers, -, hload, -⟩ := templates_isolated
  have hne : f ≠ [] := by decide
  have hw : Path.isWord f = true := by decide
  have hscript : (s.step (.script page (Path.tag call) {})).2 = .source (Source.printed call) :=
    step_script_eq_source_iff.mpr
      (Template.script_eq_ok_iff.mpr (Path.ofTemplate_call hne hw true))
  have hmade : s'.defaults.made? load = some (page,
      ⟨page, .script (Source.printed call) .html [.print (.call (.name f) [])],
        s'.defaults.helpers⟩) :=
    Defaults.map_toOption_eq_some_iff.mpr ⟨rfl,
      Defaults.load_eq_ok_iff.mpr ⟨_, Path.readAll_call hne hw (by decide) true, rfl⟩⟩
  have hkeeps : (s'.step load).1.Keeps page behind := ⟨nofun, nofun, trivial⟩
  obtain ⟨-, -, htemplate⟩ := hload [.addHelper f (returning "first")] between page page
    (Path.tag call) {} (Source.printed call) hscript
  refine ⟨hscript, ⟨_, hmade, hkeeps, ?_⟩, ?_⟩
  · rw [(htemplate _ hmade).2 f]
    rfl
  · have hsame := (hanswers [.addHelper f (returning "first"), .script page (Path.tag call) {},
      .addHelper f (returning "second")] load behind page _ hmade hkeeps).2.1 _ (.render none {})
    exact hsame.trans (answer_render (get?_templates_of_made hmade) none {})

end Session

end Curly

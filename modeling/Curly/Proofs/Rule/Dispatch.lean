import Curly.Proofs.Isolation

namespace Curly

namespace RuleTable

variable {t : RuleTable} {content : Text}

theorem lookup_eq_some_iff (h : t.names.Nodup) {name : Text} {f : Rule} :
    t.entries.lookup name = some f ↔ (name, f) ∈ t.entries := by
  constructor
  · intro hl
    obtain ⟨before, behind, he, -⟩ := List.lookup_eq_some_iff.mp hl
    exact he ▸ List.mem_append_right before (List.mem_cons_self ..)
  · intro hm
    obtain ⟨before, behind, he⟩ := List.append_of_mem hm
    refine List.lookup_eq_some_iff.mpr ⟨before, behind, he, fun e hb => bne_iff_ne.mpr ?_⟩
    rintro rfl
    exact not_mem_names_before h he (List.mem_map_of_mem hb)

theorem apply_eq_findSome?_names (h : t.names.Nodup) (content : Text) :
    t.apply content = t.names.findSome? fun name => (t.entries.lookup name).bind (· content) := by
  have hlookup : ∀ e ∈ t.entries,
      e.2 content = (t.entries.lookup e.1).bind (· content) := fun e he => by
    rw [(lookup_eq_some_iff h).mpr he]
    rfl
  -- The first answer is the head of all answers, and these are the same either way.
  calc t.apply content
    _ = (t.entries.filterMap fun e => e.2 content).head? := List.head?_filterMap.symm
    _ = (t.entries.filterMap fun e => (t.entries.lookup e.1).bind (· content)).head? := by
      rw [List.filterMap_congr hlookup]
    _ = t.entries.findSome? fun e => (t.entries.lookup e.1).bind (· content) :=
      List.head?_filterMap
    _ = t.names.findSome? fun name => (t.entries.lookup name).bind (· content) := by
      rw [names, List.findSome?_map]
      rfl

theorem apply_eq_some_iff (h : t.names.Nodup) {m : Meaning} :
    t.apply content = some m ↔ ∃ before name behind f, t.names = before ++ name :: behind ∧
      t.entries.lookup name = some f ∧ f content = some m ∧
      ∀ n ∈ before, ∀ g, t.entries.lookup n = some g → g content = none := by
  simp only [apply_eq_findSome?_names h, List.findSome?_eq_some_iff, Option.bind_eq_some_iff,
    Option.bind_eq_none_iff]
  constructor
  · rintro ⟨before, name, behind, hnames, ⟨f, hf, hm⟩, hbefore⟩
    exact ⟨before, name, behind, f, hnames, hf, hm, hbefore⟩
  · rintro ⟨before, name, behind, f, hnames, hf, hm, hbefore⟩
    exact ⟨before, name, behind, hnames, ⟨f, hf, hm⟩, hbefore⟩

theorem apply_eq_none_iff (h : t.names.Nodup) :
    t.apply content = none ↔ ∀ name f, t.entries.lookup name = some f → f content = none := by
  rw [apply, List.findSome?_eq_none_iff]
  constructor
  · intro hnone name f hl
    exact hnone (name, f) ((lookup_eq_some_iff h).mp hl)
  · intro hnone e he
    exact hnone e.1 e.2 ((lookup_eq_some_iff h).mpr he)

/-- The rule that was put last into the stock table under a name. -/
def latest? (rules : List (Text × Rule)) (name : Text) : Option Rule :=
  (rules.reverse.lookup name).or (stock.entries.lookup name)

/-- The table has one entry for each name, in the order in which the names came first, and its
answers are those of the rules that came last. -/
structure Reflects (t : RuleTable) (rules : List (Text × Rule)) : Prop where
  nodup_names : t.names.Nodup
  names_eq : t.names = stock.names ++ ((rules.map (·.1)).filter (· ∉ stock.names)).eraseDups
  mem_names_iff : ∀ name, name ∈ t.names ↔ (latest? rules name).isSome
  /-- Putting in a name again moves no entry. -/
  insert_again : ∀ before name f behind g, t.entries = before ++ (name, f) :: behind →
    (t.insert name g).entries = before ++ (name, g) :: behind
  apply_some : ∀ content m, t.apply content = some m ↔
    ∃ before name behind f, t.names = before ++ name :: behind ∧ latest? rules name = some f ∧
      f content = some m ∧ ∀ n ∈ before, ∀ g, latest? rules n = some g → g content = none
  apply_none : ∀ content, t.apply content = none ↔
    ∀ name f, latest? rules name = some f → f content = none

theorem eraseDups_names_stock : stock.names.eraseDups = stock.names := by decide

theorem eraseDups_names_stock_append (names : List Text) :
    (stock.names ++ names).eraseDups =
      stock.names ++ (names.filter (· ∉ stock.names)).eraseDups := by
  rw [List.eraseDups_append, eraseDups_names_stock, List.removeAll]
  simp

theorem nodup_names_insertAll_stock (rules : List (Text × Rule)) :
    (stock.insertAll rules).names.Nodup := nodup_names_insertAll (by decide) rules

theorem lookup_insertAll_stock (rules : List (Text × Rule)) (name : Text) :
    (stock.insertAll rules).entries.lookup name = latest? rules name :=
  lookup_insertAll stock rules name

theorem reflects_insertAll_stock (rules : List (Text × Rule)) :
    (stock.insertAll rules).Reflects rules where
  nodup_names := nodup_names_insertAll_stock rules
  names_eq :=
    (names_insertAll eraseDups_names_stock rules).trans (eraseDups_names_stock_append _)
  mem_names_iff name := by
    rw [← lookup_insertAll_stock, isSome_lookup_iff]
    rfl
  insert_again _ _ _ _ _ he := entries_insert_of_nodup (nodup_names_insertAll_stock rules) he
  apply_some content m := by
    simp only [apply_eq_some_iff (nodup_names_insertAll_stock rules), lookup_insertAll_stock]
  apply_none content := by
    simp only [apply_eq_none_iff (nodup_names_insertAll_stock rules), lookup_insertAll_stock]

/-- Whatever is put into the stock table, the table reflects it. So do the rules of a session with
what its steps register. -/
theorem tables_reflect_insertions :
    (∀ rules, (stock.insertAll rules).Reflects rules) ∧
    ∀ steps : List Step, let s := ({} : Session).after steps
      s.defaults.rules.Reflects (steps.filterMap Step.ruleEntry?) ∧
      (s.step .ruleNames).2 = .names (stock.names ++
        ((steps.filterMap Step.ruleName?).filter (· ∉ stock.names)).eraseDups) := by
  refine ⟨reflects_insertAll_stock, fun steps => ⟨?_, ?_⟩⟩
  · rw [Session.rules_after]
    exact reflects_insertAll_stock _
  · rw [← eraseDups_names_stock_append]
    exact congrArg Answer.names (@Session.ruleNames_after {} eraseDups_names_stock steps)

theorem tables_reflect_insertions_replaced :
    let filtered (form : String) := Rule.substituting ['@'] form.toList (some <| .output ·)
    let longer := Rule.substituting ['#'] "item_\x7b\x7d".toList (some <| .opening ·)
    let steps : List Step := [.addRule "filter".toList (filtered "\x7b\x7d|upper"),
      .addRule "section".toList longer, .addRule "silent".toList fun _ => none,
      .addRule "filter".toList (filtered "\x7b\x7d|lower")]
    let s := ({} : Session).after steps
    (s.step .ruleNames).2 = .names (stock.names ++ ["filter".toList, "silent".toList]) ∧
      s.defaults.rules.apply "#a".toList = some (.opening "item_a".toList) ∧
      s.defaults.rules.apply "@a".toList = some (.output "a|lower".toList) := by
  intro filtered longer steps s
  obtain ⟨hrules, hnames⟩ := tables_reflect_insertions.2 steps
  have hs : s.defaults.rules.names = stock.names ++ ["filter".toList, "silent".toList] :=
    hrules.names_eq.trans (by decide)
  refine ⟨hnames.trans (congrArg Answer.names (by decide)), ?_, ?_⟩
  · exact (hrules.apply_some _ _).mpr ⟨[], _, _, longer, hs, rfl, rfl, nofun⟩
  · refine (hrules.apply_some _ _).mpr ⟨stock.names, _, _, _, hs, rfl, rfl, ?_⟩
    intro n hn g hg
    obtain ⟨e, he, rfl⟩ := List.mem_map.mp hn
    obtain ⟨r, -, rfl⟩ := List.mem_map.mp he
    cases r <;> cases hg <;> rfl

end RuleTable

end Curly

import Curly.Catalog
import Curly.Rule
import Mathlib.Data.List.Induction
import Mathlib.Data.List.Nodup

namespace Curly

namespace RuleTable

theorem lookup_insertEntry (name other : Text) (f : Rule) (entries : List (Text × Rule)) :
    (insertEntry name f entries).lookup other =
      if other = name then some f else entries.lookup other := by
  induction entries with
  | nil => simp [insertEntry, lookup_cons_eq_ite]
  | cons e rest ih =>
    obtain ⟨k, g⟩ := e
    rw [insertEntry]
    split
    · next h =>
      subst h
      simp only [lookup_cons_eq_ite]
      split <;> rfl
    · next h =>
      simp only [lookup_cons_eq_ite, ih]
      by_cases hk : other = k
      · subst hk
        simp [h]
      · simp [hk]

theorem names_insertEntry (name : Text) (f : Rule) (entries : List (Text × Rule)) :
    (insertEntry name f entries).map (·.1) =
      entries.map (·.1) ++ if name ∈ entries.map (·.1) then [] else [name] := by
  induction entries with
  | nil => rfl
  | cons e rest ih =>
    obtain ⟨k, g⟩ := e
    rw [insertEntry]
    split
    · next h => simp [h]
    · next h =>
      rw [List.map_cons, List.map_cons, ih, List.cons_append]
      simp only [List.mem_cons, Ne.symm h, false_or]

theorem insertEntry_append {name : Text} {entries : List (Text × Rule)}
    (h : name ∉ entries.map (·.1)) (f : Rule) (more : List (Text × Rule)) :
    insertEntry name f (entries ++ more) = entries ++ insertEntry name f more := by
  induction entries with
  | nil => rfl
  | cons e entries ih =>
    rw [List.map_cons, List.mem_cons, not_or] at h
    rw [List.cons_append, insertEntry, if_neg (Ne.symm h.1), ih h.2, List.cons_append]

theorem names_insert (t : RuleTable) (name : Text) (f : Rule) :
    (t.insert name f).names = t.names ++ if name ∈ t.names then [] else [name] :=
  names_insertEntry name f t.entries

theorem nodup_names_insert {t : RuleTable} (h : t.names.Nodup) (name : Text) (f : Rule) :
    (t.insert name f).names.Nodup := by
  rw [names_insert]
  split
  · rwa [List.append_nil]
  · next hn => exact List.nodup_append_comm.mp (List.nodup_cons.mpr ⟨hn, h⟩)

theorem not_mem_names_before {t : RuleTable} (h : t.names.Nodup) {name : Text} {f : Rule}
    {before behind : List (Text × Rule)} (he : t.entries = before ++ (name, f) :: behind) :
    name ∉ before.map (·.1) := by
  rw [names, he, List.map_append, List.map_cons] at h
  intro hm
  exact List.disjoint_of_nodup_append h hm (List.mem_cons_self ..)

/-- A rule that is put in under an old name stands where the old rule stood. All other entries stay
where they are. -/
theorem entries_insert_of_nodup {t : RuleTable} (h : t.names.Nodup) {name : Text} {f g : Rule}
    {before behind : List (Text × Rule)} (he : t.entries = before ++ (name, f) :: behind) :
    (t.insert name g).entries = before ++ (name, g) :: behind := by
  rw [insert, he, insertEntry_append (not_mem_names_before h he), insertEntry, if_pos rfl]

def empty : RuleTable := ⟨[]⟩

def insertAll (t : RuleTable) (rules : List (Text × Rule)) : RuleTable :=
  rules.foldl (fun t e => t.insert e.1 e.2) t

theorem insertAll_append (t : RuleTable) (rules more : List (Text × Rule)) :
    t.insertAll (rules ++ more) = (t.insertAll rules).insertAll more := List.foldl_append ..

theorem nodup_names_insertAll {t : RuleTable} (h : t.names.Nodup) (rules : List (Text × Rule)) :
    (t.insertAll rules).names.Nodup := by
  induction rules generalizing t with
  | nil => exact h
  | cons e rules ih => exact ih (nodup_names_insert h e.1 e.2)

theorem eraseDups_concat (names : List Text) (name : Text) :
    (names ++ [name]).eraseDups =
      names.eraseDups ++ if name ∈ names.eraseDups then [] else [name] := by
  rw [List.eraseDups_append]
  by_cases h : name ∈ names <;> simp [List.removeAll, List.eraseDups_cons, h]

theorem names_insertAll {t : RuleTable} (h : t.names.eraseDups = t.names)
    (rules : List (Text × Rule)) :
    (t.insertAll rules).names = (t.names ++ rules.map (·.1)).eraseDups := by
  induction rules using List.reverseRecOn with
  | nil => rw [List.map_nil, List.append_nil, h, insertAll, List.foldl_nil]
  | append_singleton rules e ih =>
    rw [insertAll_append, insertAll, List.foldl_cons, List.foldl_nil, names_insert, ih,
      List.map_append, List.map_singleton, ← List.append_assoc, eraseDups_concat]

theorem lookup_insertAll (t : RuleTable) (rules : List (Text × Rule)) (name : Text) :
    (t.insertAll rules).entries.lookup name =
      (rules.reverse.lookup name).or (t.entries.lookup name) := by
  induction rules generalizing t with
  | nil => rfl
  | cons e rules ih =>
    rw [insertAll, List.foldl_cons]
    refine (ih (t.insert e.1 e.2)).trans ?_
    rw [insert, lookup_insertEntry, List.reverse_cons, List.lookup_append, Option.or_assoc,
      lookup_cons_eq_ite]
    split <;> rfl

theorem entries_insertAll (t : RuleTable) {rules : List (Text × Rule)}
    (h : ∀ e ∈ rules, e.1 ∉ t.names) :
    (t.insertAll rules).entries = t.entries ++ (empty.insertAll rules).entries := by
  have hrun (added : RuleTable) :
      (RuleTable.insertAll ⟨t.entries ++ added.entries⟩ rules).entries =
        t.entries ++ (added.insertAll rules).entries := by
    induction rules generalizing added with
    | nil => rfl
    | cons e rules ih =>
      have hstep : RuleTable.insert ⟨t.entries ++ added.entries⟩ e.1 e.2 =
          ⟨t.entries ++ (added.insert e.1 e.2).entries⟩ :=
        congrArg RuleTable.mk (insertEntry_append (h e (List.mem_cons_self ..)) e.2 _)
      rw [insertAll, List.foldl_cons, hstep]
      exact ih (fun e he => h e (List.mem_cons_of_mem _ he)) _
  have ht := hrun empty
  rwa [empty, List.append_nil] at ht

/-- What the rules of a table answer, those under new names do not get to see. -/
theorem apply_insertAll (t : RuleTable) {rules : List (Text × Rule)}
    (h : ∀ e ∈ rules, e.1 ∉ t.names) (content : Text) :
    (t.insertAll rules).apply content =
      (t.apply content).or ((empty.insertAll rules).apply content) := by
  rw [apply, entries_insertAll t h, List.findSome?_append]
  rfl

/-- The table comes to ask the rule of that name: all rules before it leave the content to others.
-/
def Asks (t : RuleTable) (content name : Text) : Prop :=
  ∃ before f behind, t.entries = before ++ (name, f) :: behind ∧ ∀ e ∈ before, e.2 content = none

theorem apply_eq_none_of_asks {t : RuleTable} {rules : List (Text × Rule)}
    (h : ∀ e ∈ rules, e.1 ∉ t.names) {content name : Text} (hname : name ∉ t.names)
    (ha : (t.insertAll rules).Asks content name) : ∀ e ∈ t.entries, e.2 content = none := by
  obtain ⟨before, f, behind, hentries, hnone⟩ := ha
  rw [entries_insertAll t h] at hentries
  obtain ⟨w, hbefore, -⟩ | ⟨w, ht, hw⟩ := List.append_eq_append_iff.mp hentries
  · intro e he
    exact hnone e (hbefore ▸ List.mem_append_left w he)
  · cases w with
    | nil =>
      rw [List.append_nil] at ht
      exact ht ▸ hnone
    | cons e w =>
      obtain ⟨rfl, -⟩ := List.cons.inj hw
      exact absurd (List.mem_map.mpr ⟨(name, f), by simp [ht], rfl⟩) hname

end RuleTable

end Curly

import Curly.Text.Basic

namespace Curly

variable {α : Type}

def insertByName (name : Text) (a : α) : List (Text × α) → List (Text × α)
  | [] => [(name, a)]
  | (k, b) :: rest =>
    if k = name then (name, a) :: rest
    else if k < name then (k, b) :: insertByName name a rest
    else (name, a) :: (k, b) :: rest

theorem mem_insertByName {name : Text} {a : α} {entries : List (Text × α)} {e : Text × α}
    (h : e ∈ insertByName name a entries) : e = (name, a) ∨ e ∈ entries := by
  induction entries with
  | nil => simpa [insertByName] using h
  | cons d rest ih =>
    grind [insertByName]

theorem pairwise_insertByName (name : Text) (a : α) {entries : List (Text × α)}
    (h : entries.Pairwise fun d e => d.1 < e.1) :
    (insertByName name a entries).Pairwise fun d e => d.1 < e.1 := by
  induction entries with
  | nil => simp [insertByName]
  | cons d rest ih =>
    obtain ⟨k, b⟩ := d
    rw [List.pairwise_cons] at h
    by_cases hk : k = name
    · subst hk
      simpa [insertByName] using h
    by_cases hlt : k < name
    · simp only [insertByName, hk, hlt, if_true, if_false, List.pairwise_cons]
      refine ⟨fun e he => ?_, ih h.2⟩
      obtain rfl | he := mem_insertByName he
      · exact hlt
      · exact h.1 e he
    · have hgt : name < k := by
        by_cases h' : name < k
        · exact h'
        · exact absurd (List.le_antisymm (List.not_lt.mp h') (List.not_lt.mp hlt)) hk
      simp only [insertByName, hk, hlt, if_false, List.pairwise_cons]
      refine ⟨fun e he => ?_, h⟩
      obtain rfl | he := List.mem_cons.mp he
      · exact hgt
      · exact List.lt_trans hgt (h.1 e he)

theorem lookup_cons_eq_ite (name k : Text) (a : α) (rest : List (Text × α)) :
    ((k, a) :: rest).lookup name = if name = k then some a else rest.lookup name := by
  by_cases h : name = k
  · simp [h]
  · simp [List.lookup_cons, h, beq_eq_false_iff_ne.mpr h]

theorem isSome_lookup_iff {entries : List (Text × α)} {name : Text} :
    (entries.lookup name).isSome ↔ name ∈ entries.map (·.1) := by
  rw [List.lookup_isSome_iff, List.mem_map]
  exact exists_congr fun e => and_congr_right fun _ => beq_iff_eq.trans eq_comm

theorem lookup_insertByName (name other : Text) (a : α) (entries : List (Text × α)) :
    (insertByName name a entries).lookup other =
      if other = name then some a else entries.lookup other := by
  induction entries with
  | nil => simp [insertByName, lookup_cons_eq_ite]
  | cons d rest ih =>
    obtain ⟨k, b⟩ := d
    rw [insertByName]
    split
    · next h => subst h; simp only [lookup_cons_eq_ite]; split <;> rfl
    · next h =>
      split
      · simp only [lookup_cons_eq_ite, ih]
        by_cases hk : other = k <;> by_cases hn : other = name <;> simp_all
      · simp only [lookup_cons_eq_ite]

/-- Named entries in the order of their names. Names compare by code points, which is the order of
their UTF-8 bytes. -/
structure Catalog (α : Type) where
  entries : List (Text × α)
  sorted : entries.Pairwise fun d e => d.1 < e.1

namespace Catalog

def empty : Catalog α := ⟨[], .nil⟩

instance : EmptyCollection (Catalog α) := ⟨empty⟩

instance : Inhabited (Catalog α) := ⟨empty⟩

def insert (t : Catalog α) (name : Text) (a : α) : Catalog α :=
  ⟨insertByName name a t.entries, pairwise_insertByName name a t.sorted⟩

def get? (t : Catalog α) (name : Text) : Option α := t.entries.lookup name

def contains (t : Catalog α) (name : Text) : Bool := (t.get? name).isSome

def names (t : Catalog α) : List Text := t.entries.map (·.1)

def size (t : Catalog α) : Nat := t.entries.length

def isEmpty (t : Catalog α) : Bool := t.entries.isEmpty

/-- The entries of both; those of `extra` win. -/
def overlay (t extra : Catalog α) : Catalog α :=
  extra.entries.foldl (fun t e => t.insert e.1 e.2) t

@[simp] theorem get?_insert (t : Catalog α) (name other : Text) (a : α) :
    (t.insert name a).get? other = if other = name then some a else t.get? other :=
  lookup_insertByName name other a t.entries

theorem nodup_names (t : Catalog α) : t.names.Nodup := by
  rw [names, List.nodup_iff_pairwise_ne, List.pairwise_map]
  refine t.sorted.imp fun {d e} hlt he => ?_
  rw [he] at hlt
  exact List.lt_irrefl _ hlt

theorem mem_names_iff {t : Catalog α} {name : Text} : name ∈ t.names ↔ (t.get? name).isSome :=
  isSome_lookup_iff.symm

theorem get?_foldl_insert {β : Type} (f : β → α) {entries : List (Text × β)}
    (h : (entries.map (·.1)).Nodup) (t : Catalog α) (name : Text) :
    (entries.foldl (fun t e => t.insert e.1 (f e.2)) t).get? name =
      ((entries.lookup name).map f).or (t.get? name) := by
  induction entries generalizing t with
  | nil => rfl
  | cons e entries ih =>
    obtain ⟨k, b⟩ := e
    rw [List.map_cons, List.nodup_cons] at h
    rw [List.foldl_cons, ih h.2, get?_insert, lookup_cons_eq_ite]
    by_cases hk : name = k
    · subst hk
      have hl : entries.lookup name = none := by
        rw [List.lookup_eq_none_iff]
        intro p hp
        rw [bne_iff_ne]
        rintro rfl
        exact h.1 (List.mem_map.mpr ⟨p, hp, rfl⟩)
      simp [hl]
    · simp [hk]

theorem get?_overlay (t extra : Catalog α) (name : Text) :
    (t.overlay extra).get? name = (extra.get? name).or (t.get? name) := by
  have h := get?_foldl_insert id extra.nodup_names t name
  rwa [Option.map_id, id] at h

end Catalog

end Curly

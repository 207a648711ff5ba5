import Mathlib.Data.List.Forall2
import Curly.Proofs.Delimiters
import Curly.Proofs.Pattern.Hits

namespace Curly

namespace Pattern

/-- The pattern matches at no place of `s`, where `rest` follows. -/
def Passes (p : Pattern) (place : Nat) (s rest : Text) : Prop :=
  ∀ u v, s = u ++ v → v ≠ [] → p.match? ⟨place + u.length, v ++ rest, []⟩ = none

theorem Passes.nil (p : Pattern) (place : Nat) (rest : Text) : p.Passes place [] rest := by
  intro u v h hv
  exact absurd (List.append_eq_nil_iff.mp h.symm).2 hv

theorem Passes.cons {p : Pattern} {place : Nat} {c : Char} {s rest : Text}
    (hc : p.match? ⟨place, c :: (s ++ rest), []⟩ = none) (h : p.Passes (place + 1) s rest) :
    p.Passes place (c :: s) rest := by
  intro u v hs hv
  cases u with
  | nil =>
    rw [List.nil_append] at hs
    rw [← hs]
    exact hc
  | cons d u =>
    rw [List.cons_append, List.cons.injEq] at hs
    have hp := h u v hs.2 hv
    rwa [Nat.add_assoc, Nat.add_comm 1] at hp

theorem Passes.append {p : Pattern} {place : Nat} {s s' rest : Text}
    (h : p.Passes place s (s' ++ rest)) (h' : p.Passes (place + s.length) s' rest) :
    p.Passes place (s ++ s') rest := by
  intro u v huv hv
  obtain ⟨w, hu, hw⟩ | ⟨w, hs, hw⟩ := List.append_eq_append_iff.mp huv
  · rw [hu, List.length_append, ← Nat.add_assoc]
    exact h' w v hw hv
  · cases w with
    | nil =>
      have hp := h' [] v hw.symm hv
      rw [List.append_nil] at hs
      rwa [hs] at hp
    | cons c w =>
      rw [hw, List.append_assoc]
      exact h u (c :: w) hs (List.cons_ne_nil c w)

/-- `hit` is where the pattern matches first, and the pattern's own match there. -/
structure IsFirst (p : Pattern) (place : Nat) (s : Text) (hit : Hit) : Prop where
  whole : s = hit.before ++ (hit.text ++ hit.rest)
  here : p.match? ⟨place + hit.before.length, hit.text ++ hit.rest, []⟩ =
    some ⟨place + hit.before.length + hit.text.length, hit.rest, hit.names⟩
  earlier : p.Passes place hit.before (hit.text ++ hit.rest)

theorem leads_of_match? {p : Pattern} {c d : Cursor} (h : p.match? c = some d) :
    d ∈ p.hits c ∧ ∃ w, c.Leads w d := by
  rw [match?_eq_head?] at h
  have hd : d ∈ p.hits c := List.mem_of_mem_head? h
  exact ⟨hd, leads_of_mem_hits p hd⟩

theorem isFirst_of_search? {p : Pattern} {place : Nat} {s : Text} {hit : Hit}
    (h : p.search? place s = some hit) : p.IsFirst place s hit := by
  induction s generalizing place hit with
  | nil =>
    rw [search?] at h
    split at h
    · next d hd =>
      cases h
      obtain ⟨-, w, hw⟩ := leads_of_match? hd
      rw [hw.at_end] at hd ⊢
      refine ⟨by simp, by simpa using hd, Passes.nil p place _⟩
    · cases h
  | cons c s ih =>
    rw [search?] at h
    split at h
    · next d hd =>
      cases h
      obtain ⟨-, w, hw⟩ := leads_of_match? hd
      have hr : c :: s = w ++ d.rest := hw.rest
      have hp : d.place = place + w.length := hw.place
      have ht : (c :: s).take (d.place - place) = w := by
        rw [hp, Nat.add_sub_cancel_left, hr, List.take_left]
      refine ⟨by rw [ht]; exact hr, ?_, Passes.nil p place _⟩
      rw [ht]
      simp only [List.length_nil, Nat.add_zero]
      rw [← hp, ← hr]
      exact hd
    · next hd =>
      obtain ⟨hit, hs, rfl⟩ := Option.map_eq_some_iff.mp h
      obtain ⟨hwhole, hhere, hearlier⟩ := ih hs
      refine ⟨congrArg (c :: ·) hwhole, ?_, .cons (hwhole ▸ hd) hearlier⟩
      have hlen : place + (c :: hit.before).length = place + 1 + hit.before.length := by
        rw [List.length_cons]
        omega
      simp only [hlen]
      exact hhere

theorem passes_of_search?_eq_none {p : Pattern} {place : Nat} {s : Text}
    (h : p.search? place s = none) : p.Passes place s [] := by
  induction s generalizing place with
  | nil => exact Passes.nil p place []
  | cons c s ih =>
    rw [search?] at h
    split at h
    · cases h
    · next hd =>
      refine .cons (by rwa [List.append_nil]) (ih (Option.map_eq_none_iff.mp h))

end Pattern

namespace DelimiterTable

open Pattern

variable {κ : Type}

/-- A definition that is accepted, with its pattern. -/
def IsChecked (d : Delimiter κ) (p : Pattern) : Prop :=
  d.pattern? = some p ∧ p.matchesEmpty = false

theorem isChecked_of_checkedPattern {d : Delimiter κ} {p : Pattern}
    (h : checkedPattern d = .ok p) : IsChecked d p := by
  unfold checkedPattern at h
  split at h
  · cases h
  · next q hq =>
    split at h
    · cases h
    · next he =>
      cases h
      exact ⟨hq, by simpa using he⟩

theorem forall₂_of_mapM {defs : List (Delimiter κ)} {ps : List Pattern}
    (h : defs.mapM checkedPattern = .ok ps) : List.Forall₂ IsChecked defs ps := by
  induction defs generalizing ps with
  | nil =>
    cases h
    exact .nil
  | cons d defs ih =>
    rw [List.mapM_cons] at h
    obtain ⟨p, hd, h⟩ := exists_of_bind_eq_ok h
    obtain ⟨qs, hm, h⟩ := exists_of_bind_eq_ok h
    cases h
    exact .cons (isChecked_of_checkedPattern hd) (ih hm)

/-- A table that is accepted chooses between the patterns of its definitions, none of which matches
the empty text. -/
theorem exists_patterns {defs : List (Delimiter κ)} {t : DelimiterTable κ}
    (h : ofDelimiters defs = .ok t) :
    ∃ ps, t.pattern = choice 0 ps ∧ List.Forall₂ IsChecked defs ps := by
  obtain ⟨ps, hm, -, rfl⟩ := exists_of_ofDelimiters h
  exact ⟨ps, rfl, forall₂_of_mapM hm⟩

theorem exists_isChecked {defs : List (Delimiter κ)} {ps : List Pattern}
    (h : List.Forall₂ IsChecked defs ps) {d : Delimiter κ} (hd : d ∈ defs) :
    ∃ (p : Pattern) (i : Nat), ps[i]? = some p ∧ IsChecked d p := by
  induction h with
  | nil => cases hd
  | @cons e q defs ps he _ ih =>
    obtain rfl | hd := List.mem_cons.mp hd
    · exact ⟨q, 0, rfl, he⟩
    · obtain ⟨p, i, hi, hp⟩ := ih hd
      exact ⟨p, i + 1, hi, hp⟩

theorem mem_hits_choice {index : Nat} {ps : List Pattern} {c d : Cursor} :
    d ∈ (choice index ps).hits c ↔
      ∃ (i : Nat) (p : Pattern), ps[i]? = some p ∧
        d ∈ p.hits (c.enter (groupName (index + i))) := by
  induction ps generalizing index with
  | nil => simp [choice, hits_never]
  | cons p ps ih =>
    rw [choice, hits_alt, List.mem_append, ih]
    constructor
    · rintro (h | ⟨i, q, hq, h⟩)
      · exact ⟨0, p, rfl, h⟩
      · refine ⟨i + 1, q, hq, ?_⟩
        rwa [Nat.add_assoc, Nat.add_comm 1] at h
    · rintro ⟨_ | i, q, hq, h⟩
      · cases hq
        exact .inl h
      · refine .inr ⟨i, q, hq, ?_⟩
        rwa [Nat.add_assoc, Nat.add_comm 1]

variable {defs : List (Delimiter κ)} {t : DelimiterTable κ}

/-- Every match of an accepted table reads something and enters the group of a definition. -/
theorem lt_place_of_match? (h : ofDelimiters defs = .ok t) {c d : Cursor}
    (hm : t.pattern.match? c = some d) :
    c.place < d.place ∧ ∃ i < defs.length, groupName i ∈ d.names := by
  obtain ⟨ps, hp, hps⟩ := exists_patterns h
  obtain ⟨hd, -⟩ := leads_of_match? hm
  rw [hp, mem_hits_choice] at hd
  obtain ⟨i, p, hi, hd⟩ := hd
  obtain ⟨hlt, hget⟩ := List.getElem?_eq_some_iff.mp hi
  have hchecked := hps.get (hps.length_eq ▸ hlt) hlt
  rw [List.get_eq_getElem, List.get_eq_getElem, hget] at hchecked
  obtain ⟨w, hw⟩ := leads_of_mem_hits p hd
  have hread : (c.enter (groupName (0 + i))).place < d.place := lt_place_of_mem_hits hchecked.2 hd
  refine ⟨hread, i, hps.length_eq ▸ hlt, ?_⟩
  rw [Nat.zero_add] at hw
  exact hw.names.mem (List.mem_cons_self ..)

theorem exists_defOf? (ht : t.defs = defs) {names : List Text} {i : Nat} (hi : i < defs.length)
    (hm : groupName i ∈ names) : ∃ d, t.defOf? names = some d := by
  rw [← ht] at hi
  have hmem : (t.defs[i], i) ∈ t.defs.zipIdx := List.mk_mem_zipIdx_iff_getElem?.mpr (by simp [hi])
  rw [← Option.isSome_iff_exists, defOf?, Option.isSome_map, List.find?_isSome]
  exact ⟨_, hmem, by simpa using hm⟩

/-- Whatever an accepted table finds is the delimiter of one of its definitions, and not empty. -/
theorem find?_of_search? (h : ofDelimiters defs = .ok t) {place : Nat} {s : Text} {hit : Hit}
    (hs : t.pattern.search? place s = some hit) :
    hit.text ≠ [] ∧ ∃ d, t.defOf? hit.names = some d ∧ t.find? place s = some (d, hit) := by
  obtain ⟨hlt, i, hi, hm⟩ := lt_place_of_match? h (isFirst_of_search? hs).here
  obtain ⟨d, hd⟩ := exists_defOf? (defs_of_ofDelimiters h) hi hm
  refine ⟨?_, d, hd, ?_⟩
  · intro he
    rw [he] at hlt
    exact absurd hlt (Nat.lt_irrefl _)
  · simp [find?, hs, hd]

theorem match?_eq_none_of_table (h : ofDelimiters defs = .ok t) {place : Nat} {s : Text}
    (hm : t.pattern.match? ⟨place, s, []⟩ = none) {d : Delimiter κ} (hd : d ∈ defs) {p : Pattern}
    (hp : d.pattern? = some p) : p.match? ⟨place, s, []⟩ = none := by
  obtain ⟨ps, hchoice, hps⟩ := exists_patterns h
  obtain ⟨q, i, hi, hchecked⟩ := exists_isChecked hps hd
  obtain rfl : q = p := Option.some.inj (hchecked.1.symm.trans hp)
  rw [match?_eq_head?, List.head?_eq_none_iff] at hm ⊢
  refine List.eq_nil_iff_forall_not_mem.mpr fun e he => ?_
  have hgroup : e.behind [groupName (0 + i)] ∈
      q.hits (Cursor.enter ⟨place, s, []⟩ (groupName (0 + i))) := by
    have hmap := hits_behind q [groupName (0 + i)] ⟨place, s, []⟩
    exact hmap ▸ List.mem_map.mpr ⟨e, he, rfl⟩
  have hmem : e.behind [groupName (0 + i)] ∈ (choice 0 ps).hits ⟨place, s, []⟩ :=
    mem_hits_choice.mpr ⟨i, q, hi, hgroup⟩
  rw [← hchoice, hm] at hmem
  exact absurd hmem List.not_mem_nil

theorem passes_of_table (h : ofDelimiters defs = .ok t) {place : Nat} {s rest : Text}
    (hs : t.pattern.Passes place s rest) {d : Delimiter κ} (hd : d ∈ defs) {p : Pattern}
    (hp : d.pattern? = some p) : p.Passes place s rest :=
  fun u v hu hv => match?_eq_none_of_table h (hs u v hu hv) hd hp

end DelimiterTable

end Curly

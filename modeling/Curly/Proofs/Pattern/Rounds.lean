import Curly.Proofs.Pattern.Hits

namespace Curly

namespace Trail

variable {place : Nat} {places places' : List Nat} {t t' t'' : Trail}

theorem insertPlace?_of_mem (hs : places.Pairwise (· > ·)) (h : place ∈ places) :
    insertPlace? place places = none := by
  induction places with
  | nil => cases h
  | cons q places ih =>
    obtain ⟨hq, hs⟩ := List.pairwise_cons.mp hs
    rw [insertPlace?]
    obtain rfl | h := List.mem_cons.mp h
    · rw [if_neg (Nat.lt_irrefl _), if_pos rfl]
    · rw [if_neg (Nat.lt_asymm (hq place h)), if_neg (Nat.ne_of_gt (hq place h)), ih hs h]
      rfl

theorem mem_insertPlace? (h : insertPlace? place places = some places') {q : Nat} :
    q ∈ places' ↔ q = place ∨ q ∈ places := by
  induction places generalizing places' with
  | nil =>
    cases h
    exact List.mem_cons
  | cons r places ih =>
    rw [insertPlace?] at h
    split at h
    · cases h
      exact List.mem_cons
    · split at h
      · cases h
      · obtain ⟨rest, hrest, rfl⟩ := Option.map_eq_some_iff.mp h
        rw [List.mem_cons, List.mem_cons, ih hrest, or_left_comm]

theorem sorted_insertPlace? (hs : places.Pairwise (· > ·))
    (h : insertPlace? place places = some places') : places'.Pairwise (· > ·) := by
  induction places generalizing places' with
  | nil =>
    cases h
    exact List.pairwise_singleton ..
  | cons q places ih =>
    obtain ⟨hq, hrest⟩ := List.pairwise_cons.mp hs
    rw [insertPlace?] at h
    split at h
    · next hlt =>
      cases h
      refine List.pairwise_cons.mpr ⟨List.forall_mem_cons.mpr ⟨hlt, fun r hr => ?_⟩, hs⟩
      exact Nat.lt_trans (hq r hr) hlt
    · next hlt =>
      split at h
      · cases h
      · next hne =>
        obtain ⟨rest, hsome, rfl⟩ := Option.map_eq_some_iff.mp h
        refine List.pairwise_cons.mpr ⟨fun r hr => ?_, ih hrest hsome⟩
        obtain rfl | hr := (mem_insertPlace? hsome).mp hr
        · exact Nat.lt_of_le_of_ne (Nat.not_lt.mp hlt) (Ne.symm hne)
        · exact hq r hr

/-- The places that `t` has visited are among those of `t'`, which are in order. -/
structure Extends (t' t : Trail) : Prop where
  sorted : t'.visited.Pairwise (· > ·)
  visited : t.visited ⊆ t'.visited

theorem Extends.refl (h : t.visited.Pairwise (· > ·)) : t.Extends t := ⟨h, List.Subset.refl _⟩

theorem Extends.trans (h : t''.Extends t') (h' : t'.Extends t) : t''.Extends t :=
  ⟨h.sorted, List.Subset.trans h'.visited h.visited⟩

theorem Extends.addEnd (h : t'.Extends t) (w : Way) : (t'.addEnd w).Extends t :=
  ⟨h.sorted, h.visited⟩

theorem visit?_of_mem (hs : t.visited.Pairwise (· > ·)) (h : place ∈ t.visited) :
    t.visit? place = none := by
  rw [visit?, insertPlace?_of_mem hs h]
  rfl

theorem extends_of_visit? (hs : t.visited.Pairwise (· > ·)) (h : t.visit? place = some t') :
    t'.Extends t ∧ place ∈ t'.visited := by
  obtain ⟨places, hplaces, rfl⟩ := Option.map_eq_some_iff.mp h
  have hmem {q : Nat} := @mem_insertPlace? place t.visited places hplaces q
  exact ⟨⟨sorted_insertPlace? hs hplaces, fun q hq => hmem.mpr (.inr hq)⟩, hmem.mpr (.inl rfl)⟩

end Trail

namespace Pattern

variable {greedy : Bool} {round : Way → List Way} {t : Trail} {d : Way}

theorem extends_foldl {f : Trail → Way → Trail}
    (hf : ∀ t d, t.visited.Pairwise (· > ·) → (f t d).Extends t) (ds : List Way)
    (hs : t.visited.Pairwise (· > ·)) : (ds.foldl f t).Extends t :=
  List.foldlRecOn (motive := fun t' : Trail => t'.Extends t) ds f (.refl hs)
    fun t' ht' d _ => (hf t' d ht'.sorted).trans ht'

theorem extends_visit (fuel : Nat) (t : Trail) (d : Way) (hs : t.visited.Pairwise (· > ·)) :
    (visit greedy round fuel t d).Extends t := by
  induction fuel generalizing t d with
  | zero => exact .refl hs
  | succ fuel ih =>
    rw [visit_succ]
    split
    · exact .refl hs
    · next t' ht' =>
      obtain ⟨hext, -⟩ := Trail.extends_of_visit? hs ht'
      split
      · exact ((extends_foldl ih (round d) hext.sorted).trans hext).addEnd d
      · exact (extends_foldl ih (round d) (hext.addEnd d).sorted).trans (hext.addEnd d)

theorem visit_of_mem (hs : t.visited.Pairwise (· > ·)) (h : d.cursor.place ∈ t.visited)
    (fuel : Nat) : visit greedy round fuel t d = t := by
  cases fuel with
  | zero => rfl
  | succ fuel => rw [visit_succ, Trail.visit?_of_mem hs h]

theorem visit_eq_of_lt (hr : ∀ w, ∀ d ∈ round w, ∃ u, w.cursor.Leads u d.cursor) {n m : Nat}
    (hs : t.visited.Pairwise (· > ·)) (hn : d.cursor.rest.length < n)
    (hm : d.cursor.rest.length < m) : visit greedy round n t d = visit greedy round m t d := by
  induction n generalizing m t d with
  | zero => exact absurd hn (Nat.not_lt_zero _)
  | succ n ih =>
    obtain ⟨m, rfl⟩ := Nat.exists_eq_add_one_of_ne_zero (Nat.ne_zero_of_lt hm)
    have hround {t : Trail} (hs : t.visited.Pairwise (· > ·)) (hd : d.cursor.place ∈ t.visited)
        (es : List Way) (hes : ∀ e ∈ es, e ∈ round d) :
        es.foldl (visit greedy round n) t = es.foldl (visit greedy round m) t := by
      induction es generalizing t with
      | nil => rfl
      | cons e es ihe =>
        obtain ⟨he, hes⟩ := List.forall_mem_cons.mp hes
        -- A round that reads nothing ends where it starts; behind any other less is left.
        have hstep : visit greedy round n t e = visit greedy round m t e := by
          obtain ⟨u, hu⟩ := hr d e he
          cases u with
          | nil =>
            have hplace : e.cursor.place ∈ t.visited := by
              rw [hu.place]
              exact hd
            rw [visit_of_mem hs hplace, visit_of_mem hs hplace]
          | cons x u =>
            have hlen := congrArg List.length hu.rest
            rw [List.length_append, List.length_cons] at hlen
            exact ih hs (by omega) (by omega)
        have hext := @extends_visit greedy round m t e hs
        rw [List.foldl_cons, List.foldl_cons, hstep]
        exact ihe hext.sorted (hext.visited hd) hes
    rw [visit_succ, visit_succ]
    cases ht : t.visit? d.cursor.place with
    | none => rfl
    | some t' =>
      obtain ⟨hext, hd⟩ := Trail.extends_of_visit? hs ht
      dsimp only
      rw [hround hext.sorted hd _ fun e he => he,
        hround (hext.addEnd d).sorted hd _ fun e he => he]

/-- The fuel of a repetition is never used up: with more of it, nothing else is found. -/
theorem rounds_eq_of_lt (p : Pattern) {w : Way} {ds : List Way}
    (hds : ∀ d ∈ ds, ∃ u, w.cursor.Leads u d.cursor) {fuel : Nat}
    (hf : w.cursor.rest.length < fuel) :
    rounds greedy p.ways w ds = (ds.foldl (visit greedy p.ways fuel)
      { visited := if w.marks.here then [w.cursor.place] else [] }).ends.reverse.map
        Way.outRound := by
  have hround (w d : Way) (hd : d ∈ p.ways w) : ∃ u, w.cursor.Leads u d.cursor :=
    leads_of_mem_ways p hd
  have hfold {t : Trail} (hs : t.visited.Pairwise (· > ·)) :
      ds.foldl (visit greedy p.ways (w.cursor.rest.length + 1)) t =
        ds.foldl (visit greedy p.ways fuel) t := by
    induction ds generalizing t with
    | nil => rfl
    | cons d ds ih =>
      obtain ⟨⟨u, hu⟩, hds⟩ := List.forall_mem_cons.mp hds
      have hlen := congrArg List.length hu.rest
      rw [List.length_append] at hlen
      have hlt : d.cursor.rest.length < w.cursor.rest.length + 1 := by omega
      rw [List.foldl_cons, List.foldl_cons, visit_eq_of_lt hround hs hlt (m := fuel) (by omega)]
      exact ih hds (extends_visit fuel t d hs).sorted
  refine congrArg (fun t : Trail => t.ends.reverse.map Way.outRound) (hfold ?_)
  dsimp only
  split
  · exact List.pairwise_singleton ..
  · exact .nil

end Pattern

end Curly

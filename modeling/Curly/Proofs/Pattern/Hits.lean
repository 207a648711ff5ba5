import Curly.Pattern.Basic

namespace Curly

/-- `d` is a place that is reached from `c` by reading `w`. -/
structure Cursor.Leads (c : Cursor) (w : Text) (d : Cursor) : Prop where
  rest : c.rest = w ++ d.rest
  place : d.place = c.place + w.length
  names : c.names <:+ d.names

namespace Cursor.Leads

variable {c d e : Cursor} {w u : Text}

theorem refl (c : Cursor) : c.Leads [] c := ⟨rfl, rfl, List.suffix_refl _⟩

theorem trans (h : c.Leads w d) (h' : d.Leads u e) : c.Leads (w ++ u) e where
  rest := by rw [h.rest, h'.rest, List.append_assoc]
  place := by rw [h'.place, h.place, List.length_append, Nat.add_assoc]
  names := h.names.trans h'.names

theorem le_place (h : c.Leads w d) : c.place ≤ d.place := by
  rw [h.place]
  exact Nat.le_add_right _ _

theorem at_end {place : Nat} {names : List Text} (h : (⟨place, [], names⟩ : Cursor).Leads w d) :
    d = ⟨place, [], d.names⟩ := by
  obtain ⟨hw, hr⟩ := List.append_eq_nil_iff.mp h.rest.symm
  have hp : d.place = place := by rw [h.place, hw, List.length_nil, Nat.add_zero]
  obtain ⟨place', rest, names'⟩ := d
  simp only at hp hr
  rw [hp, hr]

end Cursor.Leads

/-- The same place, with more groups that were entered before all others. -/
def Cursor.behind (c : Cursor) (names : List Text) : Cursor := { c with names := c.names ++ names }

def Way.behind (w : Way) (names : List Text) : Way := { w with cursor := w.cursor.behind names }

def Trail.behind (t : Trail) (names : List Text) : Trail :=
  { t with ends := t.ends.map (·.behind names) }

@[simp] theorem Trail.visit?_behind (t : Trail) (names : List Text) (place : Nat) :
    (t.behind names).visit? place = (t.visit? place).map (·.behind names) := by
  simp only [visit?, behind, Option.map_map]
  rfl

theorem Trail.ends_of_visit? {t t' : Trail} {place : Nat} (h : t.visit? place = some t') :
    t'.ends = t.ends := by
  obtain ⟨visited, -, rfl⟩ := Option.map_eq_some_iff.mp h
  rfl

namespace Pattern

section Rounds

variable {greedy : Bool} {round : Way → List Way}

theorem visit_succ (fuel : Nat) (t : Trail) (d : Way) :
    visit greedy round (fuel + 1) t d =
      match t.visit? d.cursor.place with
      | none => t
      | some t =>
        if greedy then ((round d).foldl (visit greedy round fuel) t).addEnd d
        else (round d).foldl (visit greedy round fuel) (t.addEnd d) := rfl

/-- What holds at the end of the first rounds and is kept by each round holds wherever a repetition
is left. -/
theorem forall_ends_visit {P : Way → Prop} (hP : ∀ w, P w → ∀ d ∈ round w, P d) (fuel : Nat)
    {t : Trail} (ht : ∀ e ∈ t.ends, P e) {d : Way} (hd : P d) :
    ∀ e ∈ (visit greedy round fuel t d).ends, P e := by
  induction fuel generalizing t d with
  | zero => exact ht
  | succ fuel ih =>
    rw [visit_succ]
    split
    · exact ht
    · next t' ht' =>
      rw [← Trail.ends_of_visit? ht'] at ht
      have hfold {t : Trail} (ht : ∀ e ∈ t.ends, P e) :
          ∀ e ∈ ((round d).foldl (visit greedy round fuel) t).ends, P e :=
        List.foldlRecOn (motive := fun t : Trail => ∀ e ∈ t.ends, P e) _ _ ht
          fun t ht e he => ih ht (hP d hd e he)
      split
      · exact List.forall_mem_cons.mpr ⟨hd, hfold ht⟩
      · exact hfold (List.forall_mem_cons.mpr ⟨hd, ht⟩)

theorem forall_mem_rounds {P : Cursor → Prop}
    (hP : ∀ w, P w.cursor → ∀ d ∈ round w, P d.cursor) {w : Way} {ds : List Way}
    (hds : ∀ d ∈ ds, P d.cursor) : ∀ d ∈ rounds greedy round w ds, P d.cursor := by
  intro d hd
  obtain ⟨e, he, rfl⟩ := List.mem_map.mp hd
  refine List.foldlRecOn (motive := fun t : Trail => ∀ e ∈ t.ends, P e.cursor) ds
    (visit greedy round (w.cursor.rest.length + 1)) (fun _ h => absurd h List.not_mem_nil) ?_ e
    (List.mem_reverse.mp he)
  intro t ht d hd
  exact forall_ends_visit (P := fun w => P w.cursor) hP _ ht (hds d hd)

theorem suffix_ends_foldl {f : Trail → Way → Trail} (hf : ∀ t d, t.ends <:+ (f t d).ends)
    (ds : List Way) (t : Trail) : t.ends <:+ (ds.foldl f t).ends :=
  List.foldlRecOn (motive := fun t' : Trail => t.ends <:+ t'.ends) ds f (List.suffix_refl _)
    fun t' ht' d _ => ht'.trans (hf t' d)

theorem suffix_ends_visit (fuel : Nat) (t : Trail) (d : Way) :
    t.ends <:+ (visit greedy round fuel t d).ends := by
  induction fuel generalizing t d with
  | zero => exact List.suffix_refl _
  | succ fuel ih =>
    rw [visit_succ]
    split
    · exact List.suffix_refl _
    · next t' ht' =>
      rw [← Trail.ends_of_visit? ht']
      split
      · exact (suffix_ends_foldl ih _ t').trans (List.suffix_cons ..)
      · exact (List.suffix_cons ..).trans (suffix_ends_foldl ih _ (t'.addEnd d))

theorem ends_visit_ne_nil (fuel : Nat) {t t' : Trail} {d : Way}
    (h : t.visit? d.cursor.place = some t') : (visit greedy round (fuel + 1) t d).ends ≠ [] := by
  rw [visit_succ, h]
  dsimp only
  split
  · exact List.cons_ne_nil _ _
  · intro hnil
    have hends := suffix_ends_foldl (@suffix_ends_visit greedy round fuel) (round d) (t'.addEnd d)
    exact List.cons_ne_nil _ _ (List.suffix_nil.mp (hnil ▸ hends))

theorem rounds_ne_nil {w : Way} (hw : w.marks.here = false) {ds : List Way} (hds : ds ≠ []) :
    rounds greedy round w ds ≠ [] := by
  obtain ⟨d, ds, rfl⟩ := List.exists_cons_of_ne_nil hds
  rw [rounds, hw]
  intro hnil
  have hends := List.reverse_eq_nil_iff.mp (List.map_eq_nil_iff.mp hnil)
  rw [List.foldl_cons] at hends
  have hfirst := suffix_ends_foldl (@suffix_ends_visit greedy round (w.cursor.rest.length + 1)) ds
    (visit greedy round (w.cursor.rest.length + 1) {} d)
  exact ends_visit_ne_nil _ rfl (List.suffix_nil.mp (hends ▸ hfirst))

theorem foldl_visit_behind {names : List Text}
    (hr : ∀ w, round (w.behind names) = (round w).map (·.behind names)) (fuel : Nat)
    (ds : List Way) (t : Trail) :
    (ds.map (·.behind names)).foldl (visit greedy round fuel) (t.behind names) =
      (ds.foldl (visit greedy round fuel) t).behind names := by
  -- The fuel goes down from round to round, and within one round the ends are taken in order.
  induction fuel generalizing ds t with
  | zero =>
    have hzero (t : Trail) (ds : List Way) : ds.foldl (visit greedy round 0) t = t := by
      induction ds with
      | nil => rfl
      | cons d ds ih => exact ih
    rw [hzero, hzero]
  | succ fuel ih =>
    have hvisit (t : Trail) (d : Way) :
        visit greedy round (fuel + 1) (t.behind names) (d.behind names) =
          (visit greedy round (fuel + 1) t d).behind names := by
      have hplace : (d.behind names).cursor.place = d.cursor.place := rfl
      rw [visit_succ, visit_succ, hplace, Trail.visit?_behind, hr]
      cases t.visit? d.cursor.place with
      | none => rfl
      | some t =>
        dsimp only [Option.map_some]
        split
        · rw [ih]
          rfl
        · exact ih _ (t.addEnd d)
    induction ds generalizing t with
    | nil => rfl
    | cons d ds ihd => rw [List.map_cons, List.foldl_cons, hvisit, ihd, List.foldl_cons]

theorem rounds_behind {names : List Text}
    (hr : ∀ w, round (w.behind names) = (round w).map (·.behind names)) (w : Way)
    (ds : List Way) :
    rounds greedy round (w.behind names) (ds.map (·.behind names)) =
      (rounds greedy round w ds).map (·.behind names) := by
  have hfold := @foldl_visit_behind greedy round names hr (w.cursor.rest.length + 1) ds
    { visited := if w.marks.here then [w.cursor.place] else [] }
  have hends := congrArg (fun t : Trail => t.ends.reverse.map Way.outRound) hfold
  refine hends.trans ?_
  rw [Trail.behind, rounds, ← List.map_reverse, List.map_map, List.map_map]
  rfl

end Rounds

/-- Whatever holds between places in a row, from each character to the next one and where a group of
the pattern is entered, holds between the ends of a way. -/
theorem rel_of_mem_ways {R : Cursor → Cursor → Prop} (hrefl : ∀ c, R c c)
    (htrans : ∀ {c d e}, R c d → R d e → R c e)
    (hstep : ∀ c x s, c.rest = x :: s → R c (c.step s)) (p : Pattern)
    (henter : ∀ c, ∀ name ∈ p.names, R c (c.enter name)) {w d : Way} (h : d ∈ p.ways w) :
    R w.cursor d.cursor := by
  -- What each round of a repetition keeps is kept by all of them.
  have hrounds {greedy : Bool} {round : Way → List Way} {ds : List Way}
      (hr : ∀ w, ∀ d ∈ round w, R w.cursor d.cursor) {w d : Way}
      (hds : ∀ d ∈ ds, R w.cursor d.cursor) (h : d ∈ rounds greedy round w ds) :
      R w.cursor d.cursor :=
    forall_mem_rounds (P := R w.cursor) (fun w hw d hd => htrans hw (hr w d hd)) hds d h
  induction p generalizing w d with
  | empty =>
    obtain rfl := List.mem_singleton.mp h
    exact hrefl _
  | one k =>
    rw [ways] at h
    split at h
    · exact absurd h List.not_mem_nil
    · next x s hs =>
      split at h
      · obtain rfl := List.mem_singleton.mp h
        exact hstep _ x s hs
      · exact absurd h List.not_mem_nil
  | seq p q ihp ihq =>
    obtain ⟨e, he, hd⟩ := List.mem_flatMap.mp h
    obtain ⟨d', hd', rfl⟩ := List.mem_map.mp hd
    have hp := ihp (fun c name hn => henter c name (List.mem_append_left _ hn)) he
    have hq := ihq (fun c name hn => henter c name (List.mem_append_right _ hn)) hd'
    exact htrans hp hq
  | alt p q ihp ihq =>
    rw [ways] at h
    split at h
    · exact absurd h List.not_mem_nil
    · obtain h | h := List.mem_append.mp h
      · obtain ⟨d', hd', rfl⟩ := List.mem_map.mp h
        have hp := ihp (fun c name hn => henter c name (List.mem_append_left _ hn)) hd'
        exact hp
      · obtain ⟨d', hd', rfl⟩ := List.mem_map.mp h
        have hq := ihq (fun c name hn => henter c name (List.mem_append_right _ hn)) hd'
        exact hq
  | star greedy p ih =>
    refine hrounds (fun w d hd => ih henter hd) ?_ h
    intro d' hd'
    obtain rfl := List.mem_singleton.mp hd'
    exact hrefl _
  | plus greedy p ih =>
    have hr (w d : Way) (hd : d ∈ p.ways w) : R w.cursor d.cursor := ih henter hd
    exact hrounds hr (hr w.left) h
  | start | stop =>
    rw [ways] at h
    split at h
    · obtain rfl := List.mem_singleton.mp h
      exact hrefl _
    · exact absurd h List.not_mem_nil
  | group name p ih =>
    cases name with
    | none => exact ih henter h
    | some name =>
      have hp := ih (fun c n hn => henter c n (List.mem_cons_of_mem _ hn)) h
      exact htrans (henter _ name (List.mem_cons_self ..)) hp

theorem leads_of_mem_ways (p : Pattern) {w d : Way} (h : d ∈ p.ways w) :
    ∃ u, w.cursor.Leads u d.cursor := by
  refine rel_of_mem_ways (R := fun c d => ∃ u, c.Leads u d) ?_ ?_ ?_ p ?_ h
  · exact fun c => ⟨[], .refl c⟩
  · rintro c d e ⟨u, hu⟩ ⟨v, hv⟩
    exact ⟨u ++ v, hu.trans hv⟩
  · exact fun c x s hs => ⟨[x], hs, rfl, List.suffix_refl _⟩
  · exact fun c name _ => ⟨[], rfl, rfl, List.suffix_cons name c.names⟩

theorem leads_of_mem_hits (p : Pattern) {c d : Cursor} (h : d ∈ p.hits c) : ∃ u, c.Leads u d := by
  obtain ⟨d, hd, rfl⟩ := List.mem_map.mp h
  exact leads_of_mem_ways p hd

theorem names_of_mem_hits (p : Pattern) {c d : Cursor} (h : d ∈ p.hits c) :
    d.names ⊆ c.names ++ p.names := by
  obtain ⟨d, hd, rfl⟩ := List.mem_map.mp h
  refine rel_of_mem_ways (R := fun c d => d.names ⊆ c.names ++ p.names) ?_ ?_ ?_ p ?_ hd
  · exact fun c => List.subset_append_left ..
  · intro c d e hd he
    apply List.Subset.trans he
    exact List.append_subset.mpr ⟨hd, List.subset_append_right ..⟩
  · exact fun c x s _ => List.subset_append_left ..
  · intro c name hn
    exact List.cons_subset.mpr ⟨List.mem_append_right _ hn, List.subset_append_left ..⟩

/-- A way that reads nothing goes for the empty text, too: both `^` and `$` hold there, and further
rounds of a repetition are not needed. -/
theorem ways_empty_ne_nil (p : Pattern) {w d : Way} (h : d ∈ p.ways w)
    (hp : d.cursor.place = w.cursor.place) (names : List Text) :
    p.ways ⟨⟨0, [], names⟩, .none⟩ ≠ [] := by
  induction p generalizing w d names with
  | empty => exact List.cons_ne_nil _ _
  | one k =>
    rw [ways] at h
    split at h
    · exact absurd h List.not_mem_nil
    · split at h
      · obtain rfl := List.mem_singleton.mp h
        exact absurd hp (Nat.succ_ne_self _)
      · exact absurd h List.not_mem_nil
  | seq p q ihp ihq =>
    obtain ⟨e, he, hd⟩ := List.mem_flatMap.mp h
    obtain ⟨d', hd', rfl⟩ := List.mem_map.mp hd
    -- Where two parts in a row read nothing together, each of them reads nothing.
    obtain ⟨u, hu⟩ := leads_of_mem_ways p he
    obtain ⟨v, hv⟩ := leads_of_mem_ways q hd'
    have hle : w.cursor.place ≤ e.cursor.place := hu.le_place
    have hle' : e.cursor.place ≤ d'.cursor.place := hv.le_place
    have hplace : d'.cursor.place = w.cursor.place := hp
    have hpe : e.cursor.place = w.left.cursor.place := Nat.le_antisymm (hplace ▸ hle') hle
    obtain ⟨e', he'⟩ := List.exists_mem_of_ne_nil _ (ihp he hpe names)
    obtain ⟨u', hu'⟩ := leads_of_mem_ways p he'
    have hacross : Way.across ⟨⟨0, [], names⟩, .none⟩ e' = ⟨⟨0, [], e'.cursor.names⟩, .none⟩ := by
      rw [Way.across, ← hu'.at_end]
      exact congrArg _ (Marks.kept_none _ _)
    have hq := ihq hd' (hplace.trans hpe.symm) e'.cursor.names
    rw [← hacross] at hq
    obtain ⟨f, hf⟩ := List.exists_mem_of_ne_nil _ hq
    exact List.ne_nil_of_mem (List.mem_flatMap.mpr ⟨e', he', List.mem_map_of_mem hf⟩)
  | alt p q ihp ihq =>
    rw [ways] at h
    split at h
    · exact absurd h List.not_mem_nil
    · obtain h | h := List.mem_append.mp h
      · obtain ⟨d', hd', rfl⟩ := List.mem_map.mp h
        exact List.append_ne_nil_of_left_ne_nil (mt List.map_eq_nil_iff.mp (ihp hd' hp names)) _
      · obtain ⟨d', hd', rfl⟩ := List.mem_map.mp h
        exact List.append_ne_nil_of_right_ne_nil _ (mt List.map_eq_nil_iff.mp (ihq hd' hp names))
  | star greedy p ih => exact rounds_ne_nil rfl (List.cons_ne_nil _ _)
  | plus greedy p ih =>
    -- A repetition ends behind one of its first rounds, so that one reads nothing, too.
    obtain ⟨e, he, hle⟩ : ∃ e ∈ p.ways w.left, e.cursor.place ≤ d.cursor.place := by
      refine forall_mem_rounds (P := fun c => ∃ e ∈ p.ways w.left, e.cursor.place ≤ c.place) ?_ ?_
        d h
      · rintro d ⟨e, he, hle⟩ d' hd'
        obtain ⟨v, hv⟩ := leads_of_mem_ways p hd'
        exact ⟨e, he, Nat.le_trans hle hv.le_place⟩
      · exact fun e he => ⟨e, he, Nat.le_refl _⟩
    obtain ⟨u, hu⟩ := leads_of_mem_ways p he
    have hpe : e.cursor.place = w.left.cursor.place :=
      Nat.le_antisymm (hp ▸ hle) hu.le_place
    exact rounds_ne_nil rfl (ih he hpe names)
  | start | stop => exact List.cons_ne_nil _ _
  | group name p ih =>
    cases name with
    | none => exact ih h hp names
    | some name => exact ih h hp (name :: names)

theorem matchesEmpty_iff (p : Pattern) : p.matchesEmpty = true ↔ p.hits ⟨0, [], []⟩ ≠ [] := by
  rw [matchesEmpty, match?_eq_head?, List.isSome_head?]

/-- The check on the empty text is enough: without a match there, every match reads something. -/
theorem lt_place_of_mem_hits {p : Pattern} (hp : p.matchesEmpty = false) {c d : Cursor}
    (h : d ∈ p.hits c) : c.place < d.place := by
  obtain ⟨w, hw⟩ := leads_of_mem_hits p h
  refine Nat.lt_of_le_of_ne hw.le_place fun he => ?_
  obtain ⟨d, hd, rfl⟩ := List.mem_map.mp h
  have hne : p.hits ⟨0, [], []⟩ ≠ [] :=
    mt List.map_eq_nil_iff.mp (ways_empty_ne_nil p hd he.symm [])
  rw [← matchesEmpty_iff, hp] at hne
  exact Bool.false_ne_true hne

/-- Which groups were entered before does not matter to what is matched. -/
theorem ways_behind (p : Pattern) (names : List Text) (w : Way) :
    p.ways (w.behind names) = (p.ways w).map (·.behind names) := by
  induction p generalizing w with
  | empty => rfl
  | one k =>
    obtain ⟨⟨place, rest, entered⟩, marks⟩ := w
    cases rest with
    | nil => rfl
    | cons x s =>
      simp only [ways, Way.behind, Cursor.behind]
      split <;> rfl
  | seq p q ihp ihq =>
    have hacross (d : Way) : (w.behind names).across (d.behind names) =
        (w.across d).behind names := rfl
    have hleft : (w.behind names).left = w.left.behind names := rfl
    rw [ways, ways, hleft, ihp, List.flatMap_map, List.map_flatMap]
    simp only [hacross, ihq, List.map_map]
    rfl
  | alt p q ihp ihq =>
    have hleft : (w.behind names).left = w.left.behind names := rfl
    have hright : (w.behind names).right = w.right.behind names := rfl
    have hhere : (w.behind names).marks = w.marks := rfl
    rw [ways, ways, hleft, hright, hhere, ihp, ihq, apply_ite (List.map _), List.map_append]
    simp only [List.map_map]
    rfl
  | star greedy p ih => exact rounds_behind ih w [w.left]
  | plus greedy p ih =>
    have hleft : (w.behind names).left = w.left.behind names := rfl
    rw [ways, ways, hleft, ih]
    exact rounds_behind ih w _
  | start | stop =>
    rw [ways, ways, apply_ite (List.map _)]
    rfl
  | group name p ih =>
    cases name with
    | none => exact ih w
    | some name => exact ih { w with cursor := w.cursor.enter name }

theorem hits_behind (p : Pattern) (names : List Text) (c : Cursor) :
    p.hits (c.behind names) = (p.hits c).map (·.behind names) := by
  have hways : p.ways ⟨c.behind names, .none⟩ = (p.ways ⟨c, .none⟩).map (·.behind names) :=
    ways_behind p names ⟨c, .none⟩
  rw [hits, hits, hways, List.map_map, List.map_map]
  rfl

end Pattern

end Curly

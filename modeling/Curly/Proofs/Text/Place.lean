import Curly.Proofs.Text.Lines

namespace Curly

namespace Text

/-- The offset lies between two characters of the text, or at one of its ends. -/
def IsBoundary (s : Text) (offset : Nat) : Prop := ∃ u v, s = u ++ v ∧ offset = bytes u

def IsInside (s : Text) (offset : Nat) : Prop :=
  ∃ u c v, s = u ++ c :: v ∧ bytes u < offset ∧ offset < bytes u + c.utf8Size

variable {s u v w : Text} {offset : Nat}

theorem exists_append_of_bytes_lt {u' v' : Text} (h : u ++ v = u' ++ v')
    (hlt : bytes u < bytes u') : ∃ w, w ≠ [] ∧ u' = u ++ w := by
  obtain ⟨w, hu, -⟩ | ⟨w, hu, -⟩ := List.append_eq_append_iff.mp h
  · refine ⟨w, ?_, hu⟩
    rintro rfl
    rw [hu, List.append_nil] at hlt
    exact absurd hlt (Nat.lt_irrefl _)
  · rw [hu, bytes_append] at hlt
    omega

theorem isBoundary_of_takeBytes? (h : takeBytes? offset s = some u) :
    ∃ v, s = u ++ v ∧ offset = bytes u := by
  fun_induction takeBytes? offset s generalizing u with
  | case1 s =>
    cases h
    exact ⟨s, rfl, rfl⟩
  | case2 => cases h
  | case3 n c s hle ih =>
    obtain ⟨u, hu, rfl⟩ := Option.map_eq_some_iff.mp h
    obtain ⟨v, rfl, ho⟩ := ih hu
    refine ⟨v, rfl, ?_⟩
    rw [bytes_cons, ← ho]
    omega
  | case4 => cases h

theorem before_of_not_isBoundary (h : ¬s.IsBoundary offset) : s.before offset = s := by
  cases ht : takeBytes? offset s with
  | none => rw [before, ht, Option.getD_none]
  | some u =>
    obtain ⟨v, hs, ho⟩ := isBoundary_of_takeBytes? ht
    exact absurd ⟨u, v, hs, ho⟩ h

theorem not_isBoundary_of_bytes_lt (h : bytes s < offset) : ¬s.IsBoundary offset := by
  rintro ⟨u, v, rfl, rfl⟩
  rw [bytes_append] at h
  omega

theorem not_isBoundary_of_isInside (h : s.IsInside offset) : ¬s.IsBoundary offset := by
  rintro ⟨u', v', hs, rfl⟩
  obtain ⟨u, c, v, rfl, hlo, hhi⟩ := h
  obtain ⟨w, hw, rfl⟩ := exists_append_of_bytes_lt hs hlo
  rw [List.append_assoc, List.append_cancel_left_eq] at hs
  obtain ⟨d, w, rfl⟩ := List.exists_cons_of_ne_nil hw
  obtain ⟨rfl, -⟩ := List.cons.inj hs
  rw [bytes_append, bytes_cons] at hhi
  omega

theorem lastLine_append_of_not_mem (u : Text) (h : '\n' ∉ w) :
    lastLine (u ++ w) = lastLine u ++ w := by
  induction u using line_induction with
  | last l hl => rw [lastLine_of_not_mem hl, lastLine_of_not_mem (by simp [hl, h])]
  | line l s hl ih => rw [List.append_assoc, List.cons_append, lastLine_append, lastLine_append, ih]

theorem splitOn_append_of_not_mem {mark : Char} (h : mark ∉ u) (v : Text) :
    ∃ l rest, splitOn mark (u ++ v) = (u ++ l) :: rest := by
  induction u with
  | nil =>
    obtain ⟨l, rest, hv⟩ := List.exists_cons_of_ne_nil (splitOn_ne_nil mark v)
    exact ⟨l, rest, hv⟩
  | cons c u ih =>
    rw [List.mem_cons, not_or] at h
    obtain ⟨l, rest, hu⟩ := ih h.2
    refine ⟨l, rest, ?_⟩
    rw [List.cons_append, splitOn, if_neg (Ne.symm h.1), hu]
    rfl

def unsplit (ls : List Text) : Text := ls.flatMap (· ++ ['\n'])

theorem lastLine_unsplit_append (ls : List Text) (h : '\n' ∉ w) :
    lastLine (unsplit ls ++ w) = w := by
  have hnil : lastLine (unsplit ls) = [] := by
    cases ls using List.reverseRecOn with
    | nil => rfl
    | append_singleton ls l =>
      have hl : unsplit (ls ++ [l]) = (unsplit ls ++ l) ++ '\n' :: [] := by simp [unsplit]
      rw [hl, lastLine_append]
      rfl
  rw [lastLine_append_of_not_mem _ h, hnil, List.nil_append]

/-- A part that a text starts with is made up of some of its lines and the start of the next one. -/
theorem exists_splitOn_append (u v : Text) :
    ∃ ls l rest, splitOn '\n' (u ++ v) = ls ++ (lastLine u ++ l) :: rest ∧
      ls.length = u.count '\n' ∧ u = unsplit ls ++ lastLine u := by
  induction u using line_induction with
  | last u hu =>
    obtain ⟨l, rest, h⟩ := splitOn_append_of_not_mem hu v
    rw [lastLine_of_not_mem hu]
    exact ⟨[], l, rest, h, (List.count_eq_zero_of_not_mem hu).symm, rfl⟩
  | line k s hk ih =>
    obtain ⟨ls, l, rest, h, hlen, hs⟩ := ih
    rw [lastLine_append]
    refine ⟨k :: ls, l, rest, ?_, ?_, ?_⟩
    · rw [List.append_assoc, List.cons_append, splitOn_append hk, h, List.cons_append]
    · rw [List.count_append, List.count_eq_zero_of_not_mem hk, List.count_cons_self,
        List.length_cons, hlen, Nat.zero_add]
    · conv_lhs => rw [hs]
      simp [unsplit]

theorem exists_of_splitOn {ls rest : List Text} {l : Text}
    (h : splitOn '\n' s = ls ++ l :: rest) :
    '\n' ∉ l ∧ (unsplit ls).count '\n' = ls.length ∧ ∃ v, s = unsplit ls ++ (l ++ v) := by
  induction s using line_induction generalizing ls with
  | last s hs =>
    rw [splitOn_of_not_mem hs] at h
    obtain ⟨rfl, rfl, -⟩ : ls = [] ∧ l = s ∧ rest = [] := by
      cases ls with
      | nil =>
        obtain ⟨rfl, rfl⟩ := List.cons.inj h
        exact ⟨rfl, rfl, rfl⟩
      | cons k ls => simp at h
    exact ⟨hs, rfl, [], by simp [unsplit]⟩
  | line k s hk ih =>
    rw [splitOn_append hk] at h
    cases ls with
    | nil =>
      obtain ⟨rfl, -⟩ := List.cons.inj h
      exact ⟨hk, rfl, '\n' :: s, rfl⟩
    | cons k' ls =>
      obtain ⟨rfl, hrest⟩ := List.cons.inj h
      obtain ⟨hl, hcount, v, hs⟩ := ih hrest
      refine ⟨hl, ?_, v, ?_⟩
      · rw [unsplit, List.flatMap_cons, ← unsplit, List.count_append, hcount, List.count_append,
          List.count_eq_zero_of_not_mem hk, List.length_cons]
        simp [Nat.add_comm]
      · conv_lhs => rw [hs]
        simp [unsplit]

end Text

namespace Position

open Text

/-- On an earlier line, or earlier in the same line. -/
def Precedes (p q : Position) : Prop := p.line < q.line ∨ p.line = q.line ∧ p.col < q.col

/-- The position is that of a character in its line, or the end of the line. -/
def IsIn (s : Text) (p : Position) : Prop :=
  ∃ ls l rest, splitOn '\n' s = ls ++ l :: rest ∧ p.line = ls.length + 1 ∧ 1 ≤ p.col ∧
    p.col ≤ l.length + 1

/-- The bytes of the lines before, with their line feeds, and of the characters before the position
in its own line. -/
def offsetIn (s : Text) (p : Position) : Nat :=
  bytes (unsplit ((splitOn '\n' s).take (p.line - 1))) +
    bytes (((splitOn '\n' s)[p.line - 1]?.getD []).take (p.col - 1))

theorem line_ofText (s : Text) : (ofText s).line = s.count '\n' + 1 := rfl

theorem col_ofText (s : Text) : (ofText s).col = (lastLine s).length + 1 := by
  rw [lastLine, List.length_reverse]
  rfl

theorem precedes_ofText_append (u : Text) {w : Text} (hw : w ≠ []) :
    (ofText u).Precedes (ofText (u ++ w)) := by
  rw [Precedes, line_ofText, line_ofText, List.count_append]
  by_cases h : '\n' ∈ w
  · have hpos := List.count_pos_iff.mpr h
    left
    omega
  · right
    have hlen := List.length_pos_iff.mpr hw
    rw [List.count_eq_zero_of_not_mem h, col_ofText, col_ofText, lastLine_append_of_not_mem u h,
      List.length_append]
    omega

theorem offsetIn_ofText (u v : Text) :
    (ofText u).IsIn (u ++ v) ∧ (ofText u).offsetIn (u ++ v) = bytes u := by
  obtain ⟨ls, l, rest, h, hlen, hu⟩ := exists_splitOn_append u v
  have hline : (ofText u).line - 1 = ls.length := hlen.symm
  have hcol : (ofText u).col - 1 = (lastLine u).length := by rw [col_ofText, Nat.add_sub_cancel]
  have hget : (splitOn '\n' (u ++ v))[ls.length]? = some (lastLine u ++ l) := by simp [h]
  constructor
  · refine ⟨ls, lastLine u ++ l, rest, h, congrArg (· + 1) hlen.symm, Nat.le_add_left .., ?_⟩
    rw [col_ofText, List.length_append]
    omega
  · rw [offsetIn, hline, hcol, hget, h, List.take_left, Option.getD_some, List.take_left,
      ← bytes_append, ← hu]

theorem exists_ofText {s : Text} {p : Position} (h : p.IsIn s) :
    ∃ u v, s = u ++ v ∧ p = ofText u := by
  obtain ⟨ls, l, rest, hsplit, hline, hcol, hle⟩ := h
  obtain ⟨hfree, hcount, v, hs⟩ := exists_of_splitOn hsplit
  have hstart : '\n' ∉ l.take (p.col - 1) := mt List.mem_of_mem_take hfree
  have hl : (ofText (unsplit ls ++ l.take (p.col - 1))).line = p.line := by
    rw [line_ofText, List.count_append, hcount, List.count_eq_zero_of_not_mem hstart, hline]
  have hc : (ofText (unsplit ls ++ l.take (p.col - 1))).col = p.col := by
    rw [col_ofText, lastLine_unsplit_append _ hstart, List.length_take_of_le (by omega)]
    omega
  refine ⟨unsplit ls ++ l.take (p.col - 1), l.drop (p.col - 1) ++ v, ?_, ?_⟩
  · rw [List.append_assoc, ← List.append_assoc (l.take _), List.take_append_drop, hs]
  · obtain ⟨line, col⟩ := p
    exact (Position.mk.injEq ..).mpr ⟨hl.symm, hc.symm⟩

theorem ofOffset_append (u v : Text) : ofOffset (u ++ v) (bytes u) = ofText u := by
  rw [ofOffset, before_append]

theorem Precedes.not_precedes {p q : Position} (h : p.Precedes q) : p ≠ q ∧ ¬q.Precedes p := by
  unfold Precedes at h ⊢
  refine ⟨?_, by omega⟩
  rintro rfl
  omega

theorem ofOffset_precedes {s : Text} {o o' : Nat} (ho : s.IsBoundary o) (ho' : s.IsBoundary o')
    (hlt : o < o') : (ofOffset s o).Precedes (ofOffset s o') := by
  obtain ⟨u, v, rfl, rfl⟩ := ho
  obtain ⟨u', v', hs, rfl⟩ := ho'
  obtain ⟨w, hw, rfl⟩ := exists_append_of_bytes_lt hs hlt
  rw [ofOffset_append, hs, ofOffset_append]
  exact precedes_ofText_append u hw

/-- Offsets between characters and positions in a text correspond to each other. Of two offsets the
smaller one has the earlier position, and the position tells how many bytes come before it. All
other offsets have the position of the end of the text. -/
theorem ofOffset_precedes_iff (s : Text) :
    (∀ o o', s.IsBoundary o → s.IsBoundary o' →
      (o < o' ↔ (ofOffset s o).Precedes (ofOffset s o'))) ∧
    (∀ o, s.IsBoundary o → (ofOffset s o).IsIn s ∧ (ofOffset s o).offsetIn s = o) ∧
    (∀ p, IsIn s p → s.IsBoundary (p.offsetIn s) ∧ ofOffset s (p.offsetIn s) = p) ∧
    ∀ o, bytes s < o ∨ s.IsInside o → ofOffset s o = ofOffset s (bytes s) := by
  refine ⟨fun o o' ho ho' => ⟨ofOffset_precedes ho ho', fun hp => ?_⟩, ?_, ?_, ?_⟩
  · by_contra hle
    obtain heq | hlt := Nat.eq_or_lt_of_le (Nat.not_lt.mp hle)
    · exact hp.not_precedes.1 (congrArg (ofOffset s) heq.symm)
    · exact hp.not_precedes.2 (ofOffset_precedes ho' ho hlt)
  · rintro o ⟨u, v, rfl, rfl⟩
    rw [ofOffset_append]
    exact offsetIn_ofText u v
  · intro p hp
    obtain ⟨u, v, rfl, rfl⟩ := exists_ofText hp
    rw [(offsetIn_ofText u v).2, ofOffset_append]
    exact ⟨⟨u, v, rfl, rfl⟩, rfl⟩
  · intro o ho
    have hnot : ¬s.IsBoundary o :=
      ho.elim not_isBoundary_of_bytes_lt not_isBoundary_of_isInside
    have hend := ofOffset_append s []
    rw [List.append_nil] at hend
    rw [ofOffset, before_of_not_isBoundary hnot, hend]

theorem ofOffset_precedes_iff_accent :
    let s : Text := ['é', '\n', 'x']
    (s.IsBoundary 2 ∧ s.IsBoundary 3 ∧ (⟨1, 2⟩ : Position).Precedes ⟨2, 1⟩) ∧
      (IsIn s ⟨2, 1⟩ ∧ offsetIn s ⟨2, 1⟩ = 3) ∧
      (s.IsInside 1 ∧ ofOffset s 1 = ⟨2, 2⟩) ∧
      bytes s < 2 ^ 64 - 1 ∧ ofOffset s (2 ^ 64 - 1) = ⟨2, 2⟩ := by
  intro s
  obtain ⟨hprecedes, hback, -, hend⟩ := ofOffset_precedes_iff s
  have htwo : s.IsBoundary 2 := ⟨['é'], ['\n', 'x'], rfl, rfl⟩
  have hthree : s.IsBoundary 3 := ⟨['é', '\n'], ['x'], rfl, rfl⟩
  have hone : s.IsInside 1 := ⟨[], 'é', ['\n', 'x'], rfl, by decide, by decide⟩
  have hfar : bytes s < 2 ^ 64 - 1 := by decide
  exact ⟨⟨htwo, hthree, (hprecedes 2 3 htwo hthree).mp (by decide)⟩, hback 3 hthree,
    ⟨hone, hend 1 (.inr hone)⟩, hfar, hend _ (.inl hfar)⟩

end Position

end Curly

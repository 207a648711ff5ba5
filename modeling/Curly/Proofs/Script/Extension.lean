import Curly.Proofs.Script.Closing

namespace Curly.Script

open Text

namespace Piece

variable {m : Marker} {s rest : Text}

theorem ends_of_lexemes {depth : Int} {ls : List Lexeme} {dash : Bool}
    (h : lexemes m.closing depth s = .ok (ls, dash, rest)) : Ends m dash rest s := by
  fun_induction lexemes m.closing depth s generalizing ls with
  | case1 depth s dash' rest' hc =>
    cases h
    exact ends_of_closes? hc
  | case2 | case4 | case6 => simp at h
  | case3 depth c s _ _ ih => exact (ih h).of_suffix (List.suffix_cons c s)
  | case5 depth c s _ l rest' hread _ ls' dash' rest'' heq _ ih =>
    cases h
    exact (ih heq).of_suffix ((Lexeme.read_suffix hread).trans (List.suffix_cons c s))

theorem lexemes_extend {depth : Int} {ls : List Lexeme} {dash : Bool}
    (h : lexemes m.closing depth s = .ok (ls, dash, rest)) (t : Text) :
    lexemes m.closing depth (s ++ t) = .ok (ls, dash, rest ++ t) := by
  have hs := (ends_of_lexemes h).closes
  fun_induction lexemes m.closing depth s generalizing ls with
  | case1 depth s dash' rest' hc =>
    cases h
    rw [lexemes.eq_def, closes?_extend hs, hc]
    rfl
  | case2 | case4 | case6 => simp at h
  | case3 depth c s hb hc ih =>
    rw [lexemes.eq_def, closes?_extend hs, hc]
    simp only [Option.map_none, List.cons_append, if_pos hb]
    exact ih h (ends_of_lexemes h).closes
  | case5 depth c s hb l rest' hread _ ls' dash' rest'' heq hc ih =>
    cases h
    have hrest := (ends_of_lexemes heq).closes
    have hopen : closes? m.closing depth (c :: (s ++ t)) = none := by
      rw [← List.cons_append, closes?_extend hs, hc]
      rfl
    rw [List.cons_append, lexemes_open m hopen (Bool.eq_false_iff.mpr hb),
      Lexeme.read_extend hread hrest t]
    change behind [l] (lexemes m.closing (depth + l.depth) (rest' ++ t)) = _
    rw [ih heq hrest]
    rfl

theorem control_suffix (s : Text) :
    (if (control s).1 then ['-'] else []) ++ (control s).2 <:+ s := by
  unfold control
  split
  · exact List.suffix_refl _
  · exact List.suffix_cons ..
  · exact List.suffix_refl _

theorem control_extend (hs : s ≠ []) (t : Text) :
    control (s ++ t) = ((control s).1, (control s).2 ++ t) := by
  obtain ⟨c, s, rfl⟩ := List.exists_cons_of_ne_nil hs
  by_cases hm : c = '-'
  · subst hm
    rfl
  · by_cases hp : c = '+'
    · subst hp
      rfl
    · have hplain (s : Text) : control (c :: s) = (false, c :: s) :=
        control.eq_3 _ (by rintro _ ⟨⟩; exact hm rfl) (by rintro _ ⟨⟩; exact hp rfl)
      rw [List.cons_append, hplain, hplain]
      rfl

theorem Closes.control (h : Closes m s) : Closes m (control s).2 := by
  unfold Piece.control
  split
  · exact h.tail (by cases m <;> decide)
  · exact h.tail (by cases m <;> decide)
  · exact h

theorem after?_extend_closes {word : Text} (h : Closes m s) (hw : m.sign ∉ word) (t : Text) :
    after? word (s ++ t) = (after? word s).map (· ++ t) := by
  induction word generalizing s with
  | nil => rfl
  | cons a word ih =>
    rw [List.mem_cons, not_or] at hw
    obtain ⟨c, s, rfl⟩ := List.exists_cons_of_ne_nil h.ne_nil
    rw [List.cons_append, after?, after?]
    split
    · next ha => exact ih (h.tail fun hc => hw.1 (hc.symm.trans ha.symm)) hw.2
    · rfl

theorem isAsciiBlank_sign (m : Marker) : isAsciiBlank m.sign = false := by cases m <;> decide

theorem oneWord?_extend {word : Text} (h : Closes .statement s) (hw : '%' ∉ word) (t : Text) :
    oneWord? word (s ++ t) =
      (oneWord? word s).map fun (dash, dash', rest) => (dash, dash', rest ++ t) := by
  have hblank := isAsciiBlank_sign .statement
  have hs := h.control.dropWhile hblank
  simp only [oneWord?, control_extend h.ne_nil, dropWhile_extend hs.ne_nil,
    after?_extend_closes hs hw, Option.bind_eq_bind]
  cases hr : after? word ((control s).2.dropWhile isAsciiBlank) with
  | none => rfl
  | some r =>
    rw [after?_eq_some_iff.mp hr] at hs
    have hr := (hs.behind hw).dropWhile hblank
    have hlen : (Marker.closing .statement).length ≤
        (control (r.dropWhile isAsciiBlank)).2.length := hr.control.length_le
    simp only [Option.map_some, Option.bind_some, dropWhile_extend hr.ne_nil,
      control_extend hr.ne_nil, after?_of_length_le hlen]
    cases after? (Marker.closing .statement) (control (r.dropWhile isAsciiBlank)).2 <;> rfl

theorem ends_of_oneWord? {word : Text} {dash dash' : Bool}
    (h : oneWord? word s = some (dash, dash', rest)) : Ends .statement dash' rest s := by
  simp only [oneWord?, Option.bind_eq_bind, Option.bind_eq_some_iff, Option.some.injEq,
    Prod.mk.injEq] at h
  obtain ⟨u, hu, r, hr, -, rfl, rfl⟩ := h
  rw [after?_eq_some_iff] at hu hr
  have hcontrol := control_suffix (u.dropWhile isAsciiBlank)
  rw [hr, ← List.append_assoc] at hcontrol
  have hword : u <:+ (control s).2.dropWhile isAsciiBlank := hu ▸ List.suffix_append word u
  have hstart : (control s).2 <:+ s := (List.suffix_append _ _).trans (control_suffix s)
  exact hcontrol.trans ((List.dropWhile_suffix _).trans (hword.trans
    ((List.dropWhile_suffix _).trans hstart)))

theorem ends_of_cutRaw? {body : Text} {dash dash' : Bool}
    (h : cutRaw? s = some (body, dash, dash', rest)) :
    ∃ u, ['{', '%'] ++ u <:+ s ∧ Ends .statement dash' rest u := by
  induction s generalizing body with
  | nil => cases h
  | cons c s ih =>
    rw [cutRaw?] at h
    split at h
    · next hb =>
      obtain ⟨u, hu, hw⟩ := Option.bind_eq_some_iff.mp hb
      cases h
      rw [after?_eq_some_iff] at hu
      exact ⟨u, hu ▸ List.suffix_refl _, ends_of_oneWord? hw⟩
    · simp only [Option.map_eq_some_iff, Prod.mk.injEq, Prod.exists] at h
      obtain ⟨b, d, d', r, h, -, rfl, rfl, rfl⟩ := h
      obtain ⟨u, hu, he⟩ := ih h
      exact ⟨u, hu.trans (List.suffix_cons c s), he⟩

theorem cutRaw?_extend {body : Text} {dash dash' : Bool}
    (h : cutRaw? s = some (body, dash, dash', rest)) (t : Text) :
    cutRaw? (s ++ t) = some (body, dash, dash', rest ++ t) := by
  have hword : '%' ∉ "endraw".toList := by decide
  induction s generalizing body with
  | nil => cases h
  | cons c s ih =>
    rw [List.cons_append, cutRaw?]
    rw [cutRaw?] at h
    split at h
    · next d d' r hb =>
      obtain ⟨u, hu, hw⟩ := Option.bind_eq_some_iff.mp hb
      cases h
      rw [← List.cons_append, after?_extend hu, Option.bind_some,
        oneWord?_extend (ends_of_oneWord? hw).closes hword, hw]
      rfl
    · next hb =>
      simp only [Option.map_eq_some_iff, Prod.mk.injEq, Prod.exists] at h
      obtain ⟨b, d, d', r, h, rfl, rfl, rfl, rfl⟩ := h
      obtain ⟨u, hu, he⟩ := ends_of_cutRaw? h
      have hlen : ['{', '%'].length ≤ (c :: s).length :=
        Nat.le_succ_of_le (Nat.le_trans (by simp) hu.length_le)
      have hnone : (after? ['{', '%'] (c :: (s ++ t))).bind (oneWord? "endraw".toList) = none := by
        rw [← List.cons_append, after?_of_length_le hlen]
        cases ha : after? ['{', '%'] (c :: s) with
        | none => rfl
        | some w =>
          -- The tag that ends the block lies behind the marker that does not end it.
          have hs : Closes .statement w := by
            obtain ⟨rfl, rfl⟩ := List.cons.inj (after?_eq_some_iff.mp ha)
            have hw : ['{', '%'] ++ u <:+ w :=
              (List.suffix_cons_iff.mp hu).resolve_left (by rintro ⟨⟩)
            exact (he.closes.prepend _).of_suffix hw
          rw [ha, Option.bind_some] at hb
          rw [Option.map_some, Option.bind_some, oneWord?_extend hs hword, hb]
          rfl
      rw [hnone, ih h]
      rfl

theorem cutAt?_extend {part before : Text} (h : cutAt? part s = some (before, rest)) (t : Text) :
    cutAt? part (s ++ t) = some (before, rest ++ t) := by
  induction s generalizing before with
  | nil =>
    rw [cutAt?] at h
    split at h
    · next hp =>
      cases h
      subst hp
      cases t <;> rfl
    · cases h
  | cons c s ih =>
    have hlen : part.length ≤ (c :: s).length :=
      (isSome_cutAt?_iff.mp (Option.isSome_of_eq_some h)).length_le
    rw [cutAt?] at h
    rw [List.cons_append, cutAt?, ← List.cons_append, after?_of_length_le hlen]
    cases ha : after? part (c :: s) with
    | some r =>
      rw [ha] at h
      cases h
      rfl
    | none =>
      rw [ha] at h
      simp only [Option.map_eq_some_iff, Prod.mk.injEq, Prod.exists] at h
      obtain ⟨b, r, h, rfl, rfl⟩ := h
      rw [Option.map_none, ih h]
      rfl

theorem eq_of_cutAt? {part before : Text} (h : cutAt? part s = some (before, rest)) :
    s = before ++ part ++ rest := by
  induction s generalizing before with
  | nil =>
    rw [cutAt?] at h
    split at h
    · next hp =>
      cases h
      simp [hp]
    · cases h
  | cons c s ih =>
    rw [cutAt?] at h
    cases ha : after? part (c :: s) with
    | some r =>
      rw [ha] at h
      cases h
      exact after?_eq_some_iff.mp ha
    | none =>
      rw [ha] at h
      simp only [Option.map_eq_some_iff, Prod.mk.injEq, Prod.exists] at h
      obtain ⟨b, r, h, rfl, rfl⟩ := h
      rw [ih h]
      rfl

theorem ends_of_cutTag? {ps : List Piece} {dash : Bool} (h : cutTag? m s = .ok (ps, dash, rest)) :
    Ends m dash rest s := by
  have hstart : (control s).2 <:+ s := (List.suffix_append _ _).trans (control_suffix s)
  unfold cutTag? at h
  split at h
  · split at h
    · cases h
    · next content r hc =>
      cases h
      refine Ends.of_suffix ?_ hstart
      rw [eq_of_cutAt? hc, Ends, List.append_assoc, List.append_assoc]
      have hdash : (if content.getLast? = some '-' then ['-'] else []) <:+ content := by
        split
        · next hd => exact List.singleton_suffix_iff_getLast?_eq_some.mpr hd
        · exact List.nil_suffix
      obtain ⟨u, hu⟩ := hdash
      exact ⟨u, by simpa using congrArg (· ++ (Marker.comment.closing ++ rest)) hu⟩
  · split at h
    · next hw =>
      split at hw
      · next hm =>
        subst hm
        split at h
        · cases h
        · next hr =>
          cases h
          obtain ⟨u, hu, he⟩ := ends_of_cutRaw? hr
          exact he.of_suffix (((List.suffix_append _ u).trans hu).trans
            (ends_of_oneWord? hw).rest_suffix)
      · cases hw
    · split at h
      · cases h
      · next hl =>
        cases h
        exact (ends_of_lexemes hl).of_suffix hstart

theorem rawTag?_extend (h : Closes m s) (t : Text) :
    (if m = .statement then oneWord? "raw".toList (s ++ t) else none) =
      (if m = .statement then oneWord? "raw".toList s else none).map
        fun (dash, dash', rest) => (dash, dash', rest ++ t) := by
  split
  · next hm => exact oneWord?_extend (hm ▸ h) (by decide) t
  · rfl

/-- The first tag is read in the same way, whatever follows it. -/
theorem cutTag?_extend {ps : List Piece} {dash : Bool} (h : cutTag? m s = .ok (ps, dash, rest))
    (t : Text) : cutTag? m (s ++ t) = .ok (ps, dash, rest ++ t) := by
  have hs := (ends_of_cutTag? h).closes
  have hcontrol := control_extend hs.ne_nil t
  have hraw := rawTag?_extend hs t
  unfold cutTag? at h ⊢
  rw [hcontrol]
  split at h
  · split at h
    · cases h
    · next hc =>
      cases h
      simp only [cutAt?_extend hc t]
  · simp only [hraw]
    split at h
    · next hw =>
      rw [hw]
      split at h
      · cases h
      · next hr =>
        cases h
        simp only [Option.map_some, cutRaw?_extend hr t]
    · next hw =>
      rw [hw]
      split at h
      · cases h
      · next hl =>
        cases h
        simp only [Option.map_none, lexemes_extend hl t]

theorem cutMarker?_extend {before : Text} (h : cutMarker? s = some (before, m, rest)) (t : Text) :
    cutMarker? (s ++ t) = some (before, m, rest ++ t) := by
  induction s using cutMarker?.induct generalizing before with
  | case1 | case2 | case3 =>
    cases h
    rfl
  | case4 c s h₁ h₂ h₃ ih =>
    rw [cutMarker?.eq_4 _ _ h₁ h₂ h₃] at h
    simp only [Option.map_eq_some_iff, Prod.mk.injEq, Prod.exists] at h
    obtain ⟨b, m, r, h, rfl, rfl, rfl⟩ := h
    obtain ⟨d, s, rfl⟩ : ∃ d u, s = d :: u := by
      cases s with
      | nil => cases h
      | cons d u => exact ⟨d, u, rfl⟩
    rw [List.cons_append, cutMarker?.eq_4, ih h]
    · rfl
    · rintro _ rfl ⟨⟩
      exact h₁ _ rfl rfl
    · rintro _ rfl ⟨⟩
      exact h₂ _ rfl rfl
    · rintro _ rfl ⟨⟩
      exact h₃ _ rfl rfl
  | case5 => cases h

end Piece

end Curly.Script

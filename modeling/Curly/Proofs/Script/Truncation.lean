import Mathlib.Data.List.TakeWhile
import Curly.Proofs.Outcome
import Curly.Proofs.Script.Alike

namespace Curly

theorem Text.suffix_of_append {r s t : Text} (h : r ++ t <:+ s ++ t) : r <:+ s := by
  obtain ⟨u, hu⟩ := h
  rw [← List.append_assoc] at hu
  exact ⟨u, List.append_cancel_right hu⟩

namespace Script

open Text

namespace Lexeme

open Piece

variable {m : Marker} {s t r : Text} {c : Char} {l : Lexeme}

theorem cutString?_truncate {quote : Char} (hq : quote ≠ '\\') {body : Text} (hr : r ≠ [])
    (h : cutString? quote (s ++ t) = some (body, r ++ t)) :
    cutString? quote s = some (body, r) := by
  have hpos := List.length_pos_iff.mpr hr
  have hlen := length_cutString? h
  rw [List.length_append, List.length_append] at hlen
  induction s using cutString?.induct quote generalizing body with
  | case1 =>
    rw [List.length_nil] at hlen
    omega
  | case2 c s ih =>
    simp only [List.cons_append, cutString?, Option.map_eq_some_iff, Prod.mk.injEq,
      Prod.exists] at h
    obtain ⟨u, r', h, rfl, rfl⟩ := h
    have hlt := length_cutString? h
    rw [List.length_append, List.length_append] at hlt
    rw [cutString?, ih h hlt]
    rfl
  | case3 s hs =>
    rw [List.cons_append, cutString?.eq_3 _ _ _ (by rintro _ _ rfl; exact absurd rfl hq),
      if_pos rfl] at h
    obtain ⟨rfl, he⟩ := Prod.mk.inj (Option.some.inj h)
    rw [cutString?.eq_3 _ _ _ hs, if_pos rfl, List.append_cancel_right he]
  | case4 c s hs hc ih =>
    -- A backslash at the end of the text would escape what follows the text.
    obtain ⟨d, u, rfl⟩ : ∃ d u, s = d :: u := List.exists_cons_of_ne_nil (by
      rintro rfl
      rw [List.length_singleton] at hlen
      omega)
    have hs' : ∀ e w, c = '\\' → d :: u ++ t = e :: w → False := by
      rintro e w rfl -
      exact hs d u rfl rfl
    rw [List.cons_append, cutString?.eq_3 _ _ _ hs', if_neg hc] at h
    simp only [Option.map_eq_some_iff, Prod.mk.injEq, Prod.exists] at h
    obtain ⟨w, r', h, rfl, rfl⟩ := h
    have hlt := length_cutString? h
    rw [List.length_append, List.length_append] at hlt
    rw [cutString?.eq_3 _ _ _ hs, if_neg hc, ih h hlt]
    rfl

theorem cutNumber_truncate (state : NumberState) (hr : Closes m r)
    (h : (cutNumber state (s ++ t)).2.2 = r ++ t) : (cutNumber state s).2.2 = r := by
  induction s generalizing state with
  | nil =>
    have hlen := length_cutNumber state ([] ++ t)
    rw [h, List.length_append, List.nil_append] at hlen
    have := hr.length_le
    omega
  | cons c s ih =>
    have hsuffix : r <:+ c :: s := suffix_of_append (h ▸ cutNumber_suffix state (c :: s ++ t))
    -- The dot of an attribute closes nothing, so that the closing lies behind it.
    have hnext : (if c = '.' && atAttribute (s ++ t) then none else state.next? c) =
        if c = '.' && atAttribute s then none else state.next? c := by
      by_cases hc : c = '.'
      · subst hc
        have hs : Closes m s := (hr.of_suffix hsuffix).tail fun he => by
          cases m <;> revert he <;> decide
        rw [atAttribute_extend hs]
      · simp [hc]
    rw [List.cons_append, cutNumber, hnext] at h
    rw [cutNumber]
    generalize (if c = '.' && atAttribute s then none else state.next? c) = next at h ⊢
    cases next with
    | none => exact List.append_cancel_right h
    | some state => exact ih state h

theorem readRun_truncate {state : NumberState} (hr : Closes m r)
    (h : readRun state (s ++ t) = .ok (l, r ++ t)) : readRun state s = .ok (l, r) := by
  have hrest := cutNumber_truncate state hr (length_readRun h).symm
  unfold readRun at h ⊢
  rw [cutNumber_extend state (hrest ▸ hr) t] at h
  simp only [hrest] at h ⊢
  cases hd : ofDigits? (cutNumber state s).2.1 (cutNumber state s).1 with
  | none =>
    rw [hd] at h
    cases h
  | some l' =>
    rw [hd] at h
    rw [(Prod.mk.inj (Except.ok.inj h)).1]

theorem readNumber_truncate (hs : s ≠ []) (hr : Closes m r)
    (h : readNumber c (s ++ t) = .ok (l, r ++ t)) : readNumber c s = .ok (l, r) := by
  obtain ⟨x, s, rfl⟩ := List.exists_cons_of_ne_nil hs
  by_cases hc : c = '0'
  · subst hc
    simp only [readNumber, List.cons_append] at h ⊢
    cases hb : base? x with
    | some base =>
      rw [hb] at h
      exact readRun_truncate hr h
    | none =>
      rw [hb] at h
      exact readRun_truncate (s := '0' :: x :: s) hr h
  · have hzero : ∀ s : Text, readNumber c s = readRun .whole (c :: s) :=
      fun s => readNumber.eq_2 c s (by rintro _ _ rfl; exact absurd rfl hc)
    rw [hzero] at h ⊢
    exact readRun_truncate (s := c :: x :: s) hr h

theorem readString_truncate {quote : Char} (hq : quote ≠ '\\') (hr : r ≠ [])
    (h : readString quote (s ++ t) = .ok (l, r ++ t)) : readString quote s = .ok (l, r) := by
  unfold readString at h
  split at h
  · cases h
  · next body rest hc =>
    split at h
    · next hu =>
      obtain ⟨rfl, rfl⟩ := Prod.mk.inj (Except.ok.inj h)
      rw [readString, cutString?_truncate hq hr hc]
      simp only [hu]
    · cases h

/-- A lexeme that is read before a closing does not depend on what stands behind the closing. -/
theorem read_truncate (hr : Closes m r) (h : read c (s ++ t) = .ok (l, r ++ t)) :
    read c s = .ok (l, r) := by
  have hs : Closes m s := hr.of_suffix (suffix_of_append (read_suffix h))
  have hhead : (s ++ t).head? = s.head? := by
    rw [List.head?_append, Option.or_of_isSome (by simpa using hs.ne_nil)]
  -- The kinds of lexemes are gone through in the order in which they are tried.
  unfold read at h ⊢
  rw [hhead] at h
  split at h
  · obtain ⟨rfl, he⟩ := Prod.mk.inj (Except.ok.inj h)
    rw [List.tail_append_of_ne_nil hs.ne_nil] at he
    rw [List.append_cancel_right he]
  · split at h
    · obtain ⟨rfl, he⟩ := Prod.mk.inj (Except.ok.inj h)
      rw [List.append_cancel_right he]
    · split at h
      · next hq =>
        rw [if_pos hq]
        refine readString_truncate ?_ hr.ne_nil h
        rintro rfl
        exact absurd hq (by decide)
      · next hq =>
        rw [if_neg hq]
        split at h
        · next hd =>
          rw [if_pos hd]
          exact readNumber_truncate hs.ne_nil hr h
        · next hd =>
          rw [if_neg hd]
          split at h
          · next hw =>
            obtain ⟨rfl, he⟩ := Prod.mk.inj (Except.ok.inj h)
            have hne : s.dropWhile isWordRest ≠ [] := by
              intro hnil
              have hlen := congrArg List.length he
              rw [List.dropWhile_append, hnil, List.isEmpty_nil, if_pos rfl,
                List.length_append] at hlen
              have := hr.length_le
              have := (List.dropWhile_suffix (l := t) isWordRest).length_le
              omega
            rw [if_pos hw, takeWhile_extend hne]
            rw [dropWhile_extend hne] at he
            rw [List.append_cancel_right he]
          · cases h

end Lexeme

namespace Piece

variable {m : Marker} {s t rest : Text} {dash : Bool}

theorem Ends.exists_append (h : Ends m dash (rest ++ t) s) :
    ∃ r, s = r ++ t ∧ Ends m dash rest r := by
  obtain ⟨v, rfl⟩ := h
  refine ⟨v ++ ((if dash then ['-'] else []) ++ m.closing ++ rest), ?_, List.suffix_append _ _⟩
  simp only [List.append_assoc]

theorem Ends.of_append (h : Ends m dash (rest ++ t) (s ++ t)) : Ends m dash rest s := by
  obtain ⟨r, hr, hends⟩ := h.exists_append
  rwa [List.append_cancel_right hr]

/-- What stands behind the last brace stands behind the closing of every tag. -/
theorem Ends.exists_rest (h : Ends m dash rest (s ++ t)) (ht : '}' ∉ t) :
    ∃ r, rest = r ++ t ∧ Ends m dash r s := by
  have hrest : ∃ r, rest = r ++ t := by
    obtain ⟨u, hu⟩ := h
    rw [← List.append_assoc, List.append_eq_append_iff] at hu
    obtain ⟨r, -, hr⟩ | ⟨r, hs, hr⟩ := hu
    · exact ⟨r, hr⟩
    · by_cases hne : r = []
      · exact ⟨[], by rw [hr, hne]; rfl⟩
      · have hlast := congrArg List.getLast? hs
        rw [Marker.closing_eq, List.getLast?_append_of_ne_nil _ hne, ← List.append_assoc,
          List.getLast?_append_of_ne_nil _ (List.cons_ne_nil _ _)] at hlast
        exact absurd (hr ▸ List.mem_append_left rest (List.mem_of_getLast? hlast.symm)) ht
  obtain ⟨r, rfl⟩ := hrest
  exact ⟨r, rfl, h.of_append⟩

theorem lexemes_skip {depth : Int} {c : Char} (hc : closes? m.closing depth (c :: s) = none)
    (hb : isAsciiBlank c = true) :
    lexemes m.closing depth (c :: s) = lexemes m.closing depth s := by
  rw [lexemes.eq_def, hc]
  simp only [hb, if_true]

theorem lexemes_truncate {depth : Int} {ls : List Lexeme}
    (h : lexemes m.closing depth (s ++ t) = .ok (ls, dash, rest ++ t)) :
    lexemes m.closing depth s = .ok (ls, dash, rest) := by
  have hs := (ends_of_lexemes h).of_append.closes
  induction hn : s.length using Nat.strongRecOn generalizing s depth ls with
  | ind n ih =>
    have hextend := closes?_extend hs depth t
    cases hc : closes? m.closing depth s with
    | some found =>
      rw [hc] at hextend
      rw [lexemes.eq_def, hextend] at h
      obtain ⟨rfl, he⟩ := Prod.mk.inj (Except.ok.inj h)
      obtain ⟨hdash, hrest⟩ := Prod.mk.inj he
      rw [lexemes.eq_def, hc, ← hdash, ← List.append_cancel_right hrest]
    | none =>
      obtain ⟨c, s, rfl⟩ := List.exists_cons_of_ne_nil hs.ne_nil
      rw [hc, List.cons_append] at hextend
      rw [List.cons_append] at h
      cases hb : isAsciiBlank c with
      | true =>
        rw [lexemes_skip hextend hb] at h
        rw [lexemes_skip hc hb]
        exact ih s.length (by rw [← hn]; exact Nat.lt_succ_self _) h
          (ends_of_lexemes h).of_append.closes rfl
      | false =>
        rw [lexemes_open m hextend hb] at h
        obtain ⟨⟨l, rest'⟩, hread, h⟩ := exists_of_bind_eq_ok h
        obtain ⟨⟨ls', dash', rest''⟩, h, he⟩ := exists_of_map_eq_ok h
        cases he
        obtain ⟨r, rfl, hends⟩ := (ends_of_lexemes h).exists_append
        have hread := Lexeme.read_truncate hends.closes hread
        have hlt := (Lexeme.read_suffix hread).length_le
        have hrest := ih _ (by rw [← hn]; exact Nat.lt_succ_of_le hlt) h hends.closes rfl
        rw [lexemes_open m hc hb, hread]
        change behind [l] (lexemes m.closing (depth + l.depth) r) = _
        rw [hrest]
        rfl

theorem cutRaw?_truncate {body : Text} {dash' : Bool}
    (h : cutRaw? (s ++ t) = some (body, dash, dash', rest ++ t)) :
    cutRaw? s = some (body, dash, dash', rest) := by
  induction s generalizing body with
  | nil =>
    obtain ⟨u, hu, he⟩ := ends_of_cutRaw? h
    obtain ⟨r, rfl, -⟩ := he.exists_append
    have hlen := hu.length_le
    rw [List.length_append, List.length_append, List.nil_append, List.length_cons] at hlen
    omega
  | cons c s ih =>
    rw [List.cons_append, cutRaw?] at h
    split at h
    · next d d' r hb =>
      obtain ⟨u, hu, hw⟩ := Option.bind_eq_some_iff.mp hb
      cases h
      obtain ⟨u, rfl, he⟩ := (ends_of_oneWord? hw).exists_append
      have hs : c :: s = ['{', '%'] ++ u := by
        have hu := after?_eq_some_iff.mp hu
        rw [← List.append_assoc, ← List.cons_append] at hu
        exact List.append_cancel_right hu
      rw [oneWord?_extend he.closes (by decide)] at hw
      obtain ⟨⟨e, e', r⟩, hword, hr⟩ := Option.map_eq_some_iff.mp hw
      simp only [Prod.mk.injEq] at hr
      obtain ⟨rfl, rfl, hr⟩ := hr
      rw [cutRaw?, hs, after?_append, Option.bind_some, hword, List.append_cancel_right hr]
    · next hb =>
      simp only [Option.map_eq_some_iff, Prod.mk.injEq, Prod.exists] at h
      obtain ⟨b, d, d', r, h, rfl, rfl, rfl, rfl⟩ := h
      have hnone : (after? ['{', '%'] (c :: s)).bind (oneWord? "endraw".toList) = none := by
        rw [Option.eq_none_iff_forall_ne_some]
        rintro ⟨e, e', r'⟩ hs
        obtain ⟨u, hu, hw⟩ := Option.bind_eq_some_iff.mp hs
        rw [← List.cons_append, after?_extend hu, Option.bind_some,
          oneWord?_extend (ends_of_oneWord? hw).closes (by decide), hw] at hb
        cases hb
      rw [cutRaw?, hnone, ih h]
      rfl

theorem cutAt?_truncate {part before : Text} (h : cutAt? part (s ++ t) = some (before, rest ++ t)) :
    cutAt? part s = some (before, rest) := by
  have hs : s = before ++ part ++ rest := by
    have he := eq_of_cutAt? h
    rw [← List.append_assoc] at he
    exact List.append_cancel_right he
  obtain ⟨⟨before', rest'⟩, hc⟩ := Option.isSome_iff_exists.mp (isSome_cutAt?_iff.mpr
    (hs ▸ (List.suffix_append before part).isInfix.trans (List.prefix_append _ rest).isInfix))
  rw [cutAt?_extend hc t] at h
  obtain ⟨rfl, hr⟩ := Prod.mk.inj (Option.some.inj h)
  rw [hc, List.append_cancel_right hr]

/-- The first tag is read in the same way without what stands behind it. -/
theorem cutTag?_truncate {ps : List Piece} (h : cutTag? m (s ++ t) = .ok (ps, dash, rest ++ t)) :
    cutTag? m s = .ok (ps, dash, rest) := by
  have hs := (ends_of_cutTag? h).of_append.closes
  have hcontrol := control_extend hs.ne_nil t
  have hraw := rawTag?_extend hs t
  unfold cutTag? at h ⊢
  rw [hcontrol] at h
  split at h
  · split at h
    · cases h
    · next hc =>
      cases h
      simp only [cutAt?_truncate hc]
  · simp only [hraw] at h
    cases hw : if m = .statement then oneWord? "raw".toList s else none with
    | some found =>
      obtain ⟨d, d', r⟩ := found
      rw [hw] at h
      simp only [Option.map_some] at h
      split at h
      · cases h
      · next hr =>
        cases h
        simp only [cutRaw?_truncate hr]
    | none =>
      rw [hw] at h
      simp only [Option.map_none] at h
      split at h
      · cases h
      · next hl =>
        cases h
        simp only [lexemes_truncate hl]

theorem cutMarker?_truncate {before : Text} (hr : rest ≠ [])
    (h : cutMarker? (s ++ t) = some (before, m, rest ++ t)) :
    cutMarker? s = some (before, m, rest) := by
  have hpos := List.length_pos_iff.mpr hr
  have hlen := length_cutMarker? h
  rw [List.length_append, List.length_append] at hlen
  induction s using cutMarker?.induct generalizing before with
  | case1 s | case2 s | case3 s =>
    obtain ⟨rfl, hm, he⟩ : [] = before ∧ _ = m ∧ s ++ t = rest ++ t := by
      simpa [cutMarker?] using h
    rw [← hm, ← List.append_cancel_right he]
    rfl
  | case4 c s h₁ h₂ h₃ ih =>
    -- A brace at the end of the text would make a marker with what follows the text.
    obtain ⟨d, s, rfl⟩ : ∃ d u, s = d :: u := List.exists_cons_of_ne_nil (by
      rintro rfl
      rw [List.length_singleton] at hlen
      omega)
    rw [List.cons_append, cutMarker?.eq_4] at h
    · simp only [Option.map_eq_some_iff, Prod.mk.injEq, Prod.exists] at h
      obtain ⟨b, m', r, h, rfl, rfl, rfl⟩ := h
      have hlt := length_cutMarker? h
      rw [List.length_append, List.length_append] at hlt
      rw [cutMarker?.eq_4 _ _ h₁ h₂ h₃, ih h hlt]
      rfl
    · rintro _ rfl ⟨⟩
      exact h₁ _ rfl rfl
    · rintro _ rfl ⟨⟩
      exact h₂ _ rfl rfl
    · rintro _ rfl ⟨⟩
      exact h₃ _ rfl rfl
  | case5 =>
    rw [List.length_nil] at hlen
    omega

/-- Blanks at the end of a script are letters at the end of its atoms, or a dash takes them. -/
theorem exists_readAll_of_append {ps : List Piece} (ht : ∀ c ∈ t, isBlank c = true)
    (h : readAll (s ++ t) = .ok ps) :
    ∃ qs, readAll s = .ok qs ∧ (atoms ps = atoms qs ++ letters t ∨ atoms ps = atoms qs) := by
  -- By induction on the length, since reading goes on with what a tag leaves.
  induction hn : s.length using Nat.strongRecOn generalizing s ps with
  | ind n ih =>
    cases hm : cutMarker? (s ++ t) with
    | none =>
      have hs : cutMarker? s = none := by
        rw [Option.eq_none_iff_forall_ne_some]
        rintro ⟨before, m, rest⟩ hs
        rw [cutMarker?_extend hs t] at hm
        cases hm
      rw [readAll_plain hm] at h
      cases h
      refine ⟨_, readAll_plain hs, .inl ?_⟩
      rw [atoms_addText, atoms_addText, letters_append]
      exact (List.append_nil _).trans (congrArg (· ++ letters t) (List.append_nil _).symm)
    | some found =>
      obtain ⟨before, m, rest⟩ := found
      rw [readAll_marker hm] at h
      obtain ⟨⟨ps', dash, rest'⟩, hc, h⟩ := exists_of_bind_eq_ok h
      obtain ⟨more, hread, rfl⟩ := exists_of_map_eq_ok h
      have htag := ends_of_cutTag? hc
      -- No blank is a brace, so that the blanks at the end stand behind the closing of the tag.
      obtain ⟨r', rfl, -⟩ := (htag.of_suffix (cutMarker?_suffix hm)).exists_rest fun hbrace =>
        absurd (ht _ hbrace) (by decide)
      obtain ⟨r, rfl, hends⟩ := htag.exists_append
      have hs : cutMarker? s = some (before, m, r) := cutMarker?_truncate hends.closes.ne_nil hm
      have hc := cutTag?_truncate hc
      have hlt : (trail dash r').length < n := by
        have := length_cutMarker? hs
        have := length_cutTag? hc
        have := length_trail dash r'
        omega
      have htrail : ∃ qs, readAll (trail dash r') = .ok qs ∧
          (atoms more = atoms qs ++ letters t ∨ atoms more = atoms qs) := by
        cases dash with
        | false => exact ih _ hlt hread rfl
        | true =>
          simp only [trail, if_true, trimStart] at hread hlt ⊢
          -- Where nothing but blanks follows the tag, its dash takes those at the end, too.
          by_cases hblank : r'.dropWhile isBlank = []
          · have hall : t.dropWhile isBlank = [] := List.dropWhile_eq_nil_iff.mpr ht
            rw [List.dropWhile_append, hblank, List.isEmpty_nil, if_pos rfl, hall] at hread
            rw [hblank]
            exact ⟨more, hread, .inr rfl⟩
          · rw [dropWhile_extend hblank] at hread
            exact ih _ hlt hread rfl
      obtain ⟨qs, hq, hatoms⟩ := htrail
      refine ⟨addText (lead (control r).1 before) (ps' ++ qs), ?_, ?_⟩
      · rw [readAll_marker hs, hc, Except.bind]
        change Except.map _ (readAll (trail dash r')) = _
        rw [hq]
        rfl
      · rw [control_extend hends.closes.ne_nil]
        simp only [atoms_addText, atoms_append]
        obtain hatoms | hatoms := hatoms
        · exact .inl (by rw [hatoms]; simp only [List.append_assoc])
        · exact .inr (by rw [hatoms])

end Piece

namespace Stmt

open Piece

variable {limit : Nat} {s t : Text} {ss : List Stmt}

theorem ofPieces_of_atoms {ps qs : List Piece} (h : atoms ps = atoms qs) :
    Agree Same (ofPieces limit ps) (ofPieces limit qs) := by
  have hatoms (ps : List Piece) : Agree Same (ofPieces limit ps)
      ((Builder.addAll limit {} (atoms ps)).bind Builder.finish) :=
    (Builder.addAll_atoms .refl_empty ps).bind fun _ _ hb => hb.finish
  exact (hatoms ps).same (h ▸ hatoms qs)

theorem ofPieces_append_text (ps : List Piece) (t : Text) :
    ofPieces limit (ps ++ [.text t]) = (ofPieces limit ps).map (· ++ [.text t]) := by
  change (Builder.addAll limit {} (ps ++ [.text t])).bind Builder.finish =
    ((Builder.addAll limit {} ps).bind Builder.finish).map _
  rw [Builder.addAll_append]
  cases Builder.addAll limit {} ps with
  | error e => rfl
  | ok b =>
    change (b.push (.text t)).finish = b.finish.map _
    rw [Builder.finish, Builder.finish, Builder.frames_push]
    split
    · exact congrArg Except.ok List.reverse_cons
    · rfl

/-- A script without the blanks at its end is a script. It puts out the same but for the blanks, or
just the same. -/
theorem exists_readAll_of_append (ht : ∀ c ∈ t, isBlank c = true)
    (h : readAll limit true (s ++ t) = .ok ss) :
    ∃ ss', readAll limit true s = .ok ss' ∧ (Same ss (ss' ++ [.text t]) ∨ Same ss ss') := by
  obtain ⟨ps, hps, h⟩ := exists_of_bind_eq_ok h
  obtain ⟨qs, hqs, hatoms⟩ := Piece.exists_readAll_of_append ht hps
  have hread : readAll limit true s = ofPieces limit qs := by
    rw [readAll, if_pos rfl, hqs]
    rfl
  rw [hread]
  obtain hatoms | hatoms := hatoms
  · have htext : atoms (qs ++ [.text t]) = atoms ps := by
      rw [atoms_append, hatoms]
      exact congrArg (atoms qs ++ ·) (List.flatMap_singleton ..)
    have hagree := @ofPieces_of_atoms limit _ _ htext
    rw [show ofPieces limit ps = .ok ss from h, ofPieces_append_text] at hagree
    obtain ⟨ss₁, hs, hsame⟩ := hagree.exists_ok
    obtain ⟨ss', hs', rfl⟩ := exists_of_map_eq_ok hs
    exact ⟨ss', hs', .inl hsame.symm⟩
  · have hagree := @ofPieces_of_atoms limit _ _ hatoms.symm
    rw [show ofPieces limit ps = .ok ss from h] at hagree
    obtain ⟨ss', hs', hsame⟩ := hagree.exists_ok
    exact ⟨ss', hs', .inr hsame.symm⟩

end Stmt

end Script

end Curly

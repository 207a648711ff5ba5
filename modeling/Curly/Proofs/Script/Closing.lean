import Curly.Proofs.Script.Fragment

namespace Curly

namespace Text

variable {a : Char} {p s t w : Text}

theorem after?_extend {lead rest : Text} (h : after? lead s = some rest) (t : Text) :
    after? lead (s ++ t) = some (rest ++ t) := by
  rw [after?_eq_some_iff.mp h, List.append_assoc, after?_append]

theorem after?_of_length_le {lead : Text} (h : lead.length ≤ s.length) (t : Text) :
    after? lead (s ++ t) = (after? lead s).map (· ++ t) := by
  induction lead generalizing s with
  | nil => rfl
  | cons c lead ih =>
    cases s with
    | nil => cases h
    | cons d s =>
      rw [List.cons_append, after?, after?]
      split
      · exact ih (Nat.le_of_succ_le_succ h)
      · rfl

theorem infix_of_infix_append (ha : a ∉ w) (h : a :: p <:+: w ++ s) : a :: p <:+: s := by
  obtain ⟨u, v, huv⟩ := h
  rw [List.append_assoc, List.append_eq_append_iff] at huv
  obtain ⟨r, hw, hr⟩ | ⟨r, -, hr⟩ := huv
  · cases r with
    | nil => exact ⟨[], v, hr⟩
    | cons c r =>
      obtain ⟨rfl, -⟩ := List.cons.inj hr
      exact absurd (hw ▸ List.mem_append_right u (List.mem_cons_self ..)) ha
  · exact ⟨r, v, by rw [hr, List.append_assoc]⟩

theorem infix_dropWhile {q : Char → Bool} (ha : q a = false) (h : a :: p <:+: s) :
    a :: p <:+: s.dropWhile q := by
  refine infix_of_infix_append (w := s.takeWhile q) (fun hm => ?_) ?_
  · have hq := List.all_eq_true.mp List.all_takeWhile a hm
    rw [ha] at hq
    cases hq
  · rwa [List.takeWhile_append_dropWhile]

theorem dropWhile_extend {q : Char → Bool} (h : s.dropWhile q ≠ []) (t : Text) :
    (s ++ t).dropWhile q = s.dropWhile q ++ t := by
  rw [List.dropWhile_append, if_neg (by simpa using h)]

theorem takeWhile_extend {q : Char → Bool} (h : s.dropWhile q ≠ []) (t : Text) :
    (s ++ t).takeWhile q = s.takeWhile q := by
  rw [List.takeWhile_append, if_neg fun hl => h ?_]
  have hs := congrArg List.length (List.takeWhile_append_dropWhile (p := q) (l := s))
  rw [List.length_append, hl] at hs
  exact List.length_eq_zero_iff.mp (by omega)

end Text

namespace Script

open Text

namespace Piece

def Marker.sign : Marker → Char
  | printed => '}'
  | statement => '%'
  | comment => '#'

theorem Marker.closing_eq (m : Marker) : m.closing = [m.sign, '}'] := by cases m <;> rfl

/-- A closing of the kind stands somewhere in the text. -/
def Closes (m : Marker) (s : Text) : Prop := m.closing <:+: s

namespace Closes

variable {m : Marker} {s w : Text}

theorem start (m : Marker) (rest : Text) : Closes m (m.closing ++ rest) :=
  (List.prefix_append m.closing rest).isInfix

theorem length_le (h : Closes m s) : 2 ≤ s.length := by
  have hl := List.IsInfix.length_le h
  rwa [Marker.closing_eq] at hl

theorem ne_nil (h : Closes m s) : s ≠ [] := List.length_pos_iff.mp (by have := h.length_le; omega)

theorem prepend (h : Closes m s) (w : Text) : Closes m (w ++ s) :=
  List.IsInfix.trans h (List.suffix_append w s).isInfix

theorem of_suffix {u : Text} (h : Closes m u) (hu : u <:+ s) : Closes m s := h.trans hu.isInfix

theorem behind (h : Closes m (w ++ s)) (hw : m.sign ∉ w) : Closes m s := by
  rw [Closes, Marker.closing_eq] at h ⊢
  exact infix_of_infix_append hw h

theorem tail {c : Char} (h : Closes m (c :: s)) (hc : c ≠ m.sign) : Closes m s :=
  behind (w := [c]) h (by simpa using Ne.symm hc)

theorem dropWhile {q : Char → Bool} (h : Closes m s) (hq : q m.sign = false) :
    Closes m (s.dropWhile q) := by
  rw [Closes, Marker.closing_eq] at h ⊢
  exact infix_dropWhile hq h

end Closes

variable {m : Marker} {s : Text}

theorem atClosing?_extend (h : Closes m s) (t : Text) :
    atClosing? m.closing (s ++ t) =
      (atClosing? m.closing s).map fun (dash, rest) => (dash, rest ++ t) := by
  have hlen : m.closing.length = 2 := by rw [Marker.closing_eq]; rfl
  unfold atClosing?
  rw [after?_of_length_le (hlen ▸ h.length_le)]
  cases hc : after? m.closing s with
  | some rest => rfl
  | none =>
    -- The closing is not at the start, so it leaves room for a dash before it.
    have hlong : 3 ≤ s.length := by
      obtain ⟨u, v, rfl⟩ := h
      cases u with
      | nil =>
        rw [List.nil_append, after?_append] at hc
        cases hc
      | cons c u =>
        simp only [List.length_append, List.length_cons, hlen]
        omega
    obtain ⟨c, s, rfl⟩ := List.exists_cons_of_ne_nil h.ne_nil
    have htail : after? m.closing (s ++ t) = (after? m.closing s).map (· ++ t) :=
      after?_of_length_le (by rw [hlen]; exact Nat.le_of_succ_le_succ hlong) t
    rw [List.cons_append]
    by_cases hm : c = '-'
    · subst hm
      simp [htail, Function.comp_def]
    · by_cases hp : c = '+'
      · subst hp
        simp [htail, Function.comp_def]
      · simp [hm, hp]

theorem closes?_extend (h : Closes m s) (depth : Int) (t : Text) :
    closes? m.closing depth (s ++ t) =
      (closes? m.closing depth s).map fun (dash, rest) => (dash, rest ++ t) := by
  rw [closes?, closes?]
  split
  · exact atClosing?_extend h t
  · rfl

/-- A closing stands in the text, with that dash before it and that text behind it. -/
def Ends (m : Marker) (dash : Bool) (rest s : Text) : Prop :=
  (if dash then ['-'] else []) ++ m.closing ++ rest <:+ s

namespace Ends

variable {dash : Bool} {rest : Text}

theorem closes (h : Ends m dash rest s) : Closes m s :=
  Closes.of_suffix (((Closes.start m rest).prepend _)) (by rwa [← List.append_assoc])

theorem of_suffix {u : Text} (h : Ends m dash rest u) (hu : u <:+ s) : Ends m dash rest s :=
  h.trans hu

theorem rest_suffix (h : Ends m dash rest s) : rest <:+ s := (List.suffix_append _ _).trans h

end Ends

theorem ends_of_atClosing? {dash : Bool} {rest : Text}
    (h : atClosing? m.closing s = some (dash, rest)) : Ends m dash rest s := by
  unfold atClosing? at h
  split at h
  · next hr =>
    cases h
    rw [after?_eq_some_iff] at hr
    exact hr ▸ List.suffix_refl _
  · split at h
    · obtain ⟨r, hr, he⟩ := Option.map_eq_some_iff.mp h
      cases he
      rw [after?_eq_some_iff] at hr
      exact hr ▸ List.suffix_refl _
    · obtain ⟨r, hr, he⟩ := Option.map_eq_some_iff.mp h
      cases he
      rw [after?_eq_some_iff] at hr
      exact hr ▸ List.suffix_cons ..
    · cases h

theorem ends_of_closes? {depth : Int} {dash : Bool} {rest : Text}
    (h : closes? m.closing depth s = some (dash, rest)) : Ends m dash rest s := by
  unfold closes? at h
  split at h
  · exact ends_of_atClosing? h
  · cases h

end Piece

namespace Lexeme

open Piece

variable {m : Marker} {s rest : Text} {c : Char} {l : Lexeme}

theorem cutString?_extend {quote : Char} (hq : quote ≠ '\\') {body : Text}
    (h : cutString? quote s = some (body, rest)) (t : Text) :
    cutString? quote (s ++ t) = some (body, rest ++ t) := by
  induction s using cutString?.induct quote generalizing body with
  | case1 => simp [cutString?] at h
  | case2 c s ih =>
    simp only [cutString?, Option.map_eq_some_iff, Prod.mk.injEq, Prod.exists] at h
    obtain ⟨u, r, h, rfl, rfl⟩ := h
    simp [cutString?, ih h]
  | case3 s hs =>
    rw [cutString?.eq_3 _ _ _ hs, if_pos rfl] at h
    cases h
    rw [List.cons_append, cutString?.eq_3 _ _ _ (by rintro _ _ rfl; exact absurd rfl hq),
      if_pos rfl]
  | case4 c s hs hc ih =>
    rw [cutString?.eq_3 _ _ _ hs, if_neg hc] at h
    simp only [Option.map_eq_some_iff, Prod.mk.injEq, Prod.exists] at h
    obtain ⟨u, r, h, rfl, rfl⟩ := h
    have hs' : ∀ d r, c = '\\' → s ++ t = d :: r → False := by
      rintro d r rfl he
      cases s with
      | nil => cases h
      | cons d s => exact hs d s rfl rfl
    rw [List.cons_append, cutString?.eq_3 _ _ _ hs', if_neg hc, ih h]
    rfl

theorem isWordStart_sign (m : Marker) : isWordStart m.sign = false := by cases m <;> decide

theorem atAttribute_extend (h : Closes m s) (t : Text) : atAttribute (s ++ t) = atAttribute s := by
  obtain ⟨c, s, rfl⟩ := List.exists_cons_of_ne_nil h.ne_nil
  by_cases hc : isWordStart c = true
  · have hs : Closes m s := h.tail fun he => by
      rw [he, isWordStart_sign] at hc
      cases hc
    match s, hs.length_le with
    | d :: e :: s, _ =>
      by_cases hp : d = '+'
      · subst hp
        rfl
      · by_cases hm : d = '-'
        · subst hm
          rfl
        · simp [atAttribute, atExponent, hp, hm]
  · simp [atAttribute, hc]

theorem cutNumber_suffix (state : NumberState) (s : Text) : (cutNumber state s).2.2 <:+ s := by
  induction s generalizing state with
  | nil => exact List.suffix_refl _
  | cons c s ih =>
    rw [cutNumber]
    generalize (if c = '.' && atAttribute s then none else state.next? c) = next
    cases next with
    | none => exact List.suffix_refl _
    | some state => exact (ih state).trans (List.suffix_cons c s)

theorem cutNumber_extend (state : NumberState) (h : Closes m (cutNumber state s).2.2) (t : Text) :
    cutNumber state (s ++ t) =
      ((cutNumber state s).1, (cutNumber state s).2.1, (cutNumber state s).2.2 ++ t) := by
  induction s generalizing state with
  | nil => exact absurd rfl h.ne_nil
  | cons c s ih =>
    -- The dot of an attribute closes nothing, so that the closing lies behind it.
    have hs : c = '.' → Closes m s := by
      rintro rfl
      have hc := Closes.of_suffix h (cutNumber_suffix state ('.' :: s))
      exact hc.tail fun he => by cases m <;> revert he <;> decide
    have hnext : (if c = '.' && atAttribute (s ++ t) then none else state.next? c) =
        if c = '.' && atAttribute s then none else state.next? c := by
      by_cases hc : c = '.'
      · rw [atAttribute_extend (hs hc)]
      · simp [hc]
    rw [List.cons_append, cutNumber, hnext]
    rw [cutNumber] at h ⊢
    generalize (if c = '.' && atAttribute s then none else state.next? c) = next at h ⊢
    cases next with
    | none => rfl
    | some state =>
      simp only [ih state h]

theorem readRun_extend {state : NumberState} (h : readRun state s = .ok (l, rest))
    (hr : Closes m rest) (t : Text) : readRun state (s ++ t) = .ok (l, rest ++ t) := by
  have hrest := length_readRun h
  rw [hrest] at hr
  unfold readRun at h ⊢
  rw [cutNumber_extend state hr t]
  simp only at h ⊢
  cases hd : ofDigits? (cutNumber state s).2.1 (cutNumber state s).1 with
  | none =>
    rw [hd] at h
    cases h
  | some l' =>
    rw [hd] at h
    cases h
    rfl

theorem readNumber_extend (h : readNumber c s = .ok (l, rest)) (hs : s ≠ []) (hr : Closes m rest)
    (t : Text) : readNumber c (s ++ t) = .ok (l, rest ++ t) := by
  obtain ⟨x, s, rfl⟩ := List.exists_cons_of_ne_nil hs
  by_cases hc : c = '0'
  · subst hc
    simp only [readNumber, List.cons_append] at h ⊢
    cases hb : base? x with
    | some base =>
      rw [hb] at h
      exact readRun_extend h hr t
    | none =>
      rw [hb] at h
      exact readRun_extend h hr t
  · have hzero : ∀ s : Text, readNumber c s = readRun .whole (c :: s) :=
      fun s => readNumber.eq_2 c s (by rintro _ _ rfl; exact absurd rfl hc)
    rw [hzero] at h ⊢
    exact readRun_extend h hr t

theorem cutString?_suffix {quote : Char} {body : Text}
    (h : cutString? quote s = some (body, rest)) : rest <:+ s := by
  induction s using cutString?.induct quote generalizing body with
  | case1 => simp [cutString?] at h
  | case2 c s ih =>
    simp only [cutString?, Option.map_eq_some_iff, Prod.mk.injEq, Prod.exists] at h
    obtain ⟨u, r, h, rfl, rfl⟩ := h
    exact (ih h).trans ((List.suffix_cons c s).trans (List.suffix_cons _ _))
  | case3 s hs =>
    rw [cutString?.eq_3 _ _ _ hs, if_pos rfl] at h
    cases h
    exact List.suffix_cons ..
  | case4 c s hs hc ih =>
    rw [cutString?.eq_3 _ _ _ hs, if_neg hc] at h
    simp only [Option.map_eq_some_iff, Prod.mk.injEq, Prod.exists] at h
    obtain ⟨u, r, h, rfl, rfl⟩ := h
    exact (ih h).trans (List.suffix_cons c s)

theorem readRun_suffix {state : NumberState} (h : readRun state s = .ok (l, rest)) :
    rest <:+ s := by
  rw [length_readRun h]
  exact cutNumber_suffix state s

theorem readNumber_suffix (h : readNumber c s = .ok (l, rest)) : rest <:+ c :: s := by
  unfold readNumber at h
  split at h
  · split at h
    · exact (readRun_suffix h).trans ((List.suffix_cons _ _).trans (List.suffix_cons _ _))
    · exact readRun_suffix h
  · exact readRun_suffix h

theorem readString_suffix {quote : Char} (h : readString quote s = .ok (l, rest)) : rest <:+ s := by
  unfold readString at h
  split at h
  · cases h
  · next hc =>
    split at h
    · cases h
      exact cutString?_suffix hc
    · cases h

theorem readString_extend {quote : Char} (hq : quote ≠ '\\')
    (h : readString quote s = .ok (l, rest)) (t : Text) :
    readString quote (s ++ t) = .ok (l, rest ++ t) := by
  unfold readString at h
  split at h
  · cases h
  · next body r hc =>
    rw [readString, cutString?_extend hq hc t]
    cases hu : unescape? body with
    | none =>
      rw [hu] at h
      cases h
    | some u =>
      rw [hu] at h
      cases h
      simp only [hu]

theorem read_suffix (h : read c s = .ok (l, rest)) : rest <:+ s := by
  have hcons : rest <:+ c :: s := by
    unfold read at h
    split at h
    · cases h
      exact (List.tail_suffix s).trans (List.suffix_cons c s)
    · split at h
      · cases h
        exact List.suffix_cons c s
      · split at h
        · exact (readString_suffix h).trans (List.suffix_cons c s)
        · split at h
          · exact readNumber_suffix h
          · split at h
            · cases h
              exact (List.dropWhile_suffix _).trans (List.suffix_cons c s)
            · cases h
  obtain rfl | hs := List.suffix_cons_iff.mp hcons
  · exact absurd (length_read h) (by simp)
  · exact hs

/-- A lexeme before a closing is read in the same way, whatever follows. -/
theorem read_extend (h : read c s = .ok (l, rest)) (hr : Closes m rest) (t : Text) :
    read c (s ++ t) = .ok (l, rest ++ t) := by
  have hs : Closes m s := hr.of_suffix (read_suffix h)
  have hhead : (s ++ t).head? = s.head? := by
    rw [List.head?_append, Option.or_of_isSome (by simpa using hs.ne_nil)]
  unfold read at h ⊢
  rw [hhead]
  split at h
  · next p _ =>
    cases h
    rw [List.tail_append_of_ne_nil hs.ne_nil]
  · split at h
    · cases h
      rfl
    · split at h
      · next hq =>
        rw [if_pos hq]
        refine readString_extend ?_ h t
        rintro rfl
        exact absurd hq (by decide)
      · next hq =>
        rw [if_neg hq]
        split at h
        · next hd =>
          rw [if_pos hd]
          exact readNumber_extend h hs.ne_nil hr t
        · next hd =>
          rw [if_neg hd]
          split at h
          · next hw =>
            cases h
            rw [if_pos hw, takeWhile_extend hr.ne_nil, dropWhile_extend hr.ne_nil]
          · cases h

end Lexeme

end Script

end Curly

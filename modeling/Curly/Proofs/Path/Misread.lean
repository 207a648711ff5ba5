import Curly.Proofs.Path.Numeral

namespace Curly

namespace Script.Lexeme

def NumberState.IsFractional (state : NumberState) : Prop :=
  state = .fraction ∨ state = .exponent ∨ state = .power

def NumberState.LeadsTo (state state' : NumberState) : Prop :=
  state' = state ∨ state'.IsFractional ∧ ∀ base, state ≠ .radix base

theorem NumberState.LeadsTo.trans {state state' state'' : NumberState}
    (h : state.LeadsTo state') (h' : state'.LeadsTo state'') : state.LeadsTo state'' := by
  obtain rfl | ⟨hf, hr⟩ := h
  · exact h'
  · obtain rfl | ⟨hf', -⟩ := h'
    · exact .inr ⟨hf, hr⟩
    · exact .inr ⟨hf', hr⟩

theorem NumberState.leadsTo_of_next? {state state' : NumberState} {c : Char}
    (h : state.next? c = some state') : state.LeadsTo state' := by
  unfold next? at h
  split at h
  case h_8 =>
    split at h
    · simp only [Option.some.injEq] at h
      by_cases he : state = .exponent
      · rw [if_pos he] at h
        exact .inr ⟨.inr (.inr h.symm), fun base hr => by rw [hr] at he; cases he⟩
      · rw [if_neg he] at h
        exact .inl h.symm
    · split at h
      · exact .inl (Option.some.inj h).symm
      · split at h
        · exact .inl (Option.some.inj h).symm
        · cases h
  all_goals
    cases h
    exact .inr ⟨by simp [IsFractional], by simp⟩

theorem NumberState.LeadsTo.isFractional {state state' : NumberState} (h : state.LeadsTo state')
    (hs : state.IsFractional) : state'.IsFractional := by
  obtain rfl | ⟨hf, -⟩ := h
  · exact hs
  · exact hf

/-- A text without dots is taken in as a whole, or up to a character that belongs to no number. -/
theorem cutNumber_dotless {segment : Text} (hd : '.' ∉ segment) (state : NumberState) :
    ∃ run state' left, segment = run ++ left ∧
      state.LeadsTo state' ∧
        (left = [] ∧ (∀ rest, cutNumber state (segment ++ rest) =
            (run ++ (cutNumber state' rest).1, (cutNumber state' rest).2)) ∨
          (∃ c more, left = c :: more ∧ state'.next? c = none) ∧
            ∀ rest, cutNumber state (segment ++ rest) = (run, state', left ++ rest)) := by
  -- Without a dot the number goes on by single characters, so each of them moves the state.
  induction segment generalizing state with
  | nil => exact ⟨[], state, [], rfl, .inl rfl, .inl ⟨rfl, fun rest => rfl⟩⟩
  | cons c segment ih =>
    rw [List.mem_cons, not_or] at hd
    cases hn : state.next? c with
    | none =>
      have hcut (rest : Text) :
          cutNumber state (c :: segment ++ rest) = ([], state, c :: segment ++ rest) := by
        simp [cutNumber, hn, Ne.symm hd.1]
      exact ⟨[], state, c :: segment, rfl, .inl rfl, .inr ⟨⟨c, segment, rfl, hn⟩, hcut⟩⟩
    | some next =>
      have hcut (rest : Text) : cutNumber state (c :: segment ++ rest) =
          (c :: (cutNumber next (segment ++ rest)).1, (cutNumber next (segment ++ rest)).2) := by
        simp [cutNumber, hn, Ne.symm hd.1]
      obtain ⟨run, state', left, rfl, hstate, hrest⟩ := ih hd.2 next
      refine ⟨c :: run, state', left, rfl, (NumberState.leadsTo_of_next? hn).trans hstate, ?_⟩
      · obtain ⟨rfl, hrest⟩ | ⟨hleft, hrest⟩ := hrest
        · refine .inl ⟨rfl, fun rest => ?_⟩
          rw [hcut]
          simp only [hrest]
          rfl
        · refine .inr ⟨hleft, fun rest => ?_⟩
          rw [hcut]
          simp only [hrest]

theorem cutNumber_boundary (state : NumberState) {rest : Text} (h : Piece.IsBoundary rest) :
    cutNumber state rest = ([], state, rest) := by
  cases rest with
  | nil => rfl
  | cons c rest =>
    have hnext : state.next? c = none := by
      have hc := h c rfl
      simp only [List.mem_cons, List.not_mem_nil, or_false] at hc
      obtain rfl | rfl | rfl | rfl | rfl := hc <;> cases state <;>
        simp [NumberState.next?] <;> exact fun _ => by decide
    rw [cutNumber, hnext, ite_self]

theorem ofDigits?_of_isFractional {state : NumberState} (h : state.IsFractional) {run : Text}
    {l : Lexeme} (hl : ofDigits? state run = some l) : ∃ x, l = .double x := by
  unfold ofDigits? at hl
  split at hl
  · cases hl
  · obtain rfl | rfl | rfl := h <;>
      · obtain ⟨x, -, rfl⟩ := Option.map_eq_some_iff.mp hl
        exact ⟨x, rfl⟩

theorem ofDigits?_eq {state : NumberState} {base : Nat}
    (hs : state = .radix base ∨ state = .whole ∧ base = 10) (run : Text) :
    ofDigits? state run = (Path.digitsValue? base run).map .int := by
  unfold ofDigits? Path.digitsValue?
  split
  · rfl
  · have hfilter (code : Option Nat) :
        (code.bind fun n => if n < 2 ^ 128 then some (int n) else none) =
          (code.filter (· < 2 ^ 128)).map .int := by
      cases code with
      | none => rfl
      | some n =>
        simp only [Option.bind_some, Option.filter, decide_eq_true_eq]
        by_cases hn : n < 2 ^ 128
        · rw [if_pos hn, if_pos hn, Option.map_some]
        · rw [if_neg hn, if_neg hn, Option.map_none]
    obtain rfl | ⟨rfl, rfl⟩ := hs
    · exact hfilter _
    · exact hfilter _

theorem isName_of_next?_eq_none {state : NumberState} {c : Char} {s : Text}
    (hw : (c :: s).all isWordRest = true) (hn : state.next? c = none) : Piece.IsName (c :: s) := by
  refine ⟨?_, hw⟩
  have hc : isWordRest c = true := List.all_eq_true.mp hw c (List.mem_cons_self ..)
  have hd : c.isDigit = false := by
    rw [← Bool.not_eq_true]
    intro hd
    have h := next?_digit hd state
    rw [hn] at h
    cases h
  simpa [isWordRest, isWordStart, Char.isAlphanum, hd] using hc

theorem readRun_misread {state : NumberState} {base : Nat} {segment : Text}
    (hs : state = .radix base ∨ state = .whole ∧ base = 10)
    (hw : segment.all isWordRest = true) (hv : Path.digitsValue? base segment = none) :
    (∀ rest, Piece.IsBoundary rest → ∀ l more,
        readRun state (segment ++ rest) = .ok (l, more) → ∃ x, l = .double x) ∨
      ∃ n w, Piece.IsName w ∧
        ∀ rest, readRun state (segment ++ rest) = .ok (.int n, w ++ rest) := by
  have hdot : '.' ∉ segment := fun hm => by
    have h := List.all_eq_true.mp hw _ hm
    revert h
    decide
  obtain ⟨run, state', left, rfl, hstate, hcut⟩ := cutNumber_dotless hdot state
  have hofDigits {l : Lexeme} (hl : ofDigits? state' run = some l) :
      (∃ x, l = .double x) ∨ state' = state ∧ ∃ n, l = .int n := by
    obtain rfl | ⟨hf, -⟩ := hstate
    · rw [ofDigits?_eq hs] at hl
      obtain ⟨n, -, rfl⟩ := Option.map_eq_some_iff.mp hl
      exact .inr ⟨rfl, n, rfl⟩
    · exact .inl (ofDigits?_of_isFractional hf hl)
  -- The number takes in the whole segment, or it leaves a name over.
  obtain ⟨rfl, hcut⟩ | ⟨⟨c, more, rfl, hnext⟩, hcut⟩ := hcut
  · refine .inl fun rest hb l more hread => ?_
    rw [readRun, hcut, cutNumber_boundary state' hb] at hread
    simp only [List.append_nil] at hread hv
    cases hl : ofDigits? state' run with
    | none =>
      rw [hl] at hread
      cases hread
    | some l' =>
      rw [hl] at hread
      cases hread
      obtain hx | ⟨rfl, n, -⟩ := hofDigits hl
      · exact hx
      · rw [ofDigits?_eq hs, hv] at hl
        cases hl
  · have hname : Piece.IsName (c :: more) := by
      rw [List.all_append, Bool.and_eq_true] at hw
      exact isName_of_next?_eq_none hw.2 hnext
    cases hl : ofDigits? state' run with
    | none =>
      have hread (rest : Text) :
          readRun state (run ++ c :: more ++ rest) = .error .badNumber := by
        simp only [readRun, hcut, hl]
      refine .inl fun rest hb l more hok => ?_
      rw [hread] at hok
      cases hok
    | some l =>
      have hread (rest : Text) :
          readRun state (run ++ c :: more ++ rest) = .ok (l, c :: more ++ rest) := by
        simp only [readRun, hcut, hl]
      obtain hx | ⟨-, n, rfl⟩ := hofDigits hl
      · refine .inl fun rest hb l' more hok => ?_
        rw [hread] at hok
        cases hok
        exact hx
      · exact .inr ⟨n, _, hname, hread⟩

theorem cutNumber_leadsTo (state : NumberState) (s : Text) :
    state.LeadsTo (cutNumber state s).2.1 := by
  induction s generalizing state with
  | nil => exact .inl rfl
  | cons c s ih =>
    rw [cutNumber]
    generalize hn : (if c = '.' && atAttribute s then none else state.next? c) = next
    cases next with
    | none => exact .inl rfl
    | some next =>
      have hnext : state.next? c = some next := by
        split at hn
        · cases hn
        · exact hn
      exact (NumberState.leadsTo_of_next? hnext).trans (ih next)

theorem not_atAttribute {segment : Text} (hne : segment ≠ [])
    (he : Path.endsNumber segment = false) (rest : Text) :
    atAttribute (segment ++ rest) = false := by
  have hdigit {c : Char} (hc : c.isDigit = true) : isWordStart c = false := by
    rw [← Bool.not_eq_true]
    intro h
    rw [Piece.isDigit_of_isWordStart h] at hc
    cases hc
  match segment, hne, he with
  | [c], _, he =>
    have hc : c.isDigit = true := by simpa [Path.endsNumber] using he
    simp [atAttribute, hdigit hc]
  | c :: d :: segment, _, he =>
    simp only [Path.endsNumber, Bool.and_eq_false_iff, Bool.not_eq_false'] at he
    obtain hc | he := he
    · simp [atAttribute, hdigit hc]
    · have hd : d.isDigit = true := (Bool.and_eq_true _ _ ▸ he).2
      have hexp : atExponent (c :: d :: (segment ++ rest)) = true := by
        rw [atExponent.eq_3 _ _ _ (by rintro _ _ rfl; simp at hd)
          (by rintro _ _ rfl; simp at hd)]
        exact he
      simp [atAttribute, hexp]

theorem readRun_fraction {n : Nat} {segment next : Text} (hw : segment.all isWordRest = true)
    (hv : Path.digitsValue? 10 segment = some n) (hne : next ≠ [])
    (he : Path.endsNumber next = false) {rest more : Text} {l : Lexeme}
    (h : readRun .whole (segment ++ '.' :: (next ++ rest)) = .ok (l, more)) :
    ∃ x, l = .double x := by
  have hcut : cutNumber .whole ('.' :: (next ++ rest)) =
      ('.' :: (cutNumber .fraction (next ++ rest)).1, (cutNumber .fraction (next ++ rest)).2) := by
    rw [cutNumber, not_atAttribute hne he]
    rfl
  have hf : (cutNumber .fraction (next ++ rest)).2.1.IsFractional :=
    (cutNumber_leadsTo .fraction _).isFractional (.inl rfl)
  rw [readRun, cutNumber_append (next?_whole_of_digitsValue? hw hv), hcut] at h
  simp only at h
  split at h
  · next hl =>
    cases h
    exact ofDigits?_of_isFractional hf hl
  · cases h

end Script.Lexeme

namespace Path

open Script Lexeme

/-- A text that a script reads behind a dot as something else than a segment: as a fraction, if it
reads it at all, or as a whole number with a name left over. -/
inductive Misread (c : Char) (s : Text) : Prop
  | fraction :
      (∀ rest, Piece.IsBoundary rest → ∀ l more,
        read c (s ++ rest) = .ok (l, more) → ∃ x, l = .double x) → Misread c s
  | leftover (n : Nat) (w : Text) : Piece.IsName w →
      (∀ rest, Piece.EndsWord rest → read c (s ++ rest) = .ok (.int n, w ++ rest)) → Misread c s

theorem misread_of_numeral?_eq_none {c : Char} {s : Text} (hw : isWord (c :: s) = true)
    (hd : c.isDigit = true) (hn : numeral? (c :: s) = none) : Misread c s := by
  unfold numeral? at hn
  cases hradix : radix? (c :: s) with
  | some r =>
    obtain ⟨base, digits⟩ := r
    rw [hradix] at hn
    have hread (rest : Text) : read c (s ++ rest) = readRun (.radix base) (digits ++ rest) := by
      rw [read_digit hd, (readNumber_radix hradix rest).2]
    obtain hx | ⟨n, w, hname, hok⟩ := readRun_misread (.inl rfl) (all_of_radix? hradix hw) hn
    · refine .fraction fun rest hb l more h => hx rest hb l more ?_
      rw [← hread, h]
    · refine .leftover n w hname fun rest _ => ?_
      rw [hread, hok]
  | none =>
    rw [hradix] at hn
    have hread {rest : Text} (he : Piece.EndsWord rest) :
        read c (s ++ rest) = readRun .whole (c :: s ++ rest) := by
      rw [read_digit hd, readNumber_whole hradix fun _ => base?_endsWord he]
    obtain hx | ⟨n, w, hname, hok⟩ := readRun_misread (.inr ⟨rfl, rfl⟩) hw hn
    · refine .fraction fun rest hb l more h => hx rest hb l more ?_
      rw [← hread hb.endsWord, h]
    · refine .leftover n w hname fun rest he => ?_
      rw [hread he, hok]

theorem misread_of_endsNumber_eq_false {c : Char} {s next : Text} {n : Nat}
    (hw : isWord (c :: s) = true) (hd : c.isDigit = true) (hn : numeral? (c :: s) = some n)
    (hr : radix? (c :: s) = none) (hne : next ≠ []) (he : endsNumber next = false) :
    Misread c (s ++ '.' :: next) := by
  unfold numeral? at hn
  rw [hr] at hn
  refine .fraction fun rest hb l more h => ?_
  rw [read_digit hd, List.append_assoc, readNumber_whole hr fun _ => by rfl] at h
  exact readRun_fraction hw hn hne he h

theorem endsNumber_of_isDigit {segment : Text} {c : Char} (h : segment.head? = some c)
    (hc : c.isDigit = true) : endsNumber segment = false := by
  match segment, h with
  | [d], h =>
    cases h
    simp [endsNumber, hc]
  | d :: e :: segment, h =>
    cases h
    simp [endsNumber, hc]

theorem isReadable_cons {segment : Text} {before rest : List Text}
    (h : (!startsWithDigit segment || ((numeral? segment).isSome &&
      ((radix? segment).isSome || rest.head?.all endsNumber))) = true) (hb : before <+: rest)
    (hr : isReadable before = true) : isReadable (segment :: before) = true := by
  rw [isReadable, hr, Bool.and_true]
  cases before with
  | nil =>
    simp only [Bool.or_eq_true, Bool.and_eq_true] at h
    simpa using h.imp_right And.left
  | cons next before =>
    obtain ⟨more, rfl⟩ := hb
    exact h

theorem exists_head_of_dotted {segments : List Text} (hw : ∀ w ∈ segments, w ≠ []) {c : Char}
    {s : Text} (h : dotted segments = '.' :: c :: s) :
    ∃ x xs, segments = x :: xs ∧ x.head? = some c := by
  cases segments with
  | nil => cases h
  | cons x xs =>
    obtain ⟨d, x, rfl⟩ := List.exists_cons_of_ne_nil (hw x (List.mem_cons_self ..))
    have htext : dotted ((d :: x) :: xs) = '.' :: d :: (x ++ dotted xs) := by simp [dotted]
    rw [htext] at h
    cases h
    exact ⟨c :: x, xs, rfl, rfl⟩

/-- A path that is not readable has segments that are misread, one or two that make up a number,
behind segments that are read. -/
theorem exists_misread {segments : List Text} (hw : ∀ w ∈ segments, w ≠ [] ∧ isWord w = true)
    (h : isReadable segments = false) :
    ∃ before bad after c s, segments = before ++ bad ++ after ∧ dotted bad = '.' :: c :: s ∧
      c.isDigit = true ∧ Misread c s ∧ isReadable (before ++ bad.dropLast) = true ∧
        endsInDecimal before = false := by
  induction segments with
  | nil => cases h
  | cons segment segments ih =>
    obtain ⟨hne, hword⟩ := hw segment (List.mem_cons_self ..)
    -- A segment that passes its check is read, so the misread one is behind it.
    by_cases hcheck : (!startsWithDigit segment || ((numeral? segment).isSome &&
        ((radix? segment).isSome || segments.head?.all endsNumber))) = true
    · have hrest : isReadable segments = false := by
        rwa [isReadable, hcheck, Bool.true_and] at h
      obtain ⟨before, bad, after, c, s, rfl, hbad, hc, hm, hr, hd⟩ :=
        ih (fun w hm => hw w (List.mem_cons_of_mem _ hm)) hrest
      refine ⟨segment :: before, bad, after, c, s, rfl, hbad, hc, hm, ?_, ?_⟩
      · refine isReadable_cons hcheck ?_ hr
        rw [List.append_assoc]
        exact (List.prefix_append_right_inj before).mpr
          ((List.dropLast_prefix bad).trans (List.prefix_append bad after))
      · cases before with
        | cons next before => exact hd
        | nil =>
          obtain ⟨x, xs, rfl, hx⟩ :=
            exists_head_of_dotted (fun w hm => (hw w (by simp [hm])).1) hbad
          have hends : endsNumber x = false := endsNumber_of_isDigit hx hc
          rw [endsInDecimal]
          simp only [List.nil_append, List.cons_append, List.head?_cons, Option.all_some, hends,
            Bool.or_false, Bool.or_eq_true, Bool.and_eq_true, Bool.not_eq_true'] at hcheck
          obtain hcheck | ⟨-, hradix⟩ := hcheck
          · rw [hcheck, Bool.false_and]
          · rw [Option.isNone_eq_false_iff.mpr hradix, Bool.and_false]
    · simp only [Bool.or_eq_true, Bool.and_eq_true, not_or, not_and, Bool.not_eq_true',
        Bool.not_eq_false] at hcheck
      obtain ⟨hdigit, hcheck⟩ := hcheck
      cases segment with
      | nil => exact absurd rfl hne
      | cons c s =>
        cases hn : numeral? (c :: s) with
        | none =>
          exact ⟨[], [c :: s], segments, c, s, rfl, by simp [dotted], hdigit,
            misread_of_numeral?_eq_none hword hdigit hn, rfl, rfl⟩
        | some n =>
          obtain ⟨hradix, hnext⟩ := hcheck (by rw [hn]; rfl)
          cases segments with
          | nil => exact absurd rfl hnext
          | cons next rest =>
            have hends : endsNumber next = false := by simpa using hnext
            have hread : isReadable [c :: s] = true := by simp [isReadable, hn]
            exact ⟨[], [c :: s, next], rest, c, s ++ '.' :: next, rfl, by simp [dotted], hdigit,
              misread_of_endsNumber_eq_false hword hdigit hn (by simpa using hradix)
                (hw next (by simp)).1 hends, hread, rfl⟩

end Path

end Curly

import Curly.Proofs.Script.Spelling

namespace Curly

namespace Path

open Script

/-- The base that a number is written in behind a zero and a letter, and its digits. -/
def radix? : Text → Option (Nat × Text)
  | '0' :: x :: digits => (Lexeme.base? x).map (·, digits)
  | _ => none

/-- The number below 2 ^ 128 that digits of a base stand for. Underscores may stand among them, but
not at the end. -/
def digitsValue? (base : Nat) (digits : Text) : Option Nat :=
  if digits.getLast? = some '_' then none
  else (Lexeme.codeOf? base (digits.filter (· ≠ '_'))).filter (· < 2 ^ 128)

def numeral? (segment : Text) : Option Nat :=
  match radix? segment with
  | some (base, digits) => digitsValue? base digits
  | none => digitsValue? 10 segment

/-- Whether a segment behind a decimal number is not taken for the rest of that number. -/
def endsNumber : Text → Bool
  | c :: d :: _ => !c.isDigit && !((c = 'e' || c = 'E') && d.isDigit)
  | c :: [] => !c.isDigit
  | [] => false

/-- Whether a script reads the segments behind the root of a path as attributes and items. -/
def isReadable : List Text → Bool
  | [] => true
  | segment :: rest =>
    (!startsWithDigit segment ||
      ((numeral? segment).isSome &&
        ((radix? segment).isSome || rest.head?.all endsNumber))) && isReadable rest

/-- Whether a path ends with a decimal number, which a dot behind it may belong to. -/
def endsInDecimal : List Text → Bool
  | [] => false
  | [segment] => startsWithDigit segment && (radix? segment).isNone
  | _ :: rest => endsInDecimal rest

def segmentLexeme (segment : Text) : Lexeme :=
  match startsWithDigit segment, numeral? segment with
  | true, some n => .int n
  | _, _ => .word segment

def dotted (segments : List Text) : Text := segments.flatMap ('.' :: ·)

def dottedLexemes (segments : List Text) : List Lexeme :=
  segments.flatMap fun segment => [.sign .dot, segmentLexeme segment]

end Path

namespace Script.Lexeme

theorem hexDigit?_lt_ten {c : Char} {d : Nat} (h : Data.hexDigit? c = some d) (hd : d < 10) :
    c.isDigit = true := by
  unfold Data.hexDigit? at h
  split at h
  · assumption
  · split at h
    · simp only [Option.some.injEq] at h
      omega
    · split at h
      · simp only [Option.some.injEq] at h
        omega
      · cases h

theorem digit_of_codeOf? {base n : Nat} {digits : Text} (h : codeOf? base digits = some n)
    {c : Char} (hc : c ∈ digits) (hp : c ≠ '+') : ∃ d, Data.hexDigit? c = some d ∧ d < base := by
  have hfold (ds : Text) (m : Nat) (h : (ds.foldlM (fun n c => do
      let d ← Data.hexDigit? c
      if d < base then some (n * base + d) else none) m : Option Nat) = some n) :
      ∀ c ∈ ds, ∃ d, Data.hexDigit? c = some d ∧ d < base := by
    induction ds generalizing m with
    | nil => simp
    | cons x ds ih =>
      simp only [List.foldlM_cons, Option.bind_eq_bind, Option.bind_eq_some_iff] at h
      obtain ⟨m', ⟨d, hd, hm⟩, h⟩ := h
      split at hm
      · next hlt =>
        intro c hc
        obtain rfl | hc := List.mem_cons.mp hc
        · exact ⟨d, hd, hlt⟩
        · exact ih m' h c hc
      · cases hm
  unfold codeOf? at h
  simp only at h
  split at h
  · cases h
  · refine hfold _ 0 h c ?_
    cases ha : Text.after? ['+'] digits with
    | none => exact hc
    | some rest =>
      rw [Text.after?_eq_some_iff.mp ha] at hc
      exact (List.mem_cons.mp hc).resolve_left hp

theorem cutNumber_append {state : NumberState} {run : Text}
    (hrun : ∀ c ∈ run, c ≠ '.' ∧ state.next? c = some state) (rest : Text) :
    cutNumber state (run ++ rest) =
      (run ++ (cutNumber state rest).1, (cutNumber state rest).2) := by
  induction run with
  | nil => rfl
  | cons c run ih =>
    obtain ⟨hdot, hnext⟩ := hrun c (List.mem_cons_self ..)
    have ih := ih fun d hd => hrun d (List.mem_cons_of_mem _ hd)
    rw [List.cons_append, cutNumber]
    simp [hdot, hnext, ih]

theorem cutNumber_run {state : NumberState} {run rest : Text}
    (hrun : ∀ c ∈ run, c ≠ '.' ∧ state.next? c = some state)
    (hrest : cutNumber state rest = ([], state, rest)) :
    cutNumber state (run ++ rest) = (run, state, rest) := by
  rw [cutNumber_append hrun, hrest, List.append_nil]

theorem next?_whole {c : Char} (h : c.isDigit = true ∨ c = '_') :
    c ≠ '.' ∧ NumberState.whole.next? c = some .whole := by
  obtain h | rfl := h
  · refine ⟨by rintro rfl; simp at h, ?_⟩
    unfold NumberState.next?
    split <;> simp_all
  · decide

theorem next?_radix {base : Nat} {c : Char}
    (h : c.isDigit = true ∨ c = '_' ∨ (base = 16 ∧ (Data.hexDigit? c).isSome)) :
    c ≠ '.' ∧ (NumberState.radix base).next? c = some (.radix base) := by
  obtain h | rfl | ⟨rfl, h⟩ := h
  · exact ⟨by rintro rfl; simp at h, by simp [NumberState.next?, h]⟩
  · exact ⟨by decide, by simp [NumberState.next?]⟩
  · refine ⟨by rintro rfl; revert h; decide, ?_⟩
    by_cases hd : c.isDigit = true
    · simp [NumberState.next?, hd]
    · by_cases hu : c = '_'
      · simp [NumberState.next?, hu]
      · simp [NumberState.next?, hd, hu, h]

theorem cutNumber_radix_rest (base : Nat) {rest : Text} (h : Piece.EndsWord rest) :
    cutNumber (.radix base) rest = ([], .radix base, rest) := by
  cases rest with
  | nil => rfl
  | cons c rest =>
    have hnext : (NumberState.radix base).next? c = none := by
      have hc := h c rfl
      simp only [List.mem_cons, List.not_mem_nil, or_false] at hc
      obtain rfl | rfl | rfl | rfl | rfl | rfl := hc <;> simp only [NumberState.next?] <;>
        simp <;> exact fun _ => by decide
    rw [cutNumber, hnext, ite_self]

theorem cutNumber_whole_rest {rest : Text}
    (h : Piece.IsBoundary rest ∨ ∃ s, rest = '.' :: s ∧ atAttribute s = true) :
    cutNumber .whole rest = ([], .whole, rest) := by
  obtain h | ⟨s, rfl, hs⟩ := h
  · cases rest with
    | nil => rfl
    | cons c rest =>
      have hnext : NumberState.whole.next? c = none := by
        have hc := h c rfl
        simp only [List.mem_cons, List.not_mem_nil, or_false] at hc
        obtain rfl | rfl | rfl | rfl | rfl := hc <;> decide
      rw [cutNumber, hnext, ite_self]
  · simp [cutNumber, hs]

theorem readRun_of_digitsValue? {state : NumberState} {base n : Nat} {run rest : Text}
    (hs : state = .radix base ∨ (state = .whole ∧ base = 10))
    (hv : Path.digitsValue? base run = some n)
    (hc : cutNumber state (run ++ rest) = (run, state, rest)) :
    readRun state (run ++ rest) = .ok (.int n, rest) := by
  unfold Path.digitsValue? at hv
  split at hv
  · cases hv
  · next hlast =>
    rw [Option.filter_eq_some_iff, decide_eq_true_eq] at hv
    obtain ⟨hcode, hlt⟩ := hv
    have hd : ofDigits? state run = some (.int n) := by
      obtain rfl | ⟨rfl, rfl⟩ := hs <;>
        simp only [ofDigits?, if_neg hlast, hcode, Option.bind_some, if_pos hlt]
    rw [readRun, hc]
    simp only [hd]

theorem base?_eq {c : Char} {base : Nat} (h : base? c = some base) :
    base = 2 ∨ base = 8 ∨ base = 16 := by
  unfold base? at h
  split at h <;> simp_all

theorem mem_of_digitsValue? {base n : Nat} {run : Text} (h : Path.digitsValue? base run = some n)
    {c : Char} (hc : c ∈ run) (hw : Lexeme.isWordRest c = true) :
    c = '_' ∨ ∃ d, Data.hexDigit? c = some d ∧ d < base := by
  unfold Path.digitsValue? at h
  split at h
  · cases h
  · rw [Option.filter_eq_some_iff] at h
    by_cases hu : c = '_'
    · exact .inl hu
    · refine .inr (digit_of_codeOf? h.1 (List.mem_filter.mpr ⟨hc, by simpa using hu⟩) ?_)
      exact Piece.ne_of_isWordRest hw (by decide)

theorem readRun_radix {base n : Nat} {run rest : Text} (hb : base = 2 ∨ base = 8 ∨ base = 16)
    (hw : run.all isWordRest = true) (hv : Path.digitsValue? base run = some n)
    (hr : Piece.EndsWord rest) : readRun (.radix base) (run ++ rest) = .ok (.int n, rest) := by
  refine readRun_of_digitsValue? (.inl rfl) hv (cutNumber_run (fun c hc => ?_)
    (cutNumber_radix_rest base hr))
  apply next?_radix
  obtain hu | ⟨d, hd, hlt⟩ := mem_of_digitsValue? hv hc (List.all_eq_true.mp hw c hc)
  · exact .inr (.inl hu)
  · obtain rfl | rfl | rfl := hb
    · exact .inl (hexDigit?_lt_ten hd (by omega))
    · exact .inl (hexDigit?_lt_ten hd (by omega))
    · exact .inr (.inr ⟨rfl, by rw [hd]; rfl⟩)

theorem next?_whole_of_digitsValue? {n : Nat} {run : Text} (hw : run.all isWordRest = true)
    (hv : Path.digitsValue? 10 run = some n) :
    ∀ c ∈ run, c ≠ '.' ∧ NumberState.whole.next? c = some .whole := by
  intro c hc
  apply next?_whole
  obtain hu | ⟨d, hd, hlt⟩ := mem_of_digitsValue? hv hc (List.all_eq_true.mp hw c hc)
  · exact .inr hu
  · exact .inl (hexDigit?_lt_ten hd hlt)

theorem readRun_whole {n : Nat} {run rest : Text} (hw : run.all isWordRest = true)
    (hv : Path.digitsValue? 10 run = some n)
    (hr : Piece.IsBoundary rest ∨ ∃ s, rest = '.' :: s ∧ atAttribute s = true) :
    readRun .whole (run ++ rest) = .ok (.int n, rest) := by
  exact readRun_of_digitsValue? (.inr ⟨rfl, rfl⟩) hv
    (cutNumber_run (next?_whole_of_digitsValue? hw hv) (cutNumber_whole_rest hr))

theorem base?_endsWord {rest : Text} (hr : Piece.EndsWord rest) : rest.head?.bind base? = none := by
  cases rest with
  | nil => rfl
  | cons c rest =>
    have hc := hr c rfl
    simp only [List.mem_cons, List.not_mem_nil, or_false] at hc
    obtain rfl | rfl | rfl | rfl | rfl | rfl := hc <;> rfl

theorem readNumber_radix {c : Char} {segment digits : Text} {base : Nat}
    (hs : Path.radix? (c :: segment) = some (base, digits)) (rest : Text) :
    base? (segment.headD ' ') = some base ∧
      readNumber c (segment ++ rest) = readRun (.radix base) (digits ++ rest) := by
  unfold Path.radix? at hs
  split at hs
  · next x ds heq =>
    obtain ⟨rfl, rfl⟩ := List.cons.inj heq
    rw [Option.map_eq_some_iff] at hs
    obtain ⟨b, hb, he⟩ := hs
    cases he
    exact ⟨hb, by simp [readNumber, hb]⟩
  · cases hs

theorem all_of_radix? {segment digits : Text} {base : Nat}
    (hs : Path.radix? segment = some (base, digits)) (hw : segment.all isWordRest = true) :
    digits.all isWordRest = true := by
  unfold Path.radix? at hs
  split at hs
  · rw [Option.map_eq_some_iff] at hs
    obtain ⟨b, -, he⟩ := hs
    cases he
    simp only [List.all_cons, Bool.and_eq_true] at hw
    exact hw.2.2
  · cases hs

theorem readNumber_whole {c : Char} {segment rest : Text}
    (hs : Path.radix? (c :: segment) = none)
    (hr : segment = [] → rest.head?.bind base? = none) :
    readNumber c (segment ++ rest) = readRun .whole (c :: segment ++ rest) := by
  cases segment with
  | nil =>
    have hb := hr rfl
    cases rest with
    | nil => unfold readNumber; split <;> simp_all
    | cons x rest =>
      unfold readNumber
      split
      · next heq =>
        simp only [List.nil_append, List.cons.injEq] at heq
        obtain ⟨rfl, rfl⟩ := heq
        rw [List.head?_cons, Option.bind_some] at hb
        rw [hb]
        rfl
      · rfl
  | cons x segment =>
    unfold readNumber
    split
    · next heq =>
      obtain ⟨rfl, rfl⟩ := List.cons.inj heq
      have hn : base? x = none := by simpa [Path.radix?] using hs
      rw [hn]
      rfl
    · rfl

theorem read_digit {c : Char} (hc : c.isDigit = true) (s : Text) : read c s = readNumber c s := by
  have hw : isWordRest c = true := by simp [isWordRest, Char.isAlphanum, hc]
  have hquote : (c = '"' || c = '\'') = false := by
    simp [Piece.ne_of_isWordRest hw (d := '"') (by decide),
      Piece.ne_of_isWordRest hw (d := '\'') (by decide)]
  rw [read, Piece.head?_bind_pair?_of_isWordRest _ hw, Piece.single?_of_isWordRest hw]
  simp only [hquote, hc, Bool.false_eq_true, if_false, if_true]

theorem atAttribute_of_endsNumber {segment rest : Text} (hw : segment.all isWordRest = true)
    (he : Path.endsNumber segment = true) (hr : Piece.EndsWord rest) :
    atAttribute (segment ++ rest) = true := by
  have hstart {c : Char} (h : isWordRest c = true) (hd : c.isDigit = false) :
      isWordStart c = true := by
    simpa [isWordRest, isWordStart, Char.isAlphanum, hd] using h
  obtain _ | ⟨c, _ | ⟨d, segment⟩⟩ := segment
  · cases he
  · have hc : isWordRest c = true := by simpa using hw
    have hd : c.isDigit = false := by simpa [Path.endsNumber] using he
    have hexp : atExponent (c :: rest) = false := by
      cases rest with
      | nil => simp [atExponent]
      | cons x rest =>
        have hx := hr x rfl
        simp only [List.mem_cons, List.not_mem_nil, or_false] at hx
        obtain rfl | rfl | rfl | rfl | rfl | rfl := hx <;> simp [atExponent]
    simp [atAttribute, hstart hc hd, hexp]
  · simp only [List.all_cons, Bool.and_eq_true] at hw
    obtain ⟨hc, hd, -⟩ := hw
    simp only [Path.endsNumber, Bool.and_eq_true, Bool.not_eq_true'] at he
    have hplus := Piece.ne_of_isWordRest hd (d := '+') (by decide)
    have hminus := Piece.ne_of_isWordRest hd (d := '-') (by decide)
    have hexp : atExponent (c :: d :: (segment ++ rest)) = false := by
      rw [atExponent.eq_3 _ _ _ (by rintro _ _ h _; exact hplus h)
        (by rintro _ _ h _; exact hminus h)]
      exact he.2
    simp [atAttribute, hstart hc he.1, hexp]

theorem read_numeral {c : Char} {segment rest : Text} {n : Nat}
    (hw : (c :: segment).all isWordRest = true) (hd : c.isDigit = true)
    (hn : Path.numeral? (c :: segment) = some n)
    (hr : Piece.IsBoundary rest ∨ Piece.EndsWord rest ∧
      ((Path.radix? (c :: segment)).isSome ∨ ∃ s, rest = '.' :: s ∧ atAttribute s = true)) :
    read c (segment ++ rest) = .ok (.int n, rest) := by
  have hend : Piece.EndsWord rest := hr.elim Piece.IsBoundary.endsWord And.left
  rw [read_digit hd]
  unfold Path.numeral? at hn
  cases hradix : Path.radix? (c :: segment) with
  | some r =>
    obtain ⟨base, digits⟩ := r
    obtain ⟨hbase, hread⟩ := readNumber_radix hradix rest
    rw [hradix] at hn
    rw [hread]
    exact readRun_radix (base?_eq hbase) (all_of_radix? hradix hw) hn hend
  | none =>
    rw [hradix] at hn
    rw [readNumber_whole hradix fun _ => base?_endsWord hend]
    refine readRun_whole hw hn ?_
    obtain hr | ⟨-, hr | hr⟩ := hr
    · exact .inl hr
    · simp [hradix] at hr
    · exact .inr hr

end Script.Lexeme

namespace Path

open Script Piece

theorem isName_of_isWord {w : Text} (hne : w ≠ []) (hw : isWord w = true)
    (hd : startsWithDigit w = false) : IsName w := by
  cases w with
  | nil => exact absurd rfl hne
  | cons c w =>
    refine ⟨?_, hw⟩
    have hc : Lexeme.isWordRest c = true := by
      have hall : (c :: w).all Lexeme.isWordRest = true := hw
      simp only [List.all_cons, Bool.and_eq_true] at hall
      exact hall.1
    have hd : c.isDigit = false := hd
    simpa [Lexeme.isWordRest, Lexeme.isWordStart, Char.isAlphanum, hd] using hc

theorem endsWord_dotted (segments : List Text) {rest : Text} (h : EndsWord rest) :
    EndsWord (dotted segments ++ rest) := by
  cases segments with
  | nil => exact h
  | cons segment segments => exact endsWord_dot _

/-- A segment that may stand before others is one lexeme. -/
theorem lexemes_segment {segment : Text} {segments : List Text}
    (hw : ∀ w ∈ segment :: segments, w ≠ [] ∧ isWord w = true)
    (hs : isReadable (segment :: segments) = true) {rest : Text}
    (hr : IsBoundary rest ∨ EndsWord rest ∧ endsInDecimal (segment :: segments) = false)
    (m : Marker) (depth : Int) :
    lexemes m.closing depth (segment ++ (dotted segments ++ rest)) =
      behind [segmentLexeme segment] (lexemes m.closing depth (dotted segments ++ rest)) := by
  obtain ⟨hne, hword⟩ := hw segment (List.mem_cons_self ..)
  have hends : EndsWord rest := hr.elim IsBoundary.endsWord And.left
  have hend := endsWord_dotted segments hends
  cases hd : startsWithDigit segment with
  | false =>
    rw [read_name (isName_of_isWord hne hword hd) hend]
    simp [segmentLexeme, hd]
  | true =>
    rw [isReadable, Bool.and_eq_true] at hs
    simp only [hd, Bool.not_true, Bool.false_or, Bool.and_eq_true, Bool.or_eq_true] at hs
    obtain ⟨⟨hn, hnext⟩, -⟩ := hs
    obtain ⟨n, hn⟩ := Option.isSome_iff_exists.mp hn
    cases segment with
    | nil => exact absurd rfl hne
    | cons c segment =>
      have hall : (c :: segment).all Lexeme.isWordRest = true := hword
      have hc : Lexeme.isWordRest c = true := by
        simp only [List.all_cons, Bool.and_eq_true] at hall
        exact hall.1
      -- A decimal number must not be continued as a fraction.
      have hrest : IsBoundary (dotted segments ++ rest) ∨ EndsWord (dotted segments ++ rest) ∧
          ((radix? (c :: segment)).isSome ∨
            ∃ s, dotted segments ++ rest = '.' :: s ∧ Lexeme.atAttribute s = true) := by
        cases segments with
        | nil =>
          refine hr.imp_right fun hr => ⟨hr.1, .inl ?_⟩
          simpa [endsInDecimal, hd] using hr.2
        | cons next segments =>
          refine .inr ⟨hend, hnext.imp_right fun hnext => ?_⟩
          have hnext : endsNumber next = true := by simpa using hnext
          exact ⟨next ++ (dotted segments ++ rest), by simp [dotted],
            Lexeme.atAttribute_of_endsNumber (hw next (by simp)).2 hnext
              (endsWord_dotted segments hends)⟩
      rw [List.cons_append, lexemes_read m depth (isInner_of_isWordRest hc)
        (isAsciiBlank_of_isWordRest hc) (Lexeme.read_numeral hall hd hn hrest)]
      simp [segmentLexeme, hd, hn, Lexeme.depth]

theorem lexemes_dotted {segments : List Text} (hw : ∀ w ∈ segments, w ≠ [] ∧ isWord w = true)
    (hs : isReadable segments = true) {rest : Text}
    (hr : IsBoundary rest ∨ EndsWord rest ∧ endsInDecimal segments = false) (m : Marker)
    (depth : Int) :
    lexemes m.closing depth (dotted segments ++ rest) =
      behind (dottedLexemes segments) (lexemes m.closing depth rest) := by
  induction segments with
  | nil => simp [dotted, dottedLexemes]
  | cons segment segments ih =>
    have hone := lexemes_segment hw hs hr m depth
    rw [isReadable, Bool.and_eq_true] at hs
    have hlast : segments = [] ∨ endsInDecimal (segment :: segments) = endsInDecimal segments := by
      cases segments with
      | nil => exact .inl rfl
      | cons next segments => exact .inr rfl
    have ih := ih (fun w hm => hw w (List.mem_cons_of_mem _ hm)) hs.2 (hr.imp_right fun hr =>
      ⟨hr.1, by
        obtain rfl | hlast := hlast
        · rfl
        · exact hlast ▸ hr.2⟩)
    have hsplit : dotted (segment :: segments) ++ rest =
        '.' :: (segment ++ (dotted segments ++ rest)) := by simp [dotted]
    rw [hsplit, Spells.dot, hone, ih, behind_behind, behind_behind]
    simp [dottedLexemes]

end Path

end Curly

import Mathlib.Data.List.Find
import Curly.Proofs.Delimiter.Priority

namespace Curly

namespace Pattern

variable {α : Type}

/-- The places that greedy rounds over the characters of a class reach, the last one first. -/
def stops (k : CharSet) (names : List Text) : (place : Nat) → Text → List Cursor
  | place, [] => [⟨place, [], names⟩]
  | place, x :: s =>
    (if k.has x then stops k names (place + 1) s else []) ++ [⟨place, x :: s, names⟩]

theorem visit?_of_forall_lt {t : Trail} {place : Nat} (ht : ∀ q ∈ t.visited.head?, q < place) :
    t.visit? place = some { t with visited := place :: t.visited } := by
  rw [Trail.visit?]
  cases hs : t.visited with
  | nil => rfl
  | cons q qs =>
    have hq : q < place := ht q (by rw [hs]; rfl)
    rw [Trail.insertPlace?, if_pos hq]
    rfl

theorem ends_visit_one (k : CharSet) (names : List Text) (fuel place : Nat) (s : Text) (t : Trail)
    (hfuel : s.length < fuel) (ht : ∀ q ∈ t.visited.head?, q < place) :
    (visit true (one k).ways fuel t ⟨⟨place, s, names⟩, .none⟩).ends =
      ((stops k names place s).map (Way.mk · .none)).reverse ++ t.ends := by
  induction fuel generalizing place s t with
  | zero => cases hfuel
  | succ fuel ih =>
    rw [visit_succ, visit?_of_forall_lt ht]
    cases s with
    | nil => rfl
    | cons x s =>
      have hways : (one k).ways ⟨⟨place, x :: s, names⟩, .none⟩ =
          if k.has x then [⟨⟨place + 1, s, names⟩, .none⟩] else [] := rfl
      rw [hways, stops]
      cases k.has x with
      | false => rfl
      | true =>
        have hlen : s.length < fuel := Nat.lt_of_succ_lt_succ hfuel
        simp only [if_true, List.foldl_cons, List.foldl_nil, Trail.addEnd]
        rw [ih (place + 1) s _ hlen (by simp), List.map_append, List.reverse_append]
        rfl

theorem findSome?_stops {k : CharSet} {names : List Text} {f : Cursor → Option α}
    (hf : ∀ place x s, k.has x = true → f ⟨place, x :: s, names⟩ = none) (place : Nat) (s : Text) :
    (stops k names place s).findSome? f =
      f ⟨place + (s.takeWhile k.has).length, s.dropWhile k.has, names⟩ := by
  induction s generalizing place with
  | nil => simp [stops]
  | cons x s ih =>
    cases hx : k.has x with
    | false => simp [stops, hx]
    | true =>
      rw [stops, if_pos hx, List.findSome?_append, ih, List.takeWhile_cons_of_pos hx,
        List.dropWhile_cons_of_pos hx, List.findSome?_singleton, hf _ _ _ hx, Option.or_none,
        List.length_cons, Nat.add_assoc, Nat.add_comm 1]

/-- Behind greedy rounds over a class whatever cannot go on at a character of the class is tried
behind the last such character only. -/
theorem find?_star_one {k : CharSet} {names : List Text} {f : Cursor → Option α}
    (hf : ∀ place x s, k.has x = true → f ⟨place, x :: s, names⟩ = none) (place : Nat) (s : Text) :
    (star true (one k)).find? ⟨place, s, names⟩ f =
      f ⟨place + (s.takeWhile k.has).length, s.dropWhile k.has, names⟩ := by
  have hends := ends_visit_one k names _ place s {} (Nat.lt_succ_self s.length) (by simp)
  have hways : (star true (one k)).ways ⟨⟨place, s, names⟩, .none⟩ =
      (visit true (one k).ways (s.length + 1) {} ⟨⟨place, s, names⟩, .none⟩).ends.reverse.map
        Way.outRound := rfl
  rw [find?_eq_findSome?, hits, hways, hends, List.append_nil, List.reverse_reverse, List.map_map,
    List.map_map, ← findSome?_stops hf place s]
  exact congrArg (List.findSome? f) (List.map_id _)

theorem find?_literal (w : Text) (place : Nat) (s : Text) (names : List Text)
    (f : Cursor → Option α) :
    (literal w).find? ⟨place, s, names⟩ f =
      if w <+: s then f ⟨place + w.length, s.drop w.length, names⟩ else none := by
  induction w generalizing place s with
  | nil => simp [literal]
  | cons c w ih =>
    cases s with
    | nil => simp [literal]
    | cons x s =>
      simp only [literal, find?_seq, find?_one_cons, CharSet.has_single, decide_eq_true_eq, ih,
        List.cons_prefix_cons, List.length_cons, List.drop_succ_cons]
      by_cases hx : x = c
      · simp [hx, Nat.add_assoc, Nat.add_comm 1]
      · simp [hx, Ne.symm hx]

end Pattern

namespace Mark

def all : List Mark :=
  [reservedOpen, reservedClose, verbatimOpen, commentOpen, runOpen, plainOpen, tripleClose, close]

def spellings : Mark → List Text
  | verbatimOpen => [['{', '{', '{'], ['{', '{', '&']]
  | m => [m.literal]

def spelled? (m : Mark) (s : Text) : Option Text := m.spellings.find? fun w => w <+: s

/-- What a mark reads at the start of a text. -/
def read? : Mark → Text → Option Text
  | commentOpen, '\n' :: s =>
    (spelled? commentOpen (s.dropWhile Text.isBlank)).map (('\n' :: s.takeWhile Text.isBlank) ++ ·)
  | m, s => m.spelled? s

def at? (s : Text) : Option (Mark × Text) := all.findSome? fun m => (m.read? s).map (m, ·)

theorem read?_eq_spelled? {c : Char} (hc : c ≠ '\n') (m : Mark) (s : Text) :
    m.read? (c :: s) = m.spelled? (c :: s) := by
  cases m with
  | commentOpen => simp [read?, hc]
  | _ => rfl

theorem find?_literal_some (w : Text) (place : Nat) (s : Text) :
    (Pattern.literal w).find? ⟨place, s, []⟩ some =
      ([w].find? fun w => w <+: s).map fun w => ⟨place + w.length, s.drop w.length, []⟩ := by
  rw [Pattern.find?_literal, List.find?_cons]
  by_cases h : w <+: s <;> simp [h]

theorem find?_blanks (place : Nat) (s : Text) :
    (Pattern.seq (.star true (.one .blank)) (.literal commentOpen.literal)).find? ⟨place, s, []⟩
        some =
      (spelled? commentOpen (s.dropWhile Text.isBlank)).map fun w =>
        ⟨place + (s.takeWhile Text.isBlank).length + w.length,
          (s.dropWhile Text.isBlank).drop w.length, []⟩ := by
  have hblank (place : Nat) (x : Char) (s : Text) (h : CharSet.blank.has x = true) :
      (Pattern.literal commentOpen.literal).find? ⟨place, x :: s, []⟩ some = none := by
    have hne : x ≠ '{' := by
      rintro rfl
      revert h
      decide
    simp [find?_literal_some, literal, Ne.symm hne]
  rw [Pattern.find?_seq, Pattern.find?_star_one hblank]
  exact find?_literal_some _ _ _

/-- The pattern of a mark matches what the mark reads. -/
theorem match?_pattern (m : Mark) (place : Nat) (s : Text) :
    m.pattern.match? ⟨place, s, []⟩ =
      (m.read? s).map fun w => ⟨place + w.length, s.drop w.length, []⟩ := by
  cases m with
  | verbatimOpen =>
    -- Both spellings have three characters, so these decide.
    obtain _ | ⟨a, _ | ⟨b, _ | ⟨c, s⟩⟩⟩ := s
    · rfl
    · simp [pattern, Pattern.match?, read?, spelled?, spellings]
    · simp [pattern, Pattern.match?, read?, spelled?, spellings]
    · simp only [pattern, Pattern.match?, Pattern.find?_seq, Pattern.find?_one_cons, read?, spelled?,
        spellings, CharSet.has_single, CharSet.has, List.find?_cons, List.cons_prefix_cons,
        List.nil_prefix]
      grind
  | commentOpen =>
    let bang : Pattern := .literal commentOpen.literal
    let blanks : Pattern := .seq (.star true (.one .blank)) bang
    have hbang (place : Nat) (s : Text) : bang.find? ⟨place, s, []⟩ some =
        (spelled? commentOpen s).map fun w => ⟨place + w.length, s.drop w.length, []⟩ :=
      find?_literal_some _ place s
    have hfind : commentOpen.pattern.match? ⟨place, s, []⟩ =
        (Pattern.alt (.seq (.one (.single '\n')) blanks) bang).find? ⟨place, s, []⟩ some := rfl
    rw [hfind, Pattern.find?_alt, hbang]
    cases s with
    | nil => rfl
    | cons x s =>
      -- Only behind a line feed does the comment take blanks.
      by_cases hx : x = '\n'
      · subst hx
        have hlines : (Pattern.seq (.one (.single '\n')) blanks).find? ⟨place, '\n' :: s, []⟩ some =
            blanks.find? ⟨place + 1, s, []⟩ some := Pattern.find?_seq _ blanks _ _
        have hdrop : s.drop (s.takeWhile Text.isBlank).length = s.dropWhile Text.isBlank := by
          have h : (s.takeWhile Text.isBlank ++ s.dropWhile Text.isBlank).drop
              (s.takeWhile Text.isBlank).length = s.dropWhile Text.isBlank := List.drop_left
          rwa [List.takeWhile_append_dropWhile] at h
        rw [hlines, find?_blanks, read?]
        cases spelled? commentOpen (s.dropWhile Text.isBlank) with
        | none => simp [spelled?, spellings, literal]
        | some w =>
          simp only [Option.map_some, Option.some_or, List.cons_append, List.length_append,
            List.length_cons, List.drop_succ_cons, Option.some.injEq, Cursor.mk.injEq, and_true]
          refine ⟨by omega, ?_⟩
          rw [← List.drop_drop, hdrop]
      · have hlines : (Pattern.seq (.one (.single '\n')) blanks).find? ⟨place, x :: s, []⟩ some =
            none := by simp [hx]
        rw [hlines, Option.none_or, read?_eq_spelled? hx]
  | reservedOpen | reservedClose | runOpen | plainOpen | tripleClose | close =>
    exact find?_literal_some _ place s

theorem match?_choice (index place : Nat) (ms : List Mark) (s : Text) :
    (DelimiterTable.choice index (ms.map pattern)).match? ⟨place, s, []⟩ =
      (ms.zipIdx index).findSome? fun (m, i) => (m.read? s).map fun w =>
        ⟨place + w.length, s.drop w.length, [DelimiterTable.groupName i]⟩ := by
  induction ms generalizing index with
  | nil => exact DelimiterTable.match?_choice_nil index place s
  | cons m ms ih =>
    rw [List.map_cons, DelimiterTable.match?_choice_cons, ih, match?_pattern, Option.map_map,
      List.zipIdx_cons, List.findSome?_cons]
    dsimp only
    cases m.read? s <;> rfl

/-- The table matches what the first mark reads that reads something. -/
theorem match?_table (place : Nat) (s : Text) :
    table.pattern.match? ⟨place, s, []⟩ = (at? s).map fun (m, w) =>
      ⟨place + w.length, s.drop w.length, [DelimiterTable.groupName (all.idxOf m)]⟩ := by
  have hindex : all.zipIdx = all.map fun m => (m, all.idxOf m) := by decide
  have hpatterns : delimiters.map (fun d => d.kind.pattern) = all.map pattern := rfl
  rw [pattern_table, hpatterns, match?_choice, hindex, List.findSome?_map, at?,
    List.map_findSome?]
  congr 1
  funext m
  rw [Function.comp_apply, Function.comp_apply, Option.map_map]
  rfl

theorem isPrefix_of_spelled? {m : Mark} {s w : Text} (h : m.spelled? s = some w) : w <+: s :=
  of_decide_eq_true (List.find?_some (p := fun w => decide (w <+: s)) h)

theorem isPrefix_of_read? {m : Mark} {s w : Text} (h : m.read? s = some w) : w <+: s := by
  unfold read? at h
  split at h
  · next s =>
    obtain ⟨u, hu, rfl⟩ := Option.map_eq_some_iff.mp h
    have hprefix :=
      (List.prefix_append_right_inj (s.takeWhile Text.isBlank)).mpr (isPrefix_of_spelled? hu)
    rw [List.takeWhile_append_dropWhile] at hprefix
    exact List.cons_prefix_cons.mpr ⟨rfl, hprefix⟩
  · exact isPrefix_of_spelled? h

theorem read?_of_at? {s w : Text} {m : Mark} (h : at? s = some (m, w)) : m.read? s = some w := by
  obtain ⟨m', -, hm⟩ := List.exists_of_findSome?_eq_some h
  obtain ⟨w', hw, he⟩ := Option.map_eq_some_iff.mp hm
  cases he
  exact hw

theorem isPrefix_of_at? {s w : Text} {m : Mark} (h : at? s = some (m, w)) : w <+: s :=
  isPrefix_of_read? (read?_of_at? h)

theorem exists_lead_of_read? {m : Mark} {s w : Text} (h : m.read? s = some w) :
    ∃ lead v, w = lead ++ v ∧ v ∈ m.spellings ∧ (∀ c ∈ lead, Text.isBlank c = true) ∧
      (lead ≠ [] → m = commentOpen ∧ lead.head? = some '\n') := by
  unfold read? at h
  split at h
  · next s =>
    obtain ⟨v, hv, rfl⟩ := Option.map_eq_some_iff.mp h
    refine ⟨'\n' :: s.takeWhile Text.isBlank, v, rfl, List.mem_of_find?_eq_some hv, ?_,
      fun _ => ⟨rfl, rfl⟩⟩
    intro c hc
    obtain rfl | hc := List.mem_cons.mp hc
    · decide
    · exact List.all_eq_true.mp List.all_takeWhile c hc
  · exact ⟨[], w, rfl, List.mem_of_find?_eq_some h, by simp, absurd rfl⟩

theorem read?_eq_literal {m : Mark} (hm : m.source = none) {s w : Text}
    (h : m.read? s = some w) : w = m.literal := by
  obtain ⟨lead, v, rfl, hv, -, hlead⟩ := exists_lead_of_read? h
  cases m with
  | verbatimOpen | commentOpen => cases hm
  | _ =>
    obtain rfl : lead = [] := by_contra fun hne => nomatch (hlead hne).1
    exact List.mem_singleton.mp hv

/-- The parts of an opening delimiter: blanks, and what starts with the two braces. -/
structure IsOpening (lead braces : Text) : Prop where
  blank : ∀ c ∈ lead, Text.isBlank c = true
  braces : ['{', '{'] <+: braces

theorem braces_prefix_of_mem_spellings {m : Mark} (hm : m.role = .opening) {w : Text}
    (hw : w ∈ m.spellings) : ['{', '{'] <+: w := by
  revert w
  cases m with
  | reservedClose | tripleClose | close => cases hm
  | _ => decide

theorem isOpening_of_read? {m : Mark} (hm : m.role = .opening) {s w : Text}
    (h : m.read? s = some w) : ∃ lead braces, w = lead ++ braces ∧ IsOpening lead braces := by
  obtain ⟨lead, v, hw, hv, hblank, -⟩ := exists_lead_of_read? h
  exact ⟨lead, v, hw, hblank, braces_prefix_of_mem_spellings hm hv⟩

theorem IsOpening.indent_eq {lead braces : Text} (h : IsOpening lead braces) :
    Text.indent (lead ++ braces) = Text.bytes lead := by
  obtain ⟨more, rfl⟩ := h.braces
  have hstop : (['{', '{'] ++ more).takeWhile Text.isBlank = [] :=
    List.takeWhile_cons_of_neg (by decide)
  rw [Text.indent, List.takeWhile_append_of_pos h.blank, hstop, List.append_nil]

theorem length_le_of_mem_spellings {m : Mark} {w : Text} (h : w ∈ m.spellings) : w.length ≤ 3 := by
  revert w
  cases m <;> decide

theorem spelled?_append {m : Mark} {v u : Text}
    (h : ∀ w ∈ m.spellings, w <+: v ++ u → w <+: v) : m.spelled? (v ++ u) = m.spelled? v := by
  have hiff {w : Text} (hw : w ∈ m.spellings) : w <+: v ++ u ↔ w <+: v :=
    ⟨h w hw, fun hp => hp.trans (List.prefix_append v u)⟩
  exact List.find?_congr fun w hw => decide_eq_decide.mpr (hiff hw)

theorem read?_lines_append {s u : Text}
    (h : spelled? commentOpen (s.dropWhile Text.isBlank ++ u) =
      spelled? commentOpen (s.dropWhile Text.isBlank))
    (hu : s.dropWhile Text.isBlank = [] →
      spelled? commentOpen (u.dropWhile Text.isBlank) = none) :
    read? commentOpen ('\n' :: s ++ u) = read? commentOpen ('\n' :: s) := by
  rw [List.cons_append, read?, read?]
  have hlen := congrArg List.length (List.takeWhile_append_dropWhile (p := Text.isBlank) (l := s))
  rw [List.length_append] at hlen
  by_cases hs : s.dropWhile Text.isBlank = []
  · have hdrop : (s ++ u).dropWhile Text.isBlank = u.dropWhile Text.isBlank := by
      simp [List.dropWhile_append, hs]
    rw [hdrop, hu hs, hs]
    rfl
  · have hdrop : (s ++ u).dropWhile Text.isBlank = s.dropWhile Text.isBlank ++ u := by
      simp [List.dropWhile_append, hs]
    have htake : (s ++ u).takeWhile Text.isBlank = s.takeWhile Text.isBlank := by
      have hpos := List.length_pos_iff.mpr hs
      rw [List.takeWhile_append, if_neg (by omega)]
    rw [hdrop, htake, h]

/-- What follows a text does not matter to the delimiter at its start if no spelling reaches into it
and blanks behind a line feed do not. -/
theorem at?_append {c : Char} {s u : Text}
    (h : ∀ m : Mark, m.spelled? (c :: s ++ u) = m.spelled? (c :: s))
    (hlines : c = '\n' → read? commentOpen ('\n' :: s ++ u) = read? commentOpen ('\n' :: s)) :
    at? (c :: s ++ u) = at? (c :: s) := by
  have hread (m : Mark) : m.read? (c :: s ++ u) = m.read? (c :: s) := by
    by_cases hc : c = '\n'
    · subst hc
      cases m with
      | commentOpen => exact hlines rfl
      | _ => exact h _
    · rw [List.cons_append, read?_eq_spelled? hc, read?_eq_spelled? hc]
      exact h m
  simp only [at?, hread]

theorem suffix_dropWhile {p : Char → Bool} {x : Char} {w s : Text} (hx : p x = false)
    (h : x :: w <:+ s) : x :: w <:+ s.dropWhile p := by
  obtain ⟨a, rfl⟩ := h
  rw [List.dropWhile_append]
  split
  · simp [hx]
  · exact List.suffix_append _ _

/-- A spelling reaches over the end of a text that ends in a closing delimiter only where two braces
become three. -/
theorem spelled?_append_closing {m : Mark} (hm : m.role = .closing) {v u : Text}
    (hv : m.literal <:+ v) (hu : ¬(m = .close ∧ u.head? = some '}')) (n : Mark) :
    n.spelled? (v ++ u) = n.spelled? v := by
  apply spelled?_append
  intro w hw hp
  obtain hlen | hlen := Nat.lt_or_ge v.length w.length
  swap
  · exact List.prefix_of_prefix_length_le hp (List.prefix_append v u) hlen
  · have hle := hv.length_le
    have hthree := length_le_of_mem_spellings hw
    cases m with
    | close =>
      have hv : ['}', '}'] = v := hv.eq_of_length (by
        simp only [literal, List.length_cons, List.length_nil] at hle ⊢
        omega)
      subst hv
      have hlength : w.length = 3 := Nat.le_antisymm hthree hlen
      have htake := List.prefix_iff_eq_take.mp hp
      rw [hlength] at htake
      cases u with
      | nil =>
        rw [htake] at hlength
        cases hlength
      | cons c u =>
        obtain rfl : w = ['}', '}', c] := htake
        have hbrace : c = '}' := by
          cases n with
          | tripleClose => simpa [spellings, literal] using hw
          | _ => simp [spellings, literal] at hw
        exact absurd ⟨rfl, congrArg some hbrace⟩ hu
    | reservedClose | tripleClose =>
      simp only [literal, List.length_cons, List.length_nil] at hle
      omega
    | _ => cases hm

theorem at?_append_closing {m : Mark} (hm : m.role = .closing) {v u : Text}
    (hv : m.literal <:+ v) (hu : ¬(m = .close ∧ u.head? = some '}')) : at? (v ++ u) = at? v := by
  have hlead : ∃ x w, m.literal = x :: w ∧ Text.isBlank x = false ∧ x ≠ '\n' := by
    cases m with
    | reservedClose | tripleClose | close => exact ⟨_, _, rfl, by decide, by decide⟩
    | _ => cases hm
  obtain ⟨x, w, hlit, hx, hne⟩ := hlead
  cases v with
  | nil => simp [hlit] at hv
  | cons c s =>
    apply at?_append (spelled?_append_closing hm hv hu)
    rintro rfl
    have hs : x :: w <:+ s.dropWhile Text.isBlank := by
      rw [hlit, List.suffix_cons_iff] at hv
      obtain hv | hv := hv
      · exact absurd (List.cons.inj hv).1 hne
      · exact suffix_dropWhile hx hv
    apply read?_lines_append (spelled?_append_closing hm (hlit ▸ hs) hu commentOpen)
    intro hnil
    rw [hnil] at hs
    simp at hs

end Mark

end Curly

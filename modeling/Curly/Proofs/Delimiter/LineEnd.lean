import Mathlib.Data.List.TakeWhile
import Curly.Proofs.Delimiter.Seam

namespace Curly

open Located

def Text.IsLineEnd (s : Text) : Prop := ∀ c ∈ s, c = '\n' ∨ c = '\r'

namespace Text.IsLineEnd

variable {s t : Text}

theorem of_suffix (h : IsLineEnd s) (ht : t <:+ s) : IsLineEnd t := fun c hc => h c (ht.subset hc)

theorem isBlank (h : IsLineEnd s) : ∀ c ∈ s, Text.isBlank c = true := by
  intro c hc
  obtain rfl | rfl := h c hc <;> decide

theorem dropWhile_isBlank (h : IsLineEnd s) : s.dropWhile Text.isBlank = [] :=
  List.dropWhile_eq_nil_iff.mpr h.isBlank

end Text.IsLineEnd

namespace Pattern

variable {p : Pattern} {place : Nat} {s u : Text}

/-- Where nothing is found in a text, nothing is found in it with a line end that says nothing. -/
theorem search?_append_eq_none (hs : p.search? place s = none) (hi : ∀ v, v ≠ [] → p.Ignores v u)
    (hu : ∀ place v, v <:+ u → p.match? ⟨place, v, []⟩ = none) :
    p.search? place (s ++ u) = none := by
  apply search?_of_passes
  · intro v w hv hw
    rw [List.append_nil]
    obtain ⟨r, rfl, rfl⟩ | ⟨r, rfl, rfl⟩ := List.append_eq_append_iff.mp hv
    · exact hu _ w (List.suffix_append r w)
    · by_cases hr : r = []
      · rw [hr, List.nil_append]
        exact hu _ u (List.suffix_refl u)
      · have hpasses := passes_of_search?_eq_none hs v r rfl hr
        rw [List.append_nil] at hpasses
        rw [hi r hr, hpasses]
        rfl
  · exact hu _ [] (List.nil_suffix)

end Pattern

namespace Segment

variable {κ : Type}

theorem addText_addText {s : Text} (hs : s ≠ []) (u : Text) (offset offset' : Nat)
    (done : List (Segment κ)) :
    addText u offset' (addText s offset done) = addText (s ++ u) offset done := by
  obtain _ | ⟨x | x, done⟩ := done <;> simp [addText, hs]

theorem addText_reverse {u : Text} (hu : u ≠ []) (offset : Nat) (segs : List (Segment κ)) :
    (addText u offset segs.reverse).reverse = segs ++ [.text u offset] ∨
      ∃ before s start, segs = before ++ [.text s start] ∧
        (addText u offset segs.reverse).reverse = before ++ [.text (s ++ u) start] := by
  obtain ⟨s, start, rest, hr, he⟩ | ⟨-, he⟩ := addText_cases hu offset segs.reverse
  · refine .inr ⟨rest.reverse, s, start, ?_, ?_⟩
    · rw [← List.reverse_reverse segs, hr, List.reverse_cons]
    · rw [he, List.reverse_cons]
  · rw [he, List.reverse_cons, List.reverse_reverse]
    exact .inl rfl

end Segment

namespace Pairing

variable {κ : Type} {input : Text} {tokens tokens' : List (Token κ)}

theorem pairFrom_text_append (input : Text) (q : Pairing κ) {s : Text} (hs : s ≠ []) (u : Text)
    (offset offset' : Nat) (tokens : List (Token κ)) :
    DelimiterTable.pairFrom input q.done q.waiting (.text (s ++ u) offset :: tokens) =
      DelimiterTable.pairFrom input q.done q.waiting
        (.text s offset :: .text u offset' :: tokens) := by
  obtain ⟨done, _ | w⟩ := q
  · simp only [DelimiterTable.pairFrom, Segment.addText_addText hs]
  · simp only [DelimiterTable.pairFrom, OpenTag.add, List.append_assoc]

theorem pairFrom_congr (h : ∀ q : Pairing κ, DelimiterTable.pairFrom input q.done q.waiting tokens =
      DelimiterTable.pairFrom input q.done q.waiting tokens')
    (before : List (Token κ)) (q : Pairing κ) :
    DelimiterTable.pairFrom input q.done q.waiting (before ++ tokens) =
      DelimiterTable.pairFrom input q.done q.waiting (before ++ tokens') := by
  induction before generalizing q with
  | nil => exact h q
  | cons token before ih =>
    rw [List.cons_append, List.cons_append, pairFrom_cons, pairFrom_cons]
    congr 1
    funext q'
    exact ih q'

theorem pairFrom_append_text (q : Pairing κ) (tokens : List (Token κ)) (u : Text) (offset : Nat) :
    DelimiterTable.pairFrom input q.done q.waiting (tokens ++ [.text u offset]) =
      (DelimiterTable.pairFrom input q.done q.waiting tokens).map fun segs =>
        (Segment.addText u offset segs.reverse).reverse := by
  induction tokens generalizing q with
  | nil =>
    obtain ⟨done, _ | w⟩ := q
    · simp [DelimiterTable.pairFrom, Except.map]
    · rfl
  | cons token tokens ih =>
    rw [List.cons_append, pairFrom_cons, pairFrom_cons]
    cases q.step input token with
    | error e => rfl
    | ok q' => exact ih q'

end Pairing

namespace DelimiterTable

open Pattern

variable {κ : Type} {defs : List (Delimiter κ)} {t : DelimiterTable κ} {s u : Text}

theorem pairFrom_tokensFrom_append (h : ofDelimiters defs = .ok t)
    (hi : ∀ v, v ≠ [] → t.pattern.Ignores v u)
    (hu : ∀ place v, v <:+ u → t.pattern.match? ⟨place, v, []⟩ = none) (hne : u ≠ [])
    (input : Text) (place offset : Nat) (s : Text) (q : Pairing κ) :
    pairFrom input q.done q.waiting (t.tokensFrom place offset (s ++ u)) =
      pairFrom input q.done q.waiting
        (t.tokensFrom place offset s ++ [.text u (offset + Text.bytes s)]) := by
  induction place, offset, s using tokensFrom_induction h generalizing q with
  | empty place offset =>
    have hsearch : t.pattern.search? place [] = none :=
      search?_of_passes (fun v w hv hw => absurd (List.append_eq_nil_iff.mp hv.symm).2 hw)
        (hu _ [] List.nil_suffix)
    rw [tokensFrom_of_search?_eq_none (search?_append_eq_none hsearch hi hu), Token.ofText,
      if_neg (by simpa using hne)]
    rfl
  | rest place offset s hs hsearch =>
    rw [tokensFrom_of_search?_eq_none (search?_append_eq_none hsearch hi hu), Token.ofText,
      if_neg (by simp [hs])]
    -- Text at the end of `s` and the line end are one token in the whole text, and two here.
    exact Pairing.pairFrom_text_append input q hs u offset _ []
  | found place offset s hit d tokens hsearch hne hd hmem htokens ih =>
    have hfirst := isFirst_of_search? hsearch
    have hsearch' := search?_of_isFirst (hfirst.extend fun v hv => hi v (by
      rintro rfl
      exact hne (List.append_eq_nil_iff.mp (List.suffix_nil.mp hv)).1))
    have hoffset : offset + Text.bytes hit.before + Text.bytes hit.text + Text.bytes hit.rest =
        offset + Text.bytes s := by
      rw [hfirst.whole, Text.bytes_append, Text.bytes_append]
      omega
    rw [tokensFrom_of_search? h hsearch' hd, ← hoffset, List.append_assoc, List.cons_append]
    apply Pairing.pairFrom_congr
    exact Pairing.pairFrom_congr ih [_]

theorem segments_append_text (h : ofDelimiters defs = .ok t)
    (hi : ∀ v, v ≠ [] → t.pattern.Ignores v u)
    (hu : ∀ place v, v <:+ u → t.pattern.match? ⟨place, v, []⟩ = none) (hne : u ≠ [])
    {segs : List (Segment κ)} (hs : t.segments (s ++ u) = .ok segs) :
    ∃ segs', t.segments s = .ok segs' ∧
      segs = (Segment.addText u (Text.bytes s) segs'.reverse).reverse := by
  have hpair := pairFrom_tokensFrom_append h hi hu hne (s ++ u) 0 0 s .start
  rw [Nat.zero_add] at hpair
  have hsegs := hpair.symm.trans hs
  rw [Pairing.pairFrom_append_text] at hsegs
  obtain ⟨segs', hp, rfl⟩ := exists_of_map_eq_ok hsegs
  refine ⟨segs', ?_, rfl⟩
  have hnil := Pairing.pairFrom_append (q := .start) hp s []
  rwa [List.append_nil, pairFrom, List.reverse_reverse] at hnil

end DelimiterTable

namespace Mark

open Text

variable {u : Text}

theorem not_lineEnd_of_mem_spellings {m : Mark} {w : Text} (h : w ∈ m.spellings) :
    '\n' ∉ w ∧ '\r' ∉ w := by
  revert w
  cases m <;> decide

theorem spelled?_append_lineEnd (hu : u.IsLineEnd) (v : Text) (m : Mark) :
    m.spelled? (v ++ u) = m.spelled? v := by
  apply spelled?_append
  rintro w hw ⟨r, hr⟩
  obtain ⟨x, rfl, -⟩ | ⟨x, rfl, rfl⟩ := List.append_eq_append_iff.mp hr
  · exact List.prefix_append w x
  · cases x with
    | nil => exact ⟨[], by simp⟩
    | cons c x =>
      obtain ⟨hn, hr⟩ := not_lineEnd_of_mem_spellings hw
      obtain rfl | rfl := hu c (by simp)
      · exact absurd (by simp) hn
      · exact absurd (by simp) hr

theorem at?_append_lineEnd (hu : u.IsLineEnd) (c : Char) (s : Text) :
    at? (c :: s ++ u) = at? (c :: s) := by
  apply at?_append (spelled?_append_lineEnd hu (c :: s))
  intro _
  apply read?_lines_append (spelled?_append_lineEnd hu _ commentOpen)
  intro _
  rw [hu.dropWhile_isBlank]
  rfl

theorem at?_lineEnd (hu : u.IsLineEnd) : at? u = none := by
  have hspelled (m : Mark) : m.spelled? u = none := by
    refine (spelled?_append_lineEnd hu [] m).trans ?_
    cases m <;> rfl
  have hread (m : Mark) : m.read? u = none := by
    unfold read?
    split
    · next s =>
      rw [(hu.of_suffix (List.suffix_cons ..)).dropWhile_isBlank]
      rfl
    · exact hspelled m
  simp [at?, hread]

/-- A line end goes into the last segment of a text. -/
theorem exists_segments_of_lineEnd (hu : u.IsLineEnd) (hne : u ≠ []) {s : Text}
    {segs : List (Segment Mark)} (h : table.segments (s ++ u) = .ok segs) :
    ∃ segs', table.segments s = .ok segs' ∧ (segs = segs' ++ [.text u (Text.bytes s)] ∨
      ∃ before v start, segs' = before ++ [.text v start] ∧
        segs = before ++ [.text (v ++ u) start]) := by
  have hi (v : Text) (hv : v ≠ []) : table.pattern.Ignores v u := by
    obtain ⟨c, v, rfl⟩ := List.exists_cons_of_ne_nil hv
    exact ignores_of_at? (at?_append_lineEnd hu c v)
  have hnone (place : Nat) (v : Text) (hv : v <:+ u) :
      table.pattern.match? ⟨place, v, []⟩ = none := by
    rw [match?_table, at?_lineEnd (hu.of_suffix hv)]
    rfl
  obtain ⟨segs', hs, rfl⟩ :=
    DelimiterTable.segments_append_text ofDelimiters_delimiters hi hnone hne h
  exact ⟨segs', hs, Segment.addText_reverse hne _ segs'⟩

end Mark

end Curly

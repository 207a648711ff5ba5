import Mathlib.Data.List.Forall2
import Mathlib.Data.List.GetD
import Curly.Proofs.Acceptance
import Curly.Proofs.Delimiter.Seam
import Curly.Proofs.Text.Lines

namespace Curly

open Located SectionTag

namespace Diagnostic

/-- The numbers of the lines around a line of a text with that many lines: from two before it to two
behind it, where they exist. -/
def shownNumbers (total line : Nat) : List Nat :=
  List.range' (max 1 (line - 2)) (min total (line + 2) + 1 - max 1 (line - 2))

/-- One line as it is shown, with its mark and its number, which is aligned to the right. -/
structure IsRow (width : Nat) (marked : Bool) (number : Nat) (line row : Text) : Prop where
  shown : ∃ pad : Text, (∀ c ∈ pad, c = ' ') ∧ (pad ++ Text.ofNat number).length = width ∧
    row = [' ', ' ', if marked then '>' else ' ', ' '] ++ (pad ++ Text.ofNat number)
      ++ [' ', '|', ' '] ++ line ++ ['\n']

/-- The context shows the lines around a line in their order, and marks that line. -/
structure IsExcerpt (ls : List Text) (line : Nat) (context : Text) : Prop where
  exists_line : 1 ≤ line ∧ line ≤ ls.length
  exists_rows : ∃ width rows, context = rows.flatten ∧
    List.Forall₂ (fun n row => ∃ l, 1 ≤ n ∧ ls[n - 1]? = some l ∧ IsRow width (n = line) n l row)
      (shownNumbers ls.length line) rows

theorem mem_shownNumbers {total line n : Nat} :
    n ∈ shownNumbers total line ↔ 1 ≤ n ∧ line ≤ n + 2 ∧ n ≤ total ∧ n ≤ line + 2 := by
  rw [shownNumbers, List.mem_range'_1]
  omega

theorem length_ofNat_mono {m n : Nat} (h : m ≤ n) :
    (Text.ofNat m).length ≤ (Text.ofNat n).length := by
  have hn : n < 10 ^ (Text.ofNat n).length :=
    (Nat.length_toDigits_le_iff (by decide) Nat.length_toDigits_pos).mp (Nat.le_refl _)
  exact (Nat.length_toDigits_le_iff (by decide) Nat.length_toDigits_pos).mpr
    (Nat.lt_of_le_of_lt h hn)

theorem isRow_row {width number : Nat} (h : (Text.ofNat number).length ≤ width) (marked : Bool)
    (line : Text) : IsRow width marked number line (row width marked number line) := by
  refine ⟨_, fun c hc => List.eq_of_mem_replicate hc, ?_, rfl⟩
  rw [List.length_append, List.length_replicate]
  omega

theorem window_eq (source : Text) (line : Nat) :
    window source line = (shownNumbers (Text.lines source).length line).map fun n =>
      ((Text.lines source).getD (n - 1) [], n) := by
  apply List.ext_getElem
  · simp only [window, shownNumbers, List.length_drop, List.length_take, List.length_zipIdx,
      List.length_map, List.length_range']
    omega
  · intro i hi hi'
    have hlen : i < (shownNumbers (Text.lines source).length line).length := by
      rwa [List.length_map] at hi'
    obtain ⟨h₁, -, h₂, -⟩ := mem_shownNumbers.mp (List.getElem_mem hlen)
    have hnumber : (shownNumbers (Text.lines source).length line)[i] = line - 3 + i + 1 := by
      simp only [shownNumbers, List.getElem_range', Nat.one_mul]
      omega
    rw [hnumber] at h₁ h₂
    simp only [window, List.getElem_drop, List.getElem_take, List.getElem_zipIdx, List.getElem_map,
      hnumber, Nat.add_sub_cancel, Prod.mk.injEq]
    exact ⟨(List.getD_eq_getElem _ _ h₂).symm, Nat.add_comm 1 _⟩

theorem isExcerpt_contextAt {source : Text} {line : Nat}
    (h : 1 ≤ line ∧ line ≤ (Text.lines source).length) :
    IsExcerpt (Text.lines source) line (contextAt source line) where
  exists_line := h
  exists_rows := by
    let width := (Text.ofNat (min (line + 2) (Text.lines source).length)).length
    let shown (n : Nat) : Text := row width (n = line) n ((Text.lines source).getD (n - 1) [])
    refine ⟨width, (shownNumbers (Text.lines source).length line).map shown, ?_, ?_⟩
    · rw [contextAt, window_eq, List.flatMap_map]
      rfl
    · rw [List.forall₂_map_right_iff, List.forall₂_same]
      intro n hn
      obtain ⟨h₁, -, h₂, h₃⟩ := mem_shownNumbers.mp hn
      have hlt : n - 1 < (Text.lines source).length := by omega
      refine ⟨(Text.lines source)[n - 1], h₁, List.getElem?_eq_getElem hlt, ?_⟩
      simp only [shown, List.getD_eq_getElem _ _ hlt]
      exact isRow_row (length_ofNat_mono (Nat.le_min.mpr ⟨h₃, h₂⟩)) _ _

end Diagnostic

namespace Mark

theorem exists_isOpening_of_mem_tokens {text s : Text} {m : Mark} {offset : Nat}
    (h : .delimiter m .opening s offset ∈ table.tokens text) :
    ∃ before lead braces behind, s = lead ++ braces ∧ IsOpening lead braces ∧
      text = before ++ (s ++ behind) ∧ offset = Text.bytes before := by
  obtain ⟨read, behind, ht⟩ := List.append_of_mem h
  obtain ⟨v, hv⟩ := exists_read?_of_mem_tokens h
  obtain ⟨lead, braces, hs, hopening⟩ := isOpening_of_read? (role_of_mem_tokens h) hv
  have hcovers := DelimiterTable.covers_tokens ofDelimiters_delimiters text
  refine ⟨sources read, lead, braces, sources behind, hs, hopening, ?_, ?_⟩
  · have hwhole := hcovers.whole
    rw [ht, sources_append, sources_cons] at hwhole
    exact hwhole.symm
  · exact (hcovers.placed read _ behind ht).trans (Nat.zero_add _)

end Mark

namespace Source

/-- The opening delimiter that a complaint is about: the one that is not closed or stands inside of
a tag, that of the first tag with a fault, or that of the innermost section left open. -/
inductive IsAbout (table : RuleTable) (strict : Bool) (text : Text) :
    Complaint → (delimiter : Text) → (offset : Nat) → Prop
  | pairing {cause : Mispairing} {read behind : List (Token Mark)} {m : Mark} {s : Text}
      {offset : Nat} (hs : Mark.table.segments text = .error (.ofOpening cause text s offset))
      (ht : Mark.table.tokens text = read ++ .delimiter m .opening s offset :: behind)
      (hc : cause = .nested ∧ Token.EndInside read ∨ cause = .unclosed ∧ Token.roles behind = []) :
      IsAbout table strict text ⟨.pairing (.ofOpening cause text s offset), offset + Text.indent s⟩
        s offset
  | tag {before behind : List (Segment Mark)} {t : Tag Mark} {opened : List (Text × Nat)}
      {f : Fault} (hs : Mark.table.segments text = .ok (before ++ .tag t :: behind))
      (hb : Clears table strict before opened) (hf : t.firstFault? table strict opened = some f) :
      IsAbout table strict text ⟨f, t.position⟩ t.openText t.offset
  | unclosed {before behind : List (Segment Mark)} {t : Tag Mark} {name : Text}
      (hs : Mark.table.segments text = .ok (before ++ .tag t :: behind)) (hstrict : strict = true)
      (ht : t.sectionTag? table = some (.opening name t.position))
      (hb : WellNested (Segment.sectionTags table behind)) :
      IsAbout table strict text ⟨.unclosedSection name, t.position⟩ t.openText t.offset

theorem IsAbout.exists_token {table : RuleTable} {strict : Bool} {text s : Text} {c : Complaint}
    {offset : Nat} (h : IsAbout table strict text c s offset) :
    c.offset = offset + Text.indent s ∧
      ∃ m, .delimiter m .opening s offset ∈ Mark.table.tokens text := by
  cases h with
  | @pairing _ _ _ m _ _ _ ht =>
    refine ⟨rfl, m, ?_⟩
    rw [ht]
    exact List.mem_append_right _ (List.mem_cons_self ..)
  | tag hs | unclosed hs =>
    exact ⟨rfl, _, (DelimiterTable.isBetween_of_mem_segments hs (by simp)).1⟩

end Source

namespace Tag

theorem position_of_sectionTag? {table : RuleTable} {t : Tag Mark} {name : Text} {offset : Nat}
    (h : t.sectionTag? table = some (.opening name offset)) : offset = t.position := by
  unfold sectionTag? at h
  split at h
  · split at h <;> cases h <;> rfl
  · cases h

end Tag

namespace Segment

theorem exists_tag_of_leavesOpen {table : RuleTable} {segs : List (Segment Mark)} {name : Text}
    {offset : Nat} {opened : List (Text × Nat)}
    (h : LeavesOpen (sectionTags table segs) ((name, offset) :: opened)) :
    ∃ before t behind, segs = before ++ .tag t :: behind ∧
      t.sectionTag? table = some (.opening name offset) ∧
        WellNested (sectionTags table behind) := by
  generalize hts : sectionTags table segs = ts at h
  cases h with
  | opened _ hw =>
    obtain ⟨before, rest, rfl, -, hrest⟩ := List.filterMap_eq_append_iff.mp hts
    obtain ⟨texts, s, behind, rfl, -, hs, hbehind⟩ := List.filterMap_eq_cons_iff.mp hrest
    cases s with
    | text _ _ => cases hs
    | tag t =>
      rw [← hbehind] at hw
      exact ⟨before ++ texts, t, behind, (List.append_assoc ..).symm, hs, hw⟩

end Segment

namespace Source

theorem FirstComplaint.exists_isAbout {table : RuleTable} {strict : Bool} {text : Text}
    {c : Complaint} (h : FirstComplaint table strict text c) :
    ∃ s offset, IsAbout table strict text c s offset := by
  cases h with
  | pairing he =>
    obtain ⟨cause, read, m, s, offset, behind, ht, rfl, hc⟩ :=
      DelimiterTable.exists_opening_of_error Mark.ofDelimiters_delimiters he
    have hcause : cause = .nested ∧ Token.EndInside read ∨
        cause = .unclosed ∧ Token.roles behind = [] := by
      obtain ⟨hn, hin, -⟩ | ⟨hu, -, hr⟩ := hc
      · exact .inl ⟨hn, hin⟩
      · exact .inr ⟨hu, hr⟩
    exact ⟨s, offset, .pairing he ht hcause⟩
  | tag hs hb hf => exact ⟨_, _, .tag hs hb hf⟩
  | unclosed hs hstrict hc =>
    obtain ⟨before, t, behind, rfl, ht, hb⟩ :=
      Segment.exists_tag_of_leavesOpen (hc.leaves hstrict)
    obtain rfl := Tag.position_of_sectionTag? ht
    exact ⟨_, _, .unclosed hs hstrict ht hb⟩

end Source

namespace Diagnostic

/-- The diagnostic shows a delimiter at an offset of the text: its place is that of the braces of
the delimiter, and the line of that place has the braces at the column of the place. -/
structure Shows (d : Diagnostic) (text delimiter : Text) (offset : Nat) : Prop where
  exists_split : ∃ before lead braces behind, delimiter = lead ++ braces ∧
    Mark.IsOpening lead braces ∧ text = before ++ (delimiter ++ behind) ∧
      offset = Text.bytes before ∧ text.behindPosition d.position = braces ++ behind
  one_le_col : 1 ≤ d.position.col
  exists_lines : ∃ ls line, text.HasLines ls ∧ IsExcerpt ls d.position.line d.context ∧
    ls[d.position.line - 1]? = some line ∧ ['{', '{'] <+: line.drop (d.position.col - 1)

theorem shows_ofComplaint (name : Text) {text before lead braces behind : Text} {c : Complaint}
    (h : Mark.IsOpening lead braces) (ht : text = before ++ (lead ++ (braces ++ behind)))
    (hc : c.offset = Text.bytes (before ++ lead)) :
    (ofComplaint name text c).Shows text (lead ++ braces) (Text.bytes before) := by
  have hsplit : text = (before ++ lead) ++ (braces ++ behind) := by rw [ht, List.append_assoc]
  have hposition : (ofComplaint name text c).position = .ofText (before ++ lead) := by
    rw [ofComplaint, Position.ofOffset, hc, hsplit, Text.before_append]
  obtain ⟨more, hmore⟩ := h.braces
  obtain ⟨line, hline, hp⟩ := @Text.exists_line (before ++ lead) ['{', '{'] (by simp)
    (by decide) (more ++ behind)
  rw [← List.append_assoc _ more, hmore, ← hsplit] at hline
  have hbraces : ['{', '{'] <+: line.drop (Text.lastLine (before ++ lead)).length := by
    obtain ⟨rest, rfl⟩ := hp
    rw [List.append_assoc, List.drop_left]
    exact List.prefix_append _ _
  have hcol : (Position.ofText (before ++ lead)).col =
      (Text.lastLine (before ++ lead)).length + 1 := by
    rw [Text.lastLine, List.length_reverse]
    rfl
  have hlen : (before ++ lead).count '\n' + 1 ≤ (Text.lines text).length :=
    (List.getElem?_eq_some_iff.mp hline).1
  refine ⟨⟨before, lead, braces, behind, rfl, h, ?_, rfl, ?_⟩, ?_, ?_⟩
  · rw [ht, List.append_assoc]
  · rw [hposition, hsplit, Text.behindPosition_ofText]
  · rw [hposition]
    exact Nat.le_add_left 1 _
  · refine ⟨Text.lines text, line, Text.hasLines_iff.mpr rfl, ?_, ?_, ?_⟩
    · exact isExcerpt_contextAt (hposition ▸ ⟨Nat.le_add_left 1 _, hlen⟩)
    · rw [hposition]
      exact hline
    · rw [hposition, hcol]
      exact hbraces

end Diagnostic

namespace Template

/-- A template that is refused for its text is refused for one opening delimiter. The diagnostic
has the place of its braces and shows the lines around that place. -/
theorem malformed_shows_opening {table : RuleTable} {helpers : HelperTable} {name text : Text}
    {o : Options} {d : Diagnostic}
    (h : script table name text o = .error (.malformed d) ∨
      compile table helpers name text o = .error (.malformed d)) :
    ∃ c delimiter offset, d = .ofComplaint name text c ∧
      Source.IsAbout table o.strictSections text c delimiter offset ∧
        d.Shows text delimiter offset := by
  have hscript : script table name text o = .error (.malformed d) := by
    obtain h | h := h
    · exact h
    · exact (compileWithin_malformed_iff _ table helpers name text o d).mp h
  obtain ⟨c, hc, rfl⟩ : ∃ c, Source.ofTemplate table o.strictSections text = .error c ∧
      d = .ofComplaint name text c := by
    rw [script] at hscript
    cases hc : Source.ofTemplate table o.strictSections text with
    | ok s => simp [hc, Except.mapError] at hscript
    | error c =>
      simp only [hc, Except.mapError, Except.error.injEq, TemplateError.malformed.injEq] at hscript
      exact ⟨c, rfl, hscript.symm⟩
  obtain ⟨s, offset, habout⟩ := (Source.ofTemplate_eq_error_iff.mp hc).exists_isAbout
  obtain ⟨hoffset, m, hm⟩ := habout.exists_token
  obtain ⟨before, lead, braces, behind, rfl, hopening, ht, rfl⟩ :=
    Mark.exists_isOpening_of_mem_tokens hm
  rw [List.append_assoc] at ht
  rw [hopening.indent_eq, ← Text.bytes_append] at hoffset
  exact ⟨c, _, _, rfl, habout, Diagnostic.shows_ofComplaint name hopening ht hoffset⟩

theorem malformed_shows_opening_lines :
    ∃ text d, text = ['é', '\r', '\n', ' ', '\n', '\t', '{', '{', '!', ' ', 'x'] ∧
      script .stock ['t'] text {} = .error (.malformed d) ∧ d.position = ⟨3, 2⟩ ∧
        ∃ c delimiter offset, d = .ofComplaint ['t'] text c ∧
          Source.IsAbout .stock true text c delimiter offset ∧ d.Shows text delimiter offset := by
  let text : Text := ['é', '\r', '\n', ' ', '\n', '\t', '{', '{', '!', ' ', 'x']
  have htokens : Mark.table.tokens text = [.text ['é', '\r'] 0,
      .delimiter .commentOpen .opening ['\n', ' ', '\n', '\t', '{', '{', '!'] 3,
      .text [' ', 'x'] 10] := by decide +kernel
  have hs : Mark.table.segments text =
      .error (.ofOpening .unclosed text ['\n', ' ', '\n', '\t', '{', '{', '!'] 3) := by
    rw [DelimiterTable.segments, htokens]
    rfl
  have h : script .stock ['t'] text {} = .error (.malformed (.ofComplaint ['t'] text
      ⟨.pairing (.ofOpening .unclosed text ['\n', ' ', '\n', '\t', '{', '{', '!'] 3), 7⟩)) := by
    rw [script, Source.ofTemplate, hs]
    rfl
  exact ⟨text, _, rfl, h, by decide,
    @malformed_shows_opening .stock {} ['t'] text {} _ (.inl h)⟩

end Template

end Curly

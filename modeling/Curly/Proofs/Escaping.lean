import Curly.Proofs.Path.Rendering

namespace Curly

open Script

namespace Text

def markup : List Char := ['&', '<', '>', '"', '\'']

/-- One pass from the left, in which every entity becomes its character. -/
def unescape : Text → Text
  | '&' :: 'a' :: 'm' :: 'p' :: ';' :: s => '&' :: unescape s
  | '&' :: 'l' :: 't' :: ';' :: s => '<' :: unescape s
  | '&' :: 'g' :: 't' :: ';' :: s => '>' :: unescape s
  | '&' :: 'q' :: 'u' :: 'o' :: 't' :: ';' :: s => '"' :: unescape s
  | '&' :: '#' :: '3' :: '9' :: ';' :: s => '\'' :: unescape s
  | c :: s => c :: unescape s
  | [] => []

theorem entity_of_not_mem {c : Char} (h : c ∉ markup) : entity c = [c] := by
  simp only [markup, List.mem_cons, List.not_mem_nil, or_false, not_or] at h
  obtain ⟨h₁, h₂, h₃, h₄, h₅⟩ := h
  unfold entity
  split <;> first | rfl | contradiction

theorem unescape_cons {c : Char} (h : c ≠ '&') (s : Text) :
    unescape (c :: s) = c :: unescape s := by
  simp [unescape, h]

theorem unescape_entity (c : Char) (s : Text) : unescape (entity c ++ s) = c :: unescape s := by
  by_cases h : c ∈ markup
  · simp only [markup, List.mem_cons, List.not_mem_nil, or_false] at h
    obtain rfl | rfl | rfl | rfl | rfl := h <;> rfl
  · have hc : c ≠ '&' := by
      rintro rfl
      exact h (by decide)
    rw [entity_of_not_mem h, List.singleton_append, unescape_cons hc]

theorem unescape_escape (s : Text) : unescape (escape s) = s := by
  induction s with
  | nil => rfl
  | cons c s ih => rw [escape_cons, unescape_entity, ih]

theorem mem_entity {c d : Char} (h : d ∈ entity c) : d ∉ ['<', '>', '"', '\''] := by
  by_cases hc : c ∈ markup
  · have hall : markup.all fun c => (entity c).all fun d => d ∉ ['<', '>', '"', '\''] := by decide
    exact of_decide_eq_true (List.all_eq_true.mp (List.all_eq_true.mp hall c hc) d h)
  · rw [entity_of_not_mem hc, List.mem_singleton] at h
    subst h
    exact fun hm => hc (List.mem_cons_of_mem _ hm)

theorem not_mem_of_mem_escape {s : Text} {c : Char} (h : c ∈ escape s) :
    c ∉ ['<', '>', '"', '\''] := by
  obtain ⟨d, -, hd⟩ := List.mem_flatMap.mp h
  exact mem_entity hd

theorem ampersand_not_mem_tail_entity (c : Char) : '&' ∉ (entity c).tail := by
  by_cases hc : c ∈ markup
  · simp only [markup, List.mem_cons, List.not_mem_nil, or_false] at hc
    obtain rfl | rfl | rfl | rfl | rfl := hc <;> decide
  · rw [entity_of_not_mem hc]
    exact List.not_mem_nil

theorem mem_markup_of_entity {c : Char} {before behind : Text}
    (h : entity c = before ++ '&' :: behind) : before = [] ∧ c ∈ markup := by
  cases before with
  | nil =>
    refine ⟨rfl, not_not.mp fun hc => ?_⟩
    rw [entity_of_not_mem hc] at h
    obtain ⟨rfl, -⟩ := List.cons.inj h
    exact hc (by decide)
  | cons d before =>
    have htail := ampersand_not_mem_tail_entity c
    rw [h] at htail
    exact absurd (List.mem_append_right before (List.mem_cons_self ..)) htail

/-- Every ampersand is the start of an entity. -/
theorem exists_entity_of_escape {s before behind : Text} (h : escape s = before ++ '&' :: behind) :
    ∃ c ∈ markup, entity c <+: '&' :: behind := by
  induction s generalizing before with
  | nil => simp at h
  | cons c s ih =>
    rw [escape_cons] at h
    obtain ⟨mid, hb, hs⟩ | ⟨mid, hc, hs⟩ := List.append_eq_append_iff.mp h
    · exact ih hs
    · cases mid with
      | nil =>
        have hnil : escape s = [] ++ '&' :: behind := hs.symm
        exact ih hnil
      | cons d mid =>
        obtain ⟨rfl, rfl⟩ := List.cons.inj hs
        obtain ⟨rfl, hm⟩ := mem_markup_of_entity hc
        exact ⟨c, hm, by rw [hc]; exact List.prefix_append ('&' :: mid) (escape s)⟩

end Text

/-- The tags that print a value: in two braces, in three braces, and behind an ampersand. -/
inductive Printing where
  | braces
  | tripleBraces
  | ampersand
deriving DecidableEq, Repr

namespace Printing

def isVerbatim : Printing → Bool
  | braces => false
  | tripleBraces | ampersand => true

def opening : Printing → Mark
  | braces => .plainOpen
  | tripleBraces | ampersand => .verbatimOpen

def openText : Printing → Text
  | braces => Mark.literal .plainOpen
  | tripleBraces => Mark.literal .verbatimOpen
  | ampersand => ['{', '{', '&']

def closing : Printing → Mark
  | braces | ampersand => .close
  | tripleBraces => .tripleClose

def write (w : Printing) (content : Text) : Text :=
  w.openText ++ (content ++ w.closing.literal)

def tag (w : Printing) (content : Text) : Tag Mark where
  opening := w.opening
  openText := w.openText
  content := content
  closing := w.closing
  closeText := w.closing.literal
  offset := 0

theorem find?_openText (w : Printing) (place : Nat) {c : Char} (hc : Path.isPathChar c = true)
    (s : Text) : ∃ names, Mark.table.find? place (w.openText ++ c :: s) =
      some (w.opening.delimiter, ⟨[], w.openText, c :: s, names⟩) := by
  cases w with
  | braces =>
    have hfirst : c ∉ ['$', '{', '&', '!', '~'] := by
      intro hm
      simp only [List.mem_cons, List.not_mem_nil, or_false] at hm
      obtain rfl | rfl | rfl | rfl | rfl := hm <;> revert hc <;> decide
    exact ⟨_, Mark.find?_plainOpen place s hfirst⟩
  | tripleBraces => exact ⟨_, Mark.find?_verbatimOpen place _⟩
  | ampersand => exact ⟨_, Mark.find?_ampersand place _⟩

theorem find?_closing (w : Printing) :
    ∃ names, ∀ place, Mark.table.find? place (w.closing.literal ++ []) =
      some (w.closing.delimiter, ⟨[], w.closing.literal, [], names⟩) := by
  cases w with
  | braces | ampersand => exact ⟨_, fun place => Mark.find?_close place (by simp)⟩
  | tripleBraces => exact ⟨_, fun place => Mark.find?_tripleClose place []⟩

theorem segments_write (w : Printing) {content : Text} (hne : content ≠ [])
    (hc : ∀ c ∈ content, Path.isPathChar c = true) :
    Mark.table.segments (w.write content) = .ok [.tag (w.tag content)] := by
  obtain ⟨c, content, rfl⟩ := List.exists_cons_of_ne_nil hne
  obtain ⟨names, hopen⟩ := w.find?_openText 0 (hc c (List.mem_cons_self ..))
    (content ++ w.closing.literal)
  obtain ⟨names', hclose⟩ := w.find?_closing
  have hquiet : ∀ d ∈ c :: content, Mark.IsQuiet d :=
    fun d hm => Path.isQuiet_of_isPathChar (hc d hm)
  exact Mark.segments_enclosed (by cases w <;> rfl) (by cases w <;> rfl) (by cases w <;> nofun)
    (by cases w <;> nofun) hopen hclose hne hquiet

theorem isProper_tag (w : Printing) {content : Text} (h : Text.trim content ≠ []) :
    (w.tag content).IsProper where
  opening := by cases w <;> rfl
  closing := by cases w <;> rfl
  triple :=
    show w.openText = Mark.literal .verbatimOpen → w.closing = .tripleClose by cases w <;> decide
  content := fun _ => h

theorem interpolates_tag (w : Printing) (content : Text) : (w.tag content).interpolates = true := by
  cases w <;> rfl

theorem isVerbatim_tag (w : Printing) (content : Text) :
    (w.tag content).isVerbatim = w.isVerbatim := by
  cases w <;> rfl

theorem spareBrace_tag (w : Printing) (content : Text) : Draft.spareBrace (w.tag content) = [] := by
  cases w <;> rfl

end Printing

namespace Template

open Stmt Curly.Path

def Renders (name text : Text) (o : Options) (data : Option Data) (out : Text) : Prop :=
  ∃ t, compile .stock {} name text o = .ok t ∧ t.render data {} = .ok out

/-- A content that the script has an expression for. -/
structure Denotes (content : Text) (e : Expr) : Prop where
  nonempty : content ≠ []
  chars : ∀ c ∈ content, isPathChar c = true
  spelled : ∃ expr ls, (Draft.meaningOf .stock content = .output expr ∨
    Draft.meaningOf .stock content = .current ∧ expr = Path.data) ∧ Piece.Spells expr ls ∧
      ∃ need, need + 4 ≤ maxDepth ∧ ∀ verbatim, Expr.ReadsExpr (need + printedLevels verbatim)
        (outputLexemes verbatim ls) (printedExpr verbatim e)

theorem denotes_here : Denotes ['.'] (rootExpr Path.data) := by
  have hroot : Piece.Spells (rootLookup Path.data) (rootLexemes Path.data) :=
    spells_root (by decide) (by decide)
  exact ⟨by decide, by simp [isPathChar], _, _, .inr ⟨by decide, rfl⟩, hroot, rootLevels Path.data,
    by decide, Fragment.readsExpr_here Path.data⟩

theorem denotes_lookup {root : Text} {segments : List Text} (hne : root ≠ [])
    (hw : isWord root = true) (hs : ∀ w ∈ segments, w ≠ [] ∧ isWord w = true)
    (hr : isReadable segments = true) :
    Denotes (root ++ dotted segments) (guardedExpr root segments) := by
  refine ⟨List.append_ne_nil_of_left_ne_nil hne _, isPathChar_of_mem hw hs,
    guardedSegments (rootLookup root) segments, guardedLexemes root segments, .inl ?_,
    spells_guardedSegments hne hw hs hr, guardedLevels root segments, ?_,
    Fragment.readsExpr_lookup root segments⟩
  · rw [Draft.meaningOf, RuleTable.apply_stock_word hne hw, meaning?_dotted hne hw hs]
    rfl
  · have hlevels := guardedLevels_le root segments
    simp only [maxDepth]
    omega

/-- What a content finds in the data is printed alike by all tags. -/
theorem renders_write {content : Text} {e : Expr} {data : Option Data} {found : Option Data}
    (h : Denotes content e) (hd : (dataOrEmpty data).HasDistinctNames)
    (hout : ∀ env : Env, (∀ n, Finds env {} (dataOrEmpty data) n) → ∀ verbatim,
      Outputs env {} [.print (printedExpr verbatim e)] (Data.shown env.escape verbatim found))
    (name : Text) (o : Options) (w : Printing) :
    Renders name (w.write content) o data (Data.shown o.escape w.isVerbatim found) := by
  obtain ⟨expr, ls, hm, hexpr, need, hn, he⟩ := h.spelled
  have htrim : Text.trim content = content :=
    trim_eq_self fun c hm => isBlank_of_isPathChar (h.chars c hm)
  have hsource := Source.ofTemplate_of_interpolates (w.segments_write h.nonempty h.chars)
    (w.isProper_tag (by rw [htrim]; exact h.nonempty)) (w.interpolates_tag content)
    (w.spareBrace_tag content) (by rwa [Printing.tag, htrim]) o.strictSections
  rw [w.isVerbatim_tag, output_eq] at hsource
  have hlevels := printedLevels_le w.isVerbatim
  have hread := readAll_of_printed (.printed (spells_output hexpr w.isVerbatim)) (he w.isVerbatim)
    (by omega) o.keepTrailingNewline
  refine ⟨_, (compileWithin_of_ok hsource).trans (by rw [ofScriptWithin, hread]),
    render_of_outputs rfl (hout _ ?_ w.isVerbatim) _⟩
  exact fun n => finds_ofData hd rfl fun hm => absurd hm List.not_mem_nil

theorem exists_found {content : Text} (hc : content = ['.'] ∨ isPath content = true)
    {name : Text} {o : Options}
    (ht : ∃ t, compile .stock {} name (Printing.braces.write content) o = .ok t)
    {data : Option Data} (hd : (dataOrEmpty data).HasDistinctNames) :
    ∃ found, ∀ (w : Printing) (mode : Escaping),
      Renders name (w.write content) (o.withEscape mode) data
        (Data.shown mode w.isVerbatim found) := by
  obtain rfl | hp := hc
  · exact ⟨_, fun w mode => renders_write denotes_here hd
      (fun env hf verbatim => Outline.outputs_here hf Path.data verbatim) name _ w⟩
  · obtain ⟨root, segments, hs, rfl⟩ := exists_splitOn content
    obtain ⟨-, hne, hw, hwords⟩ := words_of_isPath hp hs
    cases hr : isReadable segments with
    | true =>
      exact ⟨_, fun w mode => renders_write (denotes_lookup hne hw hwords hr) hd
        (fun env hf verbatim => Outline.outputs_lookup (hf root) (hf Path.data) segments verbatim)
        name _ w⟩
    | false =>
      obtain ⟨t, ht⟩ := ht
      obtain ⟨r, hreject⟩ := readAll_lookup_error hne hw hwords hr maxDepth o.keepTrailingNewline
      have htag : Printing.braces.write (root ++ dotted segments) = tag (root ++ dotted segments) :=
        (List.append_assoc ..).symm
      rw [htag, compile_tag hp hs, ofScript, ofScriptWithin, hreject] at ht
      cases ht

theorem shown_eq_escape_or_nil (found : Option Data) :
    ∃ s, Data.shown .html false found = Text.escape s ∧
      ∀ mode verbatim, (mode = .none ∨ verbatim = true) → Data.shown mode verbatim found = s := by
  cases found with
  | none => exact ⟨[], rfl, fun _ _ _ => rfl⟩
  | some d =>
    by_cases hd : d = .null
    · subst hd
      exact ⟨[], rfl, fun _ _ _ => rfl⟩
    · refine ⟨(Value.ofData d).toText, Data.shown_some _ _ hd, fun mode verbatim h => ?_⟩
      rw [Data.shown_some _ _ hd]
      obtain rfl | rfl := h
      · rfl
      · rw [Bool.not_true, Bool.and_false, if_neg Bool.false_ne_true]

/-- Escaped text has no markup but entities, and reading these gives the text. What a tag in two
braces shows escaped is read back as what the other tags show, and all tags without escaping. -/
theorem renders_unescape :
    (∀ s : Text, (∀ c ∈ Text.escape s, c ∉ ['<', '>', '"', '\'']) ∧
      (∀ before behind, Text.escape s = before ++ '&' :: behind →
        ∃ c ∈ Text.markup, Text.entity c <+: '&' :: behind) ∧
      Text.unescape (Text.escape s) = s) ∧
    ∀ (content name : Text) (o : Options) (data : Option Data),
      (content = ['.'] ∨ isPath content = true) → (dataOrEmpty data).HasDistinctNames →
      (∃ t, compile .stock {} name (Printing.braces.write content) o = .ok t) →
      ∃ out, Renders name (Printing.braces.write content) (o.withEscape .html) data out ∧
        (∀ c ∈ out, c ∉ ['<', '>', '"', '\'']) ∧
        (∀ w ∈ [Printing.tripleBraces, .ampersand],
          Renders name (w.write content) (o.withEscape .html) data (Text.unescape out)) ∧
        ∀ w ∈ [Printing.braces, .tripleBraces, .ampersand],
          Renders name (w.write content) (o.withEscape .none) data (Text.unescape out) := by
  refine ⟨fun s => ⟨fun c => Text.not_mem_of_mem_escape, fun before behind =>
    Text.exists_entity_of_escape, Text.unescape_escape s⟩, ?_⟩
  intro content name o data hc hd ht
  obtain ⟨found, hfound⟩ := exists_found hc ht hd
  obtain ⟨s, hs, hplain⟩ := shown_eq_escape_or_nil found
  refine ⟨Text.escape s, hs ▸ hfound .braces .html, fun c => Text.not_mem_of_mem_escape, ?_, ?_⟩
  · intro w hw
    have hv : w.isVerbatim = true := by
      simp only [List.mem_cons, List.not_mem_nil, or_false] at hw
      obtain rfl | rfl := hw <;> rfl
    rw [Text.unescape_escape, ← hplain .html w.isVerbatim (.inr hv)]
    exact hfound w .html
  · intro w _
    rw [Text.unescape_escape, ← hplain .none w.isVerbatim (.inl rfl)]
    exact hfound w .none

theorem renders_unescape_item :
    let data : Data := .object [("a".toList, .list [.text "<&lt;".toList])]
    ∃ out, Renders "page".toList (Printing.braces.write "a.0".toList) {} (some data) out ∧
      Renders "page".toList (Printing.ampersand.write "a.0".toList) {} (some data)
        (Text.unescape out) := by
  intro data
  have hd : (dataOrEmpty (some data)).HasDistinctNames := by
    simp [data, dataOrEmpty, Data.HasDistinctNames]
  obtain ⟨t, ht, -⟩ := renders_write
    (@denotes_lookup "a".toList ["0".toList] (by decide) (by decide) (by decide) (by decide)) hd
    (fun env hf verbatim => Outline.outputs_lookup (hf _) (hf Path.data) _ verbatim)
    "page".toList {} .braces
  obtain ⟨out, hout, -, hverbatim, -⟩ := renders_unescape.2 "a.0".toList "page".toList {}
    (some data) (.inr (by decide)) hd ⟨t, ht⟩
  exact ⟨out, hout, hverbatim .ampersand (by simp)⟩

end Template

end Curly

import Curly.Proofs.Section.Draft
import Curly.Template.Basic

namespace Curly

open Script

namespace SectionTag

theorem follow_map_isOpening (n : Nat) (ts : List SectionTag) :
    Fragment.follow n (ts.map isOpening) = depth? n ts := by
  induction ts generalizing n with
  | nil => rfl
  | cons t ts ih =>
    cases t with
    | opening name offset => exact ih (n + 1)
    | closing name =>
      cases n with
      | zero => rfl
      | succ n => exact ih n

end SectionTag

namespace Action

theorem turn?_fragment (opened : List (Text × Bool)) (a : Action) (verbatim : Bool)
    (offset : Nat) :
    (a.fragment opened verbatim).turn? = (a.sectionTag? offset).map SectionTag.isOpening := by
  cases a with
  | opening name inverted =>
    have h (name : Text) : (Fragment.opening name inverted).turn? = some true := by
      simp only [Fragment.opening, Fragment.turn?, List.head?_cons, decide_true]
    exact h _
  | closing name =>
    have h : Fragment.ending.turn? = some false := by decide
    exact h
  | here => rfl
  | lookup name segments => rfl

end Action

namespace Segment

theorem turns_ofText (s : Text) (fs : List Fragment) :
    Fragment.turns (Fragment.ofText s ++ fs) = Fragment.turns fs := by
  have hbody (body : Text) (fs : List Fragment) :
      Fragment.turns (Fragment.ofBody body :: fs) = Fragment.turns fs := by
    rw [Fragment.ofBody]
    split <;> rfl
  rw [Fragment.ofText]
  split
  · exact hbody _ _
  · rfl

/-- The blocks of the script open and end where the sections of the template do. -/
theorem Writes.turns_eq {opened opened' : List (Text × Bool)} {segs : List (Segment Mark)}
    {fs : List Fragment} (h : Writes opened segs opened' fs) :
    Fragment.turns fs = (sectionTags .stock segs).map SectionTag.isOpening := by
  induction h with
  | nil => rfl
  | text _ ih => rw [turns_ofText, sectionTags_text, ih]
  | silent _ hd _ ih =>
    rw [Fragment.turns_plain, ih, sectionTags_tag, Tag.sectionTag?_of_does hd]
    rfl
  | @action opened opened' segs fs t a _ hd _ ih =>
    rw [Fragment.turns_cons, Fragment.turns_plain,
      Action.turn?_fragment opened a t.isVerbatim t.position, ih, sectionTags_tag,
      Tag.sectionTag?_of_does hd, List.map_append, Option.bind_some]
    cases a.sectionTag? t.position <;> rfl

theorem length_sectionTags_le (table : RuleTable) (segs : List (Segment Mark)) :
    (sectionTags table segs).length ≤ segs.length := List.length_filterMap_le _ _

end Segment

namespace Template

variable {limit : Nat} {table : RuleTable} {helpers : HelperTable} {name text s : Text}
  {o : Options}

theorem compileWithin_of_ok (h : Source.ofTemplate table o.strictSections text = .ok s) :
    compileWithin limit table helpers name text o = ofScriptWithin limit helpers name s o := by
  rw [compileWithin, script, h]
  rfl

theorem compileWithin_of_error {c : Complaint}
    (h : Source.ofTemplate table o.strictSections text = .error c) :
    compileWithin limit table helpers name text o =
      .error (.malformed (.ofComplaint name text c)) := by
  rw [compileWithin, script, h]
  rfl

theorem ofScriptWithin_cases (limit : Nat) (helpers : HelperTable) (name s : Text) (o : Options) :
    ((∃ statements, Stmt.readAll limit o.keepTrailingNewline s = .ok statements) ∧
        ∃ t, ofScriptWithin limit helpers name s o = .ok t) ∨
      ((¬ ∃ statements, Stmt.readAll limit o.keepTrailingNewline s = .ok statements) ∧
        ∃ r, ofScriptWithin limit helpers name s o = .error (.rejected name r)) := by
  rw [ofScriptWithin]
  cases Stmt.readAll limit o.keepTrailingNewline s with
  | ok statements => exact .inl ⟨⟨_, rfl⟩, _, rfl⟩
  | error r => exact .inr ⟨by simp, _, rfl⟩

theorem ofTemplate_of_writes {segs : List (Segment Mark)} {opened : List (Text × Bool)}
    {fs : List Fragment} (hs : Mark.table.segments text = .ok segs)
    (hw : Segment.Writes [] segs opened fs) :
    Source.ofTemplate .stock false text = .ok (Fragment.sources fs) := by
  have hm : Draft.Matches {} [] := ⟨rfl, by simp⟩
  obtain ⟨d, hd, hsource, -⟩ := Draft.addSegments_of_writes hw hm
  rw [Source.ofTemplate, hs]
  simp only [Source.ofSegments, hd]
  change Draft.finish false d = _
  have hfinish : Draft.finish false d = .ok d.source := by
    unfold Draft.finish
    split <;> rfl
  rw [hfinish, hsource]
  rfl

theorem exists_sources_of_isPlain {segs : List (Segment Mark)}
    (hs : Mark.table.segments text = .ok segs) (hp : ∀ t, .tag t ∈ segs → t.IsPlain) :
    ∃ fs, Source.ofTemplate .stock false text = .ok (Fragment.sources fs) ∧
      (∀ f ∈ fs, f.IsRead) ∧ (∀ f ∈ fs, f.IsSimple) ∧
        Fragment.turns fs = (Segment.sectionTags .stock segs).map SectionTag.isOpening := by
  obtain ⟨opened, fs, hw⟩ := Segment.exists_writes hp []
  exact ⟨fs, ofTemplate_of_writes hs hw, hw.isRead (by simp), hw.isSimple, hw.turns_eq⟩

/-- A plain template that is not checked is refused exactly when its sections do not nest
regardless of their names. -/
theorem permissive_of_isPlain {segs : List (Segment Mark)}
    (hs : Mark.table.segments text = .ok segs) (hp : ∀ t, .tag t ∈ segs → t.IsPlain)
    (hl : segs.length + Fragment.mostLevels ≤ limit) (ho : o.strictSections = false) :
    ((∃ t, compileWithin limit .stock helpers name text o = .ok t) ↔
        SectionTag.IsBalanced (Segment.sectionTags .stock segs)) ∧
      (¬ SectionTag.IsBalanced (Segment.sectionTags .stock segs) →
        ∃ r, compileWithin limit .stock helpers name text o = .error (.rejected name r)) := by
  obtain ⟨fs, hok, hread, hsimple, hturns⟩ := exists_sources_of_isPlain hs hp
  have hlength : (Fragment.turns fs).length + Fragment.mostLevels ≤ limit := by
    have h := Segment.length_sectionTags_le .stock segs
    rw [hturns, List.length_map]
    omega
  have hiff := Fragment.readAll_iff hread hsimple hlength o.keepTrailingNewline
  rw [hturns, SectionTag.follow_map_isOpening, ← SectionTag.isBalanced_iff_depth?] at hiff
  have hcompile : compileWithin limit .stock helpers name text o =
      ofScriptWithin limit helpers name (Fragment.sources fs) o := compileWithin_of_ok (ho ▸ hok)
  rw [hcompile, ← hiff]
  obtain ⟨hr, ht⟩ | ⟨hr, r, he⟩ :=
    ofScriptWithin_cases limit helpers name (Fragment.sources fs) o
  · exact ⟨⟨fun _ => hr, fun _ => ht⟩, fun h => absurd hr h⟩
  · refine ⟨⟨fun ⟨t, ht⟩ => ?_, fun h => absurd h hr⟩, fun _ => ⟨r, he⟩⟩
    rw [he] at ht
    cases ht

theorem strict_of_isPlain {segs : List (Segment Mark)}
    (hs : Mark.table.segments text = .ok segs) (hp : ∀ t, .tag t ∈ segs → t.IsPlain)
    (hl : segs.length + Fragment.mostLevels ≤ limit) (ho : o.strictSections = true) :
    (∃ t, compileWithin limit .stock helpers name text o = .ok t) ∨
      ∃ d, compileWithin limit .stock helpers name text o = .error (.malformed d) := by
  obtain ha | ⟨c, hc⟩ := Source.accepts_or_complaint .stock true text
  · obtain ⟨s, hok⟩ := Source.ofTemplate_of_accepts ha
    obtain ⟨segs', hs', -, hw⟩ := ha
    rw [hs] at hs'
    cases hs'
    obtain ⟨t, ht⟩ : ∃ t, compileWithin limit .stock helpers name text
        (o.withStrictSections false) = .ok t :=
      (permissive_of_isPlain hs hp hl rfl).1.mpr (hw rfl).isBalanced
    refine .inl ⟨t, ?_⟩
    rw [compileWithin_of_ok (ho ▸ hok)]
    rw [compileWithin_of_ok (o := o.withStrictSections false) (Source.ofTemplate_of_strict hok)]
      at ht
    exact ht
  · exact .inr ⟨_, compileWithin_of_error (ho ▸ Source.ofTemplate_of_complaint hc)⟩

/-- Checking sections changes no script that passes the checks. Where sections are checked, a plain
template is never refused for its script. Where they are not, it is refused for nothing but its
script, and exactly when its sections do not nest regardless of their names. -/
theorem strictSections_agree (helpers : HelperTable) (name text : Text) (o : Options) :
    (∀ table s, script table name text (o.withStrictSections true) = .ok s →
        script table name text (o.withStrictSections false) = .ok s) ∧
      ∀ segs limit, Mark.table.segments text = .ok segs → (∀ t, .tag t ∈ segs → t.IsPlain) →
        segs.length + Fragment.mostLevels ≤ limit →
          ((∃ t, compileWithin limit .stock helpers name text (o.withStrictSections true) = .ok t) ∨
            ∃ d, compileWithin limit .stock helpers name text (o.withStrictSections true) =
              .error (.malformed d)) ∧
          ((∃ t, compileWithin limit .stock helpers name text (o.withStrictSections false) =
              .ok t) ↔ SectionTag.IsBalanced (Segment.sectionTags .stock segs)) ∧
          (¬ SectionTag.IsBalanced (Segment.sectionTags .stock segs) →
            ∃ r, compileWithin limit .stock helpers name text (o.withStrictSections false) =
              .error (.rejected name r)) := by
  refine ⟨fun table s h => ?_, fun segs limit hs hp hl => ?_⟩
  · rw [script] at h ⊢
    cases hok : Source.ofTemplate table true text with
    | error c =>
      rw [show (o.withStrictSections true).strictSections = true from rfl, hok] at h
      cases h
    | ok s' =>
      rw [show (o.withStrictSections true).strictSections = true from rfl, hok] at h
      rw [show (o.withStrictSections false).strictSections = false from rfl,
        Source.ofTemplate_of_strict hok]
      exact h
  · exact ⟨strict_of_isPlain hs hp hl rfl, permissive_of_isPlain hs hp hl rfl⟩

theorem strictSections_agree_section :
    script .stock "page".toList (Mark.braced '#' ['a'] ++ 'x' :: Mark.braced '/' ['a'])
        (Options.default.withStrictSections false) =
          .ok (Source.statement "if a".toList ++ 'x' :: Source.statement "endif".toList) ∧
      ∃ t, compileWithin Stmt.maxDepth .stock {} "page".toList
        (Mark.braced '#' ['a'] ++ 'x' :: Mark.braced '/' ['a'])
          (Options.default.withStrictSections false) = .ok t := by
  have hs : Mark.table.segments (Mark.braced '#' ['a'] ++ 'x' :: Mark.braced '/' ['a']) =
      .ok [.tag (Mark.bracedTag '#' ['a'] 0), .text ['x'] 6, .tag (Mark.bracedTag '/' ['a'] 7)] :=
    DelimiterTable.segments_of_toOption (by decide +kernel)
  generalize Mark.braced '#' ['a'] ++ 'x' :: Mark.braced '/' ['a'] = text at hs ⊢
  obtain ⟨hp₁, hd₁⟩ : (Mark.bracedTag '#' ['a'] 0).IsProper ∧
      (Mark.bracedTag '#' ['a'] 0).Does (some (.opening ['a'] false)) :=
    Tag.does_bracedTag 0 (by decide) (.opening (by decide))
  obtain ⟨hp₂, hd₂⟩ : (Mark.bracedTag '/' ['a'] 7).IsProper ∧
      (Mark.bracedTag '/' ['a'] 7).Does (some (.closing ['a'])) :=
    Tag.does_bracedTag 7 (by decide) (.closing (by decide))
  have hscript : script .stock "page".toList text (Options.default.withStrictSections true) =
      .ok (Source.statement "if a".toList ++ 'x' :: Source.statement "endif".toList) := by
    rw [script, Source.ofTemplate, hs]
    rfl
  obtain ⟨hsame, hplain⟩ := strictSections_agree {} "page".toList text Options.default
  obtain ⟨-, hiff, -⟩ := hplain _ Stmt.maxDepth hs
    (by simpa using ⟨⟨hp₁, _, hd₁⟩, ⟨hp₂, _, hd₂⟩⟩) (by decide)
  refine ⟨hsame .stock _ hscript, hiff.mpr ?_⟩
  rw [SectionTag.isBalanced_iff_depth?]
  decide

end Template

end Curly

import Curly.Proofs.Acceptance
import Curly.Proofs.Delimiter.Seam

namespace Curly

def PendingSection.shift (n : Nat) (s : PendingSection) : PendingSection :=
  { s with offset := s.offset + n }

def Complaint.shift (n : Nat) (c : Complaint) : Complaint := { c with offset := c.offset + n }

namespace Draft

def after (front : Text) (n : Nat) (d : Draft) : Draft where
  source := front ++ d.source
  sections := d.sections.map (PendingSection.shift n)

variable {front : Text} {n : Nat} {d : Draft}

theorem write_after (s : Text) : (d.after front n).write s = (d.write s).after front n := by
  simp [after, write]

theorem current_shift (n : Nat) (sections : List PendingSection) :
    current (sections.map (PendingSection.shift n)) = current sections := by
  have hf : sections.find? ((fun s : PendingSection => !s.inverted && s.name ≠ []) ∘
      PendingSection.shift n) = sections.find? fun s => !s.inverted && s.name ≠ [] := rfl
  rw [current, current, List.find?_map, hf]
  cases sections.find? fun s => !s.inverted && s.name ≠ [] <;> rfl

theorem guard_shift (n : Nat) (sections : List PendingSection) (name : Text) :
    guard (sections.map (PendingSection.shift n)) name = guard sections name := by
  rw [guard, guard, current_shift]

theorem checkClose_shift (n : Nat) (sections : List PendingSection) (name : Text) :
    checkClose (sections.map (PendingSection.shift n)) name = checkClose sections name := by
  cases sections <;> rfl

theorem openSection_after (name : Text) (inverted : Bool) (offset : Nat) :
    (d.after front n).openSection name inverted (offset + n) =
      (d.openSection name inverted offset).after front n := by
  have hg : guard (d.after front n).sections name = guard d.sections name :=
    guard_shift n d.sections name
  simp only [openSection, hg, write_after]
  rfl

theorem closeSection_after (strict : Bool) (name : Text) (offset : Nat) :
    closeSection strict (d.after front n) name (offset + n) =
      mapBoth (Complaint.shift n) (after front n) (closeSection strict d name offset) := by
  have hc : checkClose (d.after front n).sections name = checkClose d.sections name :=
    checkClose_shift n d.sections name
  simp only [closeSection, hc]
  split
  · rfl
  · simp [mapBoth, after, write]

theorem addMeaning_after (strict : Bool) (m : Meaning) (unescaped : Bool) (offset : Nat) :
    (d.after front n).addMeaning strict m unescaped (offset + n) =
      mapBoth (Complaint.shift n) (after front n) (d.addMeaning strict m unescaped offset) := by
  cases m with
  | opening name | inverted name => exact congrArg Except.ok (openSection_after name _ offset)
  | closing name => exact closeSection_after strict name offset
  | output expr | statement code => exact congrArg Except.ok (write_after _)
  | current =>
    have hc : current (d.after front n).sections = current d.sections := current_shift n d.sections
    rw [addMeaning, addMeaning, hc, write_after]
    rfl

variable {table : RuleTable} {strict : Bool}

theorem position_shift (n : Nat) (t : Tag Mark) : (t.shift n).position = t.position + n := by
  simp only [Tag.position, Tag.shift, Nat.add_right_comm]

theorem addContent_after (t : Tag Mark) :
    (d.after front n).addContent table strict (t.shift n) =
      mapBoth (Complaint.shift n) (after front n) (d.addContent table strict t) := by
  have hopening : (t.shift n).opening = t.opening := rfl
  have hcontent : (t.shift n).content = t.content := rfl
  simp only [addContent, hopening, hcontent, position_shift]
  cases t.opening with
  | commentOpen => rfl
  | runOpen =>
    simp only [write_after]
    by_cases hc : Text.trim t.content = [] <;> simp [hc, mapBoth]
  | plainOpen | verbatimOpen =>
    simp only
    split
    · rfl
    · exact addMeaning_after strict _ _ t.position
  | _ => rfl

theorem addTag_after (t : Tag Mark) :
    (d.after front n).addTag table strict (t.shift n) =
      mapBoth (Complaint.shift n) (after front n) (d.addTag table strict t) := by
  have hfault : tagFault (t.shift n) = tagFault t := rfl
  rw [addTag, addTag, hfault, position_shift, addContent_after]
  cases tagFault t with
  | some fault => rfl
  | none =>
    cases d.addContent table strict t with
    | error c => rfl
    | ok d' => exact congrArg Except.ok (write_after (spareBrace t))

theorem addSegments_after (segs : List (Segment Mark)) :
    addSegments table strict (d.after front n) (segs.map (Segment.shift n)) =
      mapBoth (Complaint.shift n) (after front n) (addSegments table strict d segs) := by
  induction segs generalizing d with
  | nil => rfl
  | cons s segs ih =>
    have hs : (d.after front n).addSegment table strict (s.shift n) =
        mapBoth (Complaint.shift n) (after front n) (d.addSegment table strict s) := by
      cases s with
      | text s offset => exact congrArg Except.ok (write_after _)
      | tag t => exact addTag_after t
    rw [List.map_cons, addSegments, addSegments, hs]
    cases d.addSegment table strict s with
    | error c => rfl
    | ok d' => exact ih

theorem finish_after :
    (d.after front n).finish strict =
      mapBoth (Complaint.shift n) (front ++ ·) (d.finish strict) := by
  obtain ⟨source, _ | ⟨s, sections⟩⟩ := d
  · rfl
  · cases strict <;> rfl

end Draft

namespace Source

/-- What follows segments that have a script has one, or none, as on its own. -/
theorem ofSegments_append {table : RuleTable} {segs segs' : List (Segment Mark)} {s : Text}
    (h : ofSegments table true segs = .ok s) (n : Nat) :
    ofSegments table true (segs ++ segs'.map (Segment.shift n)) =
      mapBoth (Complaint.shift n) (s ++ ·) (ofSegments table true segs') := by
  obtain ⟨⟨source, sections⟩, hd, hfinish⟩ := exists_of_bind_eq_ok h
  have hclosed : sections = [] ∧ source = s := by
    cases sections with
    | nil => exact ⟨rfl, Except.ok.inj hfinish⟩
    | cons p sections => cases hfinish
  obtain ⟨rfl, rfl⟩ := hclosed
  have hempty : (⟨source, []⟩ : Draft) = Draft.after source n {} := by simp [Draft.after]
  rw [ofSegments, Draft.addSegments_append, hd, Except.bind, hempty, Draft.addSegments_after,
    ofSegments]
  cases Draft.addSegments table true {} segs' with
  | error c => rfl
  | ok d' => exact Draft.finish_after

end Source

namespace Template

/-- Behind a text that has a script and ends in a tag, whose two closing braces do not become three,
segments and script of another text are what they are on its own, but for their offsets. -/
theorem script_append {table : RuleTable} {name s u source : Text} {o : Options}
    (ho : o.strictSections = true) (h : script table name s o = .ok source)
    {segs : List (Segment Mark)} (hs : Mark.table.segments s = .ok segs) {t : Tag Mark}
    (hlast : segs.getLast? = some (.tag t)) (hu : ¬(t.closing = .close ∧ u.head? = some '}')) :
    (∀ segs', Mark.table.segments u = .ok segs' →
      Mark.table.segments (s ++ u) = .ok (segs ++ segs'.map (Segment.shift (Text.bytes s)))) ∧
    (∀ e, Mark.table.segments u = .error e →
      Mark.table.segments (s ++ u) = .error (e.shift (s ++ u) (Text.bytes s))) ∧
    ∀ source', script table name (s ++ u) o = .ok source' ↔
      ∃ rest, script table name u o = .ok rest ∧ source' = source ++ rest := by
  have happend := Mark.segments_append hs hlast hu
  refine ⟨fun segs' hu => by rw [happend, hu]; rfl, fun e hu => by rw [happend, hu]; rfl,
    fun source' => ?_⟩
  rw [script_eq_ok_iff, ho, Source.ofTemplate, hs] at h
  simp only [script_eq_ok_iff, ho, Source.ofTemplate, happend]
  cases Mark.table.segments u with
  | error e => simp [mapBoth]
  | ok segs' =>
    simp only [mapBoth, Source.ofSegments_append h]
    cases Source.ofSegments table true segs' with
    | error c => simp
    | ok rest => simp [eq_comm]

theorem script_append_text :
    script .stock "page".toList (Mark.braced 'a' []) .default =
        .ok (Source.printed (Path.guardedLookup ['a'])) ∧
      Mark.table.segments (Mark.braced 'a' []) = .ok [.tag (Mark.bracedTag 'a' [] 0)] ∧
        ∀ source', script .stock "page".toList (Mark.braced 'a' [] ++ ['x']) .default =
            .ok source' ↔
          ∃ rest, script .stock "page".toList ['x'] .default = .ok rest ∧
            source' = Source.printed (Path.guardedLookup ['a']) ++ rest := by
  have hs : Mark.table.segments (Mark.braced 'a' []) = .ok [.tag (Mark.bracedTag 'a' [] 0)] :=
    DelimiterTable.segments_of_toOption (by decide +kernel)
  have h : script .stock "page".toList (Mark.braced 'a' []) .default =
      .ok (Source.printed (Path.guardedLookup ['a'])) := by
    rw [script, Source.ofTemplate, hs]
    rfl
  exact ⟨h, hs, (script_append rfl h hs rfl (u := ['x']) (by simp)).2.2⟩

end Template

end Curly

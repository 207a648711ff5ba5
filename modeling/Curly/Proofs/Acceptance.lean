import Curly.Proofs.Delimiters
import Curly.Proofs.Nesting
import Curly.Template.Basic

namespace Curly

open SectionTag

namespace Tag

def interpolates (t : Tag Mark) : Bool := t.opening = .plainOpen || t.opening = .verbatimOpen

/-- The section that the tag opens or closes, by what the rules make of its content. -/
def sectionTag? (table : RuleTable) (t : Tag Mark) : Option SectionTag :=
  if t.interpolates then
    match table.apply (Text.trim t.content) with
    | some (.opening name) | some (.inverted name) => some (.opening name t.position)
    | some (.closing name) => some (.closing name)
    | _ => none
  else none

structure IsProper (t : Tag Mark) : Prop where
  opening : t.opening.isReserved = false
  closing : t.closing.isReserved = false
  triple : t.openText = Mark.literal .verbatimOpen → t.closing = .tripleClose
  content : t.interpolates = true → Text.trim t.content ≠ []

def checks (t : Tag Mark) : List (Bool × Fault) :=
  [(t.opening.isReserved, .reserved t.opening),
    (t.closing.isReserved, .reserved t.closing),
    (t.openText = Mark.literal .verbatimOpen && t.closing ≠ .tripleClose, .tripleMismatch),
    (t.interpolates && Text.trim t.content = [], .emptyTag)]

/-- What a section tag is checked for behind tags that leave sections open. -/
def sectionChecks (opened : List (Text × Nat)) : Option SectionTag → List (Bool × Fault)
  | some (.closing m) =>
    match opened with
    | [] => [(true, .orphanClose m)]
    | (n, _) :: _ => [(!decide (Fits n m), .wrongClose n m)]
  | _ => []

/-- The first of the checks that the tag fails. -/
def firstFault? (table : RuleTable) (strict : Bool) (opened : List (Text × Nat)) (t : Tag Mark) :
    Option Fault :=
  ((t.checks ++ if strict then sectionChecks opened (t.sectionTag? table) else []).find?
    (·.1)).map (·.2)

theorem find?_checks_eq_none_iff (t : Tag Mark) : t.checks.find? (·.1) = none ↔ t.IsProper := by
  constructor
  · intro h
    simp only [checks, List.find?_eq_none, List.mem_cons, List.not_mem_nil, or_false,
      forall_eq_or_imp, forall_eq, Bool.not_eq_true] at h
    obtain ⟨h₁, h₂, h₃, h₄⟩ := h
    exact ⟨h₁, h₂, by simpa using h₃, by simpa using h₄⟩
  · intro h
    obtain ⟨h₁, h₂, h₃, h₄⟩ := h
    simp only [checks, List.find?_eq_none, List.mem_cons, List.not_mem_nil, or_false,
      forall_eq_or_imp, forall_eq, Bool.not_eq_true]
    exact ⟨h₁, h₂, by simpa using h₃, by simpa using h₄⟩

theorem find?_sectionChecks_eq_none_iff (opened : List (Text × Nat)) (tag : Option SectionTag) :
    (sectionChecks opened tag).find? (·.1) = none ↔ (follow opened tag.toList).isSome := by
  obtain - | ⟨name, offset⟩ | m := tag
  · simp [sectionChecks, follow]
  · simp [sectionChecks, follow]
  · cases opened with
    | nil => simp [sectionChecks, follow]
    | cons s opened => by_cases h : Fits s.1 m <;> simp [sectionChecks, follow, h]

theorem firstFault?_eq_none_iff {table : RuleTable} {strict : Bool} {opened : List (Text × Nat)}
    {t : Tag Mark} :
    t.firstFault? table strict opened = none ↔
      t.IsProper ∧ (strict = true → (follow opened (t.sectionTag? table).toList).isSome) := by
  rw [firstFault?, Option.map_eq_none_iff, List.find?_append, Option.or_eq_none_iff,
    find?_checks_eq_none_iff]
  cases strict with
  | false => simp
  | true => simp [← find?_sectionChecks_eq_none_iff]

end Tag

namespace Segment

def sectionTags (table : RuleTable) (segs : List (Segment Mark)) : List SectionTag :=
  segs.filterMap fun
    | .text _ _ => none
    | .tag t => t.sectionTag? table

@[simp] theorem sectionTags_nil (table : RuleTable) : sectionTags table [] = [] := rfl

@[simp] theorem sectionTags_text (table : RuleTable) (s : Text) (offset : Nat)
    (segs : List (Segment Mark)) :
    sectionTags table (.text s offset :: segs) = sectionTags table segs := rfl

@[simp] theorem sectionTags_tag (table : RuleTable) (t : Tag Mark) (segs : List (Segment Mark)) :
    sectionTags table (.tag t :: segs) =
      (t.sectionTag? table).toList ++ sectionTags table segs := by
  cases h : t.sectionTag? table <;> simp [sectionTags, h]

@[simp] theorem sectionTags_append (table : RuleTable) (segs segs' : List (Segment Mark)) :
    sectionTags table (segs ++ segs') = sectionTags table segs ++ sectionTags table segs' :=
  List.filterMap_append

end Segment

namespace Draft

def opened (d : Draft) : List (Text × Nat) := d.sections.map fun s => (s.name, s.offset)

theorem checkClose_eq (sections : List PendingSection) (name : Text) :
    checkClose sections name =
      ((Tag.sectionChecks (sections.map fun s => (s.name, s.offset))
        (some (.closing name))).find? (·.1)).map (·.2) := by
  cases sections with
  | nil => rfl
  | cons s sections =>
    by_cases h : Fits s.name name
    · have h' : ¬ (s.name ≠ [] ∧ name ≠ [] ∧ s.name ≠ name) := by
        rintro ⟨h₁, h₂, h₃⟩
        exact h.elim h₁ fun h => h.elim h₂ h₃
      rw [checkClose, if_neg h']
      simp [Tag.sectionChecks, h]
    · have h' : s.name ≠ [] ∧ name ≠ [] ∧ s.name ≠ name := by
        simpa only [Fits, not_or] using h
      rw [checkClose, if_pos h']
      simp [Tag.sectionChecks, h]

theorem follow_opened (sections : List PendingSection) (name : Text)
    (h : checkClose sections name = none) :
    follow (sections.map fun s => (s.name, s.offset)) [.closing name] =
      some (sections.tail.map fun s => (s.name, s.offset)) := by
  cases sections with
  | nil => simp [checkClose] at h
  | cons s sections =>
    have hf : Fits s.name name := by
      apply Decidable.byContradiction
      intro hf
      rw [checkClose_eq] at h
      simp [Tag.sectionChecks, hf] at h
    simp [follow, hf]

def sectionTagOf (offset : Nat) : Meaning → Option SectionTag
  | .opening name | .inverted name => some (.opening name offset)
  | .closing name => some (.closing name)
  | _ => none

theorem addMeaning_eq (strict : Bool) (d : Draft) (m : Meaning) (unescaped : Bool)
    (offset : Nat) :
    match (((if strict then Tag.sectionChecks d.opened (sectionTagOf offset m) else []).find?
      (·.1)).map (·.2)) with
    | some f => d.addMeaning strict m unescaped offset = .error ⟨f, offset⟩
    | none => ∃ d', d.addMeaning strict m unescaped offset = .ok d' ∧
        (strict = true → follow d.opened (sectionTagOf offset m).toList = some d'.opened) := by
  cases m with
  | opening name | inverted name =>
    cases strict <;>
      exact ⟨_, rfl, fun _ => rfl⟩
  | closing name =>
    cases strict with
    | false => exact ⟨_, rfl, by simp⟩
    | true =>
      have hc := checkClose_eq d.sections name
      cases h : checkClose d.sections name with
      | some f =>
        rw [h] at hc
        simp only [if_true, sectionTagOf, opened, ← hc]
        simp [addMeaning, closeSection, h]
      | none =>
        rw [h] at hc
        simp only [if_true, sectionTagOf, opened, ← hc]
        refine ⟨{ (d.write (Source.statement "endif".toList)) with sections := d.sections.tail },
          by simp [addMeaning, closeSection, h], fun _ => ?_⟩
        exact follow_opened d.sections name h
  | output expr | current | statement code =>
    cases strict <;> exact ⟨_, rfl, fun _ => rfl⟩

theorem addTag_eq_error {table : RuleTable} {strict : Bool} {d : Draft} {t : Tag Mark}
    {check : Bool × Fault} (h : t.checks.find? (·.1) = some check) :
    d.addTag table strict t = .error ⟨check.2, t.position⟩ := by
  unfold Tag.checks at h
  by_cases h₁ : t.opening.isReserved = true
  · rw [List.find?_cons_of_pos (by simpa using h₁)] at h
    cases h
    simp [addTag, tagFault, h₁]
  rw [List.find?_cons_of_neg (by simpa using h₁)] at h
  by_cases h₂ : t.closing.isReserved = true
  · rw [List.find?_cons_of_pos (by simpa using h₂)] at h
    cases h
    simp [addTag, tagFault, h₁, h₂]
  rw [List.find?_cons_of_neg (by simpa using h₂)] at h
  by_cases h₃ : t.openText = Mark.literal .verbatimOpen ∧ t.closing ≠ .tripleClose
  · rw [List.find?_cons_of_pos (by simpa using h₃)] at h
    cases h
    simp [addTag, tagFault, h₁, h₂, h₃]
  rw [List.find?_cons_of_neg (by simpa using h₃)] at h
  by_cases h₄ : t.interpolates = true ∧ Text.trim t.content = []
  · rw [List.find?_cons_of_pos (by simpa using h₄)] at h
    cases h
    have hf : tagFault t = none := by simp [tagFault, h₁, h₂, h₃]
    obtain ⟨hi, he⟩ := h₄
    rw [Tag.interpolates, Bool.or_eq_true, decide_eq_true_eq, decide_eq_true_eq] at hi
    rw [addTag, hf]
    obtain hi | hi := hi <;> simp [addContent, hi, he, Except.map]
  · rw [List.find?_cons_of_neg (by simpa using h₄)] at h
    cases h

theorem sectionTag?_eq (table : RuleTable) {t : Tag Mark} (hi : t.interpolates = true) :
    t.sectionTag? table = sectionTagOf t.position (meaningOf table (Text.trim t.content)) := by
  rw [Tag.sectionTag?, if_pos hi, meaningOf]
  cases table.apply (Text.trim t.content) with
  | none => rfl
  | some m => cases m <;> rfl

theorem addContent_of_isProper {t : Tag Mark} (table : RuleTable) (strict : Bool) (d : Draft)
    (hp : t.IsProper) (hr : t.opening.role = .opening) :
    (t.interpolates = true ∧ ∃ unescaped, d.addContent table strict t =
        d.addMeaning strict (meaningOf table (Text.trim t.content)) unescaped t.position) ∨
      (t.interpolates = false ∧ ∃ s, d.addContent table strict t = .ok (d.write s)) := by
  have hw : d.write [] = d := by simp [write]
  cases ho : t.opening with
  | reservedOpen => simpa [ho, Mark.isReserved] using hp.opening
  | reservedClose | tripleClose | close => simp [ho, Mark.role] at hr
  | commentOpen =>
    exact .inr ⟨by simp [Tag.interpolates, ho], [], by simp [addContent, ho, hw]⟩
  | runOpen =>
    refine .inr ⟨by simp [Tag.interpolates, ho], ?_⟩
    by_cases he : Text.trim t.content = []
    · exact ⟨[], by simp [addContent, ho, he, hw]⟩
    · exact ⟨_, by simp only [addContent, ho, if_neg he]; rfl⟩
  | plainOpen =>
    have hi : t.interpolates = true := by simp [Tag.interpolates, ho]
    exact .inl ⟨hi, false, by simp [addContent, ho, hp.content hi]⟩
  | verbatimOpen =>
    have hi : t.interpolates = true := by simp [Tag.interpolates, ho]
    exact .inl ⟨hi, true, by simp [addContent, ho, hp.content hi]⟩

theorem tagFault_of_isProper {t : Tag Mark} (hp : t.IsProper) : tagFault t = none := by
  have h : ¬ (t.openText = Mark.literal .verbatimOpen ∧ t.closing ≠ .tripleClose) :=
    fun h => h.2 (hp.triple h.1)
  rw [tagFault, hp.opening, hp.closing, if_neg h]
  simp

/-- A tag is complained about for the first check it fails. One that fails none is added, and moves
the open sections on. -/
theorem addTag_eq (table : RuleTable) (strict : Bool) (d : Draft) (t : Tag Mark)
    (hr : t.opening.role = .opening) :
    match t.firstFault? table strict d.opened with
    | some f => d.addTag table strict t = .error ⟨f, t.position⟩
    | none => t.IsProper ∧ ∃ d', d.addTag table strict t = .ok d' ∧
        (strict = true → follow d.opened (t.sectionTag? table).toList = some d'.opened) := by
  rw [Tag.firstFault?, List.find?_append]
  cases hc : t.checks.find? (·.1) with
  | some check => exact addTag_eq_error hc
  | none =>
    have hp := (Tag.find?_checks_eq_none_iff t).mp hc
    rw [Option.none_or, addTag, tagFault_of_isProper hp]
    obtain ⟨hi, u, ha⟩ | ⟨hi, s, ha⟩ := addContent_of_isProper table strict d hp hr
    · have hm := addMeaning_eq strict d (meaningOf table (Text.trim t.content)) u t.position
      rw [sectionTag?_eq table hi]
      simp only [ha]
      split at hm
      · rw [hm]
        rfl
      · obtain ⟨d', hd, ho⟩ := hm
        rw [hd]
        exact ⟨hp, _, rfl, ho⟩
    · have hs : t.sectionTag? table = none := by simp [Tag.sectionTag?, hi]
      simp only [ha, hs]
      cases strict <;> exact ⟨hp, _, rfl, fun _ => rfl⟩

theorem protectedText_spareBrace (t : Tag Mark) :
    Source.protectedText (spareBrace t) = spareBrace t := by
  unfold spareBrace
  split <;> rfl

theorem addTag_eq_ok_iff {table : RuleTable} {strict : Bool} {d d' : Draft} {t : Tag Mark} :
    d.addTag table strict t = .ok d' ↔ tagFault t = none ∧
      ∃ e, d.addContent table strict t = .ok e ∧ e.write (spareBrace t) = d' := by
  rw [addTag]
  cases tagFault t with
  | some fault => simp
  | none =>
    constructor
    · intro h
      exact ⟨rfl, exists_of_map_eq_ok h⟩
    · rintro ⟨-, e, he, rfl⟩
      exact congrArg (Except.map _) he

theorem addSegments_append (table : RuleTable) (strict : Bool) (d : Draft)
    (segs segs' : List (Segment Mark)) :
    addSegments table strict d (segs ++ segs') =
      (addSegments table strict d segs).bind fun d => addSegments table strict d segs' := by
  induction segs generalizing d with
  | nil => rfl
  | cons s segs ih =>
    rw [List.cons_append, addSegments, addSegments]
    cases d.addSegment table strict s with
    | error e => rfl
    | ok d' => exact ih d'

theorem addSegments_of_follow {table : RuleTable} {strict : Bool} {d : Draft}
    {segs : List (Segment Mark)} {opened : List (Text × Nat)}
    (hr : ∀ t, .tag t ∈ segs → t.opening.role = .opening)
    (hp : ∀ t, .tag t ∈ segs → t.IsProper)
    (hf : strict = true → follow d.opened (Segment.sectionTags table segs) = some opened) :
    ∃ d', addSegments table strict d segs = .ok d' ∧ (strict = true → d'.opened = opened) := by
  induction segs generalizing d with
  | nil => exact ⟨d, rfl, fun h => Option.some.inj (hf h)⟩
  | cons s segs ih =>
    have ih {d : Draft} := ih (d := d) (fun t ht => hr t (List.mem_cons_of_mem _ ht))
      fun t ht => hp t (List.mem_cons_of_mem _ ht)
    cases s with
    | text s offset => exact ih hf
    | tag t =>
      have hstep := addTag_eq table strict d t (hr t (List.mem_cons_self ..))
      have hbind (h : strict = true) :
          (follow d.opened (t.sectionTag? table).toList).bind
            (fun st => follow st (Segment.sectionTags table segs)) = some opened := by
        rw [← follow_append, ← Segment.sectionTags_tag]
        exact hf h
      -- A closing tag that `follow` accepts has the right name, so that no check fails.
      have hnone : t.firstFault? table strict d.opened = none := by
        refine Tag.firstFault?_eq_none_iff.mpr ⟨hp t (List.mem_cons_self ..), fun h => ?_⟩
        exact Option.isSome_of_isSome_bind (by rw [hbind h]; rfl)
      rw [hnone] at hstep
      obtain ⟨-, d', hd, hopened⟩ := hstep
      have hrest (h : strict = true) :
          follow d'.opened (Segment.sectionTags table segs) = some opened := by
        have hb := hbind h
        rwa [hopened h, Option.bind_some] at hb
      obtain ⟨d'', hd', ho⟩ := ih hrest
      refine ⟨d'', ?_, ho⟩
      rw [addSegments, addSegment, hd]
      exact hd'

end Draft

namespace Source

/-- The tags of the segments have no fault and leave those sections open. -/
structure Clears (table : RuleTable) (strict : Bool) (segs : List (Segment Mark))
    (opened : List (Text × Nat)) : Prop where
  proper : ∀ t, .tag t ∈ segs → t.IsProper
  leaves : strict = true → LeavesOpen (Segment.sectionTags table segs) opened

def Accepts (table : RuleTable) (strict : Bool) (text : Text) : Prop :=
  ∃ segs, Mark.table.segments text = .ok segs ∧ (∀ t, .tag t ∈ segs → t.IsProper) ∧
    (strict = true → WellNested (Segment.sectionTags table segs))

/-- What a text is complained about for. -/
inductive FirstComplaint (table : RuleTable) (strict : Bool) (text : Text) : Complaint → Prop
  | pairing {e : PairingError} :
      Mark.table.segments text = .error e → FirstComplaint table strict text ⟨.pairing e, e.offset⟩
  | tag {before behind : List (Segment Mark)} {t : Tag Mark} {opened : List (Text × Nat)}
      {f : Fault} :
      Mark.table.segments text = .ok (before ++ .tag t :: behind) →
        Clears table strict before opened → t.firstFault? table strict opened = some f →
          FirstComplaint table strict text ⟨f, t.position⟩
  | unclosed {segs : List (Segment Mark)} {name : Text} {offset : Nat}
      {opened : List (Text × Nat)} :
      Mark.table.segments text = .ok segs → strict = true →
        Clears table strict segs ((name, offset) :: opened) →
          FirstComplaint table strict text ⟨.unclosedSection name, offset⟩

theorem Clears.text {table : RuleTable} {strict : Bool} {segs : List (Segment Mark)}
    {opened : List (Text × Nat)} (h : Clears table strict segs opened) (s : Text) (offset : Nat) :
    Clears table strict (segs ++ [.text s offset]) opened := by
  refine ⟨fun t ht => h.proper t (by simpa using ht), fun hs => ?_⟩
  simpa using h.leaves hs

theorem Clears.tag {table : RuleTable} {strict : Bool} {segs : List (Segment Mark)}
    {opened : List (Text × Nat)} {t : Tag Mark} (h : Clears table strict segs opened)
    (ht : t.firstFault? table strict opened = none) :
    ∃ opened', Clears table strict (segs ++ [.tag t]) opened' := by
  obtain ⟨hp, hf⟩ := Tag.firstFault?_eq_none_iff.mp ht
  have hproper : ∀ t', .tag t' ∈ segs ++ [Segment.tag t] → t'.IsProper := by
    intro t' hm
    obtain hm | hm := List.mem_append.mp hm
    · exact h.proper t' hm
    · simp only [List.mem_singleton, Segment.tag.injEq] at hm
      exact hm ▸ hp
  cases strict with
  | false => exact ⟨opened, hproper, by simp⟩
  | true =>
    obtain ⟨opened', ho⟩ := Option.isSome_iff_exists.mp (hf rfl)
    refine ⟨opened', hproper, fun _ => ?_⟩
    simpa using (h.leaves rfl).of_follow ho

theorem Clears.append_or_fault {table : RuleTable} {strict : Bool}
    {before : List (Segment Mark)} {opened : List (Text × Nat)}
    (h : Clears table strict before opened) (segs : List (Segment Mark)) :
    (∃ opened', Clears table strict (before ++ segs) opened') ∨
      ∃ before' t behind opened' f, before ++ segs = before' ++ .tag t :: behind ∧
        Clears table strict before' opened' ∧ t.firstFault? table strict opened' = some f := by
  induction segs generalizing before opened with
  | nil => exact .inl ⟨opened, by simpa using h⟩
  | cons s segs ih =>
    have hsplit : before ++ s :: segs = (before ++ [s]) ++ segs := by simp
    cases s with
    | text s offset =>
      rw [hsplit]
      exact ih (h.text s offset)
    | tag t =>
      cases hf : t.firstFault? table strict opened with
      | some f => exact .inr ⟨before, t, segs, opened, f, rfl, h, hf⟩
      | none =>
        obtain ⟨opened', h'⟩ := h.tag hf
        rw [hsplit]
        exact ih h'

theorem Clears.addSegments {table : RuleTable} {strict : Bool} {segs : List (Segment Mark)}
    {opened : List (Text × Nat)} (h : Clears table strict segs opened)
    (hr : ∀ t, .tag t ∈ segs → t.opening.role = .opening) :
    ∃ d, Draft.addSegments table strict {} segs = .ok d ∧
      (strict = true → d.opened = opened) :=
  Draft.addSegments_of_follow hr h.proper fun hs => (h.leaves hs).follow_eq

theorem accepts_or_complaint (table : RuleTable) (strict : Bool) (text : Text) :
    Accepts table strict text ∨ ∃ c, FirstComplaint table strict text c := by
  cases hs : Mark.table.segments text with
  | error e => exact .inr ⟨_, .pairing hs⟩
  | ok segs =>
    have hnil : Clears table strict [] [] := ⟨by simp, fun _ => .closed .nil⟩
    obtain ⟨opened, h⟩ | ⟨before, t, behind, opened, f, he, h, hf⟩ := hnil.append_or_fault segs
    · rw [List.nil_append] at h
      cases strict with
      | false => exact .inl ⟨segs, hs, h.proper, by simp⟩
      | true =>
        cases opened with
        | nil =>
          have hw := wellNested_iff_leavesOpen.mpr (h.leaves rfl)
          exact .inl ⟨segs, hs, h.proper, fun _ => hw⟩
        | cons s opened => exact .inr ⟨_, .unclosed hs rfl h⟩
    · rw [List.nil_append] at he
      exact .inr ⟨_, .tag (he ▸ hs) h hf⟩

theorem ofTemplate_eq_ok_iff {table : RuleTable} {strict : Bool} {text s : Text} :
    ofTemplate table strict text = .ok s ↔
      ∃ segs, Mark.table.segments text = .ok segs ∧ ofSegments table strict segs = .ok s := by
  rw [ofTemplate]
  cases Mark.table.segments text <;> simp

theorem ofTemplate_of_accepts {table : RuleTable} {strict : Bool} {text : Text}
    (h : Accepts table strict text) : ∃ s, ofTemplate table strict text = .ok s := by
  obtain ⟨segs, hs, hp, hw⟩ := h
  have hc : Clears table strict segs [] := ⟨hp, fun h => .closed (hw h)⟩
  obtain ⟨d, hd, ho⟩ := hc.addSegments fun t ht => (Mark.role_of_mem_segments hs ht).1
  refine ⟨d.source, ?_⟩
  rw [ofTemplate, hs]
  simp only [ofSegments, hd]
  change Draft.finish strict d = _
  unfold Draft.finish
  cases hsec : d.sections with
  | nil => rfl
  | cons s sections =>
    cases strict with
    | false => rfl
    | true => simpa [Draft.opened, hsec] using ho rfl

theorem ofTemplate_of_complaint {table : RuleTable} {strict : Bool} {text : Text} {c : Complaint}
    (h : FirstComplaint table strict text c) : ofTemplate table strict text = .error c := by
  cases h with
  | pairing hs => rw [ofTemplate, hs]
  | @tag before behind t opened f hs hc hf =>
    have hr := fun t ht => (Mark.role_of_mem_segments hs (t := t) ht).1
    obtain ⟨d, hd, ho⟩ := hc.addSegments fun t ht => hr t (List.mem_append_left _ ht)
    have hstep := Draft.addTag_eq table strict d t (hr t (by simp))
    have hf' : t.firstFault? table strict d.opened = some f := by
      cases strict with
      | false => exact hf
      | true => rw [ho rfl, hf]
    rw [hf'] at hstep
    rw [ofTemplate, hs]
    simp only [ofSegments, Draft.addSegments_append, hd]
    change (((d.addTag table strict t).bind _).bind _) = _
    rw [hstep]
    rfl
  | @unclosed segs name offset opened hs hstrict hc =>
    subst hstrict
    obtain ⟨d, hd, ho⟩ := hc.addSegments fun t ht => (Mark.role_of_mem_segments hs ht).1
    have ho := ho rfl
    rw [ofTemplate, hs]
    simp only [ofSegments, hd]
    change Draft.finish true d = _
    unfold Draft.finish
    cases hsec : d.sections with
    | nil => simp [Draft.opened, hsec] at ho
    | cons s sections =>
      simp only [Draft.opened, hsec, List.map_cons, List.cons.injEq, Prod.mk.injEq] at ho
      obtain ⟨⟨rfl, rfl⟩, -⟩ := ho
      rfl

theorem ofTemplate_eq_error_iff {table : RuleTable} {strict : Bool} {text : Text}
    {c : Complaint} :
    ofTemplate table strict text = .error c ↔ FirstComplaint table strict text c := by
  refine ⟨fun h => ?_, ofTemplate_of_complaint⟩
  obtain ha | ⟨c', hc⟩ := accepts_or_complaint table strict text
  · obtain ⟨s, hs⟩ := ofTemplate_of_accepts ha
    rw [hs] at h
    cases h
  · rw [ofTemplate_of_complaint hc] at h
    cases h
    exact hc

end Source

namespace Template

theorem script_eq_ok_iff {table : RuleTable} {name text s : Text} {o : Options} :
    script table name text o = .ok s ↔ Source.ofTemplate table o.strictSections text = .ok s := by
  rw [script]
  cases Source.ofTemplate table o.strictSections text with
  | error c => exact ⟨nofun, nofun⟩
  | ok s' =>
    exact ⟨fun h => congrArg Except.ok (Except.ok.inj h),
      fun h => congrArg Except.ok (Except.ok.inj h)⟩

theorem ofScript_eq_ok_iff {helpers : HelperTable} {name source : Text} {o : Options}
    {T : Template} :
    ofScript helpers name source o = .ok T ↔
      ∃ ss, Script.Stmt.readAll Script.Stmt.maxDepth o.keepTrailingNewline source = .ok ss ∧
        T = ⟨name, .script source o.escape ss, helpers⟩ := by
  rw [ofScript, ofScriptWithin]
  cases Script.Stmt.readAll Script.Stmt.maxDepth o.keepTrailingNewline source <;> simp [eq_comm]

theorem compile_eq_ok_iff {table : RuleTable} {helpers : HelperTable} {name text : Text}
    {o : Options} {T : Template} :
    compile table helpers name text o = .ok T ↔
      ∃ source, Source.ofTemplate table o.strictSections text = .ok source ∧
        ofScript helpers name source o = .ok T := by
  constructor
  · intro h
    obtain ⟨source, hs, h⟩ := exists_of_bind_eq_ok h
    exact ⟨source, script_eq_ok_iff.mp hs, h⟩
  · rintro ⟨source, hs, h⟩
    rw [compile, compileWithin, script_eq_ok_iff.mpr hs]
    exact h

theorem compileWithin_malformed_iff (limit : Nat) (table : RuleTable) (helpers : HelperTable)
    (name text : Text) (o : Options) (d : Diagnostic) :
    compileWithin limit table helpers name text o = .error (.malformed d) ↔
      script table name text o = .error (.malformed d) := by
  rw [compileWithin]
  cases hs : script table name text o with
  | error e => simp [Except.bind]
  | ok s =>
    simp only [Except.bind, ofScriptWithin, reduceCtorEq, iff_false]
    split <;> simp

end Template

end Curly

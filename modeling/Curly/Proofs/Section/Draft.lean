import Curly.Proofs.Section.Action

namespace Curly

open Script

namespace Action

/-- The name of the innermost section that is named and not inverted; outside of all such
sections, the name of the whole data. -/
def context (opened : List (Text × Bool)) : Text :=
  match opened.find? fun s => !s.2 && s.1 ≠ [] with
  | some s => s.1
  | none => Path.data

def guardName (opened : List (Text × Bool)) (name : Text) : Text :=
  if name = [] then context opened else name

def fragment (opened : List (Text × Bool)) (verbatim : Bool) : Action → Fragment
  | opening name inverted => .opening (guardName opened name) inverted
  | closing _ => .ending
  | here => .here (context opened) verbatim
  | lookup name segments => .lookup name segments verbatim

theorem context_isWord {opened : List (Text × Bool)}
    (h : ∀ s ∈ opened, Path.isWord s.1 = true) :
    context opened ≠ [] ∧ Path.isWord (context opened) = true := by
  unfold context
  cases hf : opened.find? fun s => !s.2 && s.1 ≠ [] with
  | none => decide
  | some s =>
    have hs := List.find?_some hf
    simp only [Bool.and_eq_true, decide_eq_true_eq] at hs
    exact ⟨hs.2, h s (List.mem_of_find?_eq_some hf)⟩

theorem guardName_isWord {opened : List (Text × Bool)}
    (h : ∀ s ∈ opened, Path.isWord s.1 = true) {name : Text} (hn : Path.isWord name = true) :
    guardName opened name ≠ [] ∧ Path.isWord (guardName opened name) = true := by
  unfold guardName
  by_cases he : name = []
  · rw [if_pos he]
    exact context_isWord h
  · rw [if_neg he]
    exact ⟨he, hn⟩

theorem step_isWord {opened : List (Text × Bool)} (h : ∀ s ∈ opened, Path.isWord s.1 = true)
    {a : Action} {content : Text} (ha : a.IsWritten content) :
    ∀ s ∈ a.step opened, Path.isWord s.1 = true := by
  cases ha with
  | opening hw | inverted hw => simpa [step, hw] using fun n i hm => h (n, i) hm
  | closing => exact fun s hm => h s (List.mem_of_mem_tail hm)
  | here | lookup => exact h

theorem isReadable_of_isName {segments : List Text} (h : ∀ w ∈ segments, Piece.IsName w) :
    Path.isReadable segments = true := by
  induction segments with
  | nil => rfl
  | cons segment segments ih =>
    have hd : Path.startsWithDigit segment = false := by
      have hs := (h segment (List.mem_cons_self ..)).start
      cases segment with
      | nil => rfl
      | cons c segment => exact Piece.isDigit_of_isWordStart (by simpa using hs)
    rw [Path.isReadable, hd, ih fun w hm => h w (List.mem_cons_of_mem _ hm)]
    rfl

theorem isRead_fragment {opened : List (Text × Bool)} (h : ∀ s ∈ opened, Path.isWord s.1 = true)
    {a : Action} {content : Text} (ha : a.IsWritten content) (verbatim : Bool) :
    (a.fragment opened verbatim).IsRead := by
  cases ha with
  | opening hw | inverted hw =>
    obtain ⟨hne, hg⟩ := guardName_isWord h hw
    exact Fragment.isRead_opening hne hg _
  | closing => exact Fragment.isRead_ending
  | here =>
    obtain ⟨hne, hc⟩ := context_isWord h
    exact Fragment.isRead_here hne hc verbatim
  | lookup hne hw hs =>
    exact Fragment.isRead_lookup hne hw (fun w hm => ⟨(hs w hm).ne_nil, (hs w hm).rest⟩)
      (isReadable_of_isName hs) verbatim

theorem isSimple_fragment (opened : List (Text × Bool)) (a : Action) (verbatim : Bool) :
    (a.fragment opened verbatim).IsSimple := by
  cases a with
  | opening name inverted => exact Fragment.isSimple_opening _ inverted
  | closing name => exact .closing
  | here => exact Fragment.isSimple_here _ verbatim
  | lookup name segments => exact Fragment.isSimple_lookup name segments verbatim

end Action

namespace Segment

/-- The fragments that plain segments become, and the open sections before and behind them. -/
inductive Writes : List (Text × Bool) → List (Segment Mark) → List (Text × Bool) →
    List Fragment → Prop
  | nil {opened : List (Text × Bool)} : Writes opened [] opened []
  | text {opened opened' : List (Text × Bool)} {segs : List (Segment Mark)}
      {fs : List Fragment} {s : Text} {offset : Nat} :
      Writes opened segs opened' fs →
        Writes opened (.text s offset :: segs) opened' (Fragment.ofText s ++ fs)
  | silent {opened opened' : List (Text × Bool)} {segs : List (Segment Mark)}
      {fs : List Fragment} {t : Tag Mark} :
      t.IsProper → t.Does none → Writes opened segs opened' fs →
        Writes opened (.tag t :: segs) opened' (.plain (Draft.spareBrace t) :: fs)
  | action {opened opened' : List (Text × Bool)} {segs : List (Segment Mark)}
      {fs : List Fragment} {t : Tag Mark} {a : Action} :
      t.IsProper → t.Does (some a) → Writes (a.step opened) segs opened' fs →
        Writes opened (.tag t :: segs) opened'
          (a.fragment opened t.isVerbatim :: .plain (Draft.spareBrace t) :: fs)

theorem exists_writes {segs : List (Segment Mark)} (h : ∀ t, .tag t ∈ segs → t.IsPlain)
    (opened : List (Text × Bool)) : ∃ opened' fs, Writes opened segs opened' fs := by
  induction segs generalizing opened with
  | nil => exact ⟨opened, [], .nil⟩
  | cons s segs ih =>
    have ih := ih fun t hm => h t (List.mem_cons_of_mem _ hm)
    cases s with
    | text s offset =>
      obtain ⟨opened', fs, hw⟩ := ih opened
      exact ⟨opened', _, .text hw⟩
    | tag t =>
      obtain ⟨hp, a, hd⟩ := h t (List.mem_cons_self ..)
      cases a with
      | none =>
        obtain ⟨opened', fs, hw⟩ := ih opened
        exact ⟨opened', _, .silent hp hd hw⟩
      | some a =>
        obtain ⟨opened', fs, hw⟩ := ih (a.step opened)
        exact ⟨opened', _, .action hp hd hw⟩

theorem spareBrace_isRead (t : Tag Mark) : (Fragment.plain (Draft.spareBrace t)).IsRead := by
  refine .plain ?_
  unfold Draft.spareBrace
  split <;> decide

theorem Writes.isRead {opened opened' : List (Text × Bool)} {segs : List (Segment Mark)}
    {fs : List Fragment} (h : Writes opened segs opened' fs)
    (ho : ∀ s ∈ opened, Path.isWord s.1 = true) : ∀ f ∈ fs, f.IsRead := by
  induction h with
  | nil => simp
  | @text opened opened' segs fs s offset _ ih =>
    intro f hf
    obtain hf | hf := List.mem_append.mp hf
    · exact Fragment.isRead_ofText s f hf
    · exact ih ho f hf
  | @silent opened opened' segs fs t _ _ _ ih =>
    intro f hf
    obtain rfl | hf := List.mem_cons.mp hf
    · exact spareBrace_isRead t
    · exact ih ho f hf
  | @action opened opened' segs fs t a _ hd _ ih =>
    obtain ⟨-, ha⟩ := hd.isWritten
    intro f hf
    obtain rfl | hf := List.mem_cons.mp hf
    · exact Action.isRead_fragment ho ha _
    · obtain rfl | hf := List.mem_cons.mp hf
      · exact spareBrace_isRead t
      · exact ih (Action.step_isWord ho ha) f hf

theorem Writes.isSimple {opened opened' : List (Text × Bool)} {segs : List (Segment Mark)}
    {fs : List Fragment} (h : Writes opened segs opened' fs) : ∀ f ∈ fs, f.IsSimple := by
  induction h with
  | nil => simp
  | @text opened opened' segs fs s offset _ ih =>
    intro f hf
    obtain hf | hf := List.mem_append.mp hf
    · exact Fragment.isSimple_ofText s f hf
    · exact ih f hf
  | silent _ _ _ ih =>
    intro f hf
    obtain rfl | hf := List.mem_cons.mp hf
    · exact .plain
    · exact ih f hf
  | action _ _ _ ih =>
    intro f hf
    obtain rfl | hf := List.mem_cons.mp hf
    · exact Action.isSimple_fragment _ _ _
    · obtain rfl | hf := List.mem_cons.mp hf
      · exact .plain
      · exact ih f hf

end Segment

namespace Draft

/-- The open sections of the draft are those, and the guards are the lookups of their names. -/
structure Matches (d : Draft) (opened : List (Text × Bool)) : Prop where
  sections : d.sections.map (fun s => (s.name, s.inverted)) = opened
  guards : ∀ s ∈ d.sections, s.name ≠ [] → s.guard = Path.rootLookup s.name

theorem rootLookup_data : Path.rootLookup Path.data = Path.data := by decide

theorem Matches.current_eq {d : Draft} {opened : List (Text × Bool)} (h : d.Matches opened) :
    current d.sections = Path.rootLookup (Action.context opened) := by
  rw [current, Action.context, ← h.sections, List.find?_map]
  cases hf : d.sections.find? fun s => !s.inverted && s.name ≠ [] with
  | none =>
    have hf' : d.sections.find? ((fun s : Text × Bool => !s.2 && s.1 ≠ []) ∘
        fun s => (s.name, s.inverted)) = none := hf
    rw [hf', Option.map_none, rootLookup_data]
  | some s =>
    have hf' : d.sections.find? ((fun s : Text × Bool => !s.2 && s.1 ≠ []) ∘
        fun s => (s.name, s.inverted)) = some s := hf
    have hs := List.find?_some hf
    simp only [Bool.and_eq_true, decide_eq_true_eq] at hs
    rw [hf', Option.map_some]
    exact h.guards s (List.mem_of_find?_eq_some hf) hs.2

theorem Matches.guard_eq {d : Draft} {opened : List (Text × Bool)} (h : d.Matches opened)
    (name : Text) : guard d.sections name = Path.rootLookup (Action.guardName opened name) := by
  rw [guard, Action.guardName, h.current_eq]
  split <;> rfl

theorem Matches.write {d : Draft} {opened : List (Text × Bool)} (h : d.Matches opened) (s : Text) :
    (d.write s).Matches opened := ⟨h.sections, h.guards⟩

theorem Matches.openSection {d : Draft} {opened : List (Text × Bool)} (h : d.Matches opened)
    (name : Text) (inverted : Bool) (offset : Nat) :
    (d.openSection name inverted offset).source =
        d.source ++ (Fragment.opening (Action.guardName opened name) inverted).source ∧
      (d.openSection name inverted offset).Matches ((name, inverted) :: opened) := by
  have hg := h.guard_eq name
  refine ⟨?_, ?_, ?_⟩
  · rw [Draft.openSection, hg]
    cases inverted <;> rfl
  · rw [← h.sections]
    rfl
  · intro s hs hne
    obtain rfl | hs := List.mem_cons.mp hs
    · change guard d.sections name = Path.rootLookup name
      have hguard : Action.guardName opened name = name := if_neg hne
      rw [hg, hguard]
    · exact h.guards s hs hne

theorem Matches.closeSection {d : Draft} {opened : List (Text × Bool)} (h : d.Matches opened)
    (name : Text) (offset : Nat) :
    ∃ d', d.closeSection false name offset = .ok d' ∧
      d'.source = d.source ++ Fragment.ending.source ∧ d'.Matches opened.tail := by
  refine ⟨_, rfl, rfl, ?_, fun s hs => h.guards s (List.mem_of_mem_tail hs)⟩
  rw [← h.sections]
  exact List.map_tail

theorem addMeaning_action {d : Draft} {opened : List (Text × Bool)} (h : d.Matches opened)
    (a : Action) (verbatim : Bool) (offset : Nat) :
    ∃ d', d.addMeaning false a.meaning verbatim offset = .ok d' ∧
      d'.source = d.source ++ (a.fragment opened verbatim).source ∧
      d'.Matches (a.step opened) := by
  cases a with
  | opening name inverted =>
    cases inverted <;> exact ⟨_, rfl, h.openSection name _ offset⟩
  | closing name => exact h.closeSection name offset
  | here =>
    refine ⟨_, rfl, ?_, h.write _⟩
    rw [h.current_eq, Path.output_eq]
    rfl
  | lookup name segments =>
    refine ⟨_, rfl, ?_, h.write _⟩
    rw [Path.output_eq]
    rfl

theorem addContent_action {t : Tag Mark} {a : Action} (ht : t.Does (some a)) (hp : t.IsProper)
    (strict : Bool) (d : Draft) :
    d.addContent .stock strict t = d.addMeaning strict a.meaning t.isVerbatim t.position := by
  obtain ⟨hi, hw⟩ := ht.isWritten
  have hne := hp.content hi
  have hm : meaningOf .stock (Text.trim t.content) = a.meaning := by
    rw [meaningOf, RuleTable.apply_stock hw]
    rfl
  rw [Tag.interpolates, Bool.or_eq_true, decide_eq_true_eq, decide_eq_true_eq] at hi
  obtain hi | hi := hi <;> simp [addContent, hi, hne, hm, Tag.isVerbatim]

theorem addContent_silent {t : Tag Mark} (ht : t.Does none) (strict : Bool) (d : Draft) :
    d.addContent .stock strict t = .ok d := by
  cases ht with
  | comment ho => simp [addContent, ho]
  | blankRun ho he => simp [addContent, ho, he]

theorem addSegments_of_writes {opened opened' : List (Text × Bool)} {segs : List (Segment Mark)}
    {fs : List Fragment} (h : Segment.Writes opened segs opened' fs) {d : Draft}
    (hd : d.Matches opened) :
    ∃ d', addSegments .stock false d segs = .ok d' ∧
      d'.source = d.source ++ Fragment.sources fs ∧ d'.Matches opened' := by
  induction h generalizing d with
  | nil => exact ⟨d, rfl, (List.append_nil _).symm, hd⟩
  | @text opened opened' segs fs s offset _ ih =>
    obtain ⟨d', hs, hsource, hm⟩ := ih (hd.write (Source.protectedText s))
    refine ⟨d', hs, ?_, hm⟩
    rw [hsource, Fragment.sources_append, Fragment.sources_ofText, ← List.append_assoc]
    rfl
  | @silent opened opened' segs fs t hp ht _ ih =>
    obtain ⟨d', hs, hsource, hm⟩ := ih (hd.write (spareBrace t))
    refine ⟨d', ?_, ?_, hm⟩
    · rw [addSegments, addSegment, addTag, tagFault_of_isProper hp, addContent_silent ht]
      exact hs
    · rw [hsource]
      simp [write, Fragment.sources, Fragment.source]
  | @action opened opened' segs fs t a hp ht _ ih =>
    obtain ⟨d₁, hadd, hsource₁, hm₁⟩ := addMeaning_action hd a t.isVerbatim t.position
    obtain ⟨d', hs, hsource, hm⟩ := ih (hm₁.write (spareBrace t))
    refine ⟨d', ?_, ?_, hm⟩
    · rw [addSegments, addSegment, addTag, tagFault_of_isProper hp, addContent_action ht hp, hadd]
      exact hs
    · rw [hsource]
      simp [write, hsource₁, Fragment.sources, Fragment.source]

theorem addMeaning_of_strict {d d' : Draft} {m : Meaning} {unescaped : Bool} {offset : Nat}
    (h : d.addMeaning true m unescaped offset = .ok d') :
    d.addMeaning false m unescaped offset = .ok d' := by
  cases m with
  | closing name =>
    rw [addMeaning, Draft.closeSection] at h
    split at h
    · cases h
    · exact h
  | _ => exact h

theorem addContent_of_strict {table : RuleTable} {d d' : Draft} {t : Tag Mark}
    (h : d.addContent table true t = .ok d') : d.addContent table false t = .ok d' := by
  cases ho : t.opening with
  | plainOpen | verbatimOpen =>
    simp only [addContent, ho] at h ⊢
    split at h
    · cases h
    · next he =>
      rw [if_neg he]
      exact addMeaning_of_strict h
  | commentOpen | runOpen =>
    simp only [addContent, ho] at h ⊢
    exact h
  | _ =>
    simp only [addContent, ho] at h
    cases h

theorem addTag_of_strict {table : RuleTable} {d d' : Draft} {t : Tag Mark}
    (h : d.addTag table true t = .ok d') : d.addTag table false t = .ok d' := by
  obtain ⟨hf, d₁, hc, hd⟩ := addTag_eq_ok_iff.mp h
  exact addTag_eq_ok_iff.mpr ⟨hf, d₁, addContent_of_strict hc, hd⟩

theorem addSegments_of_strict {table : RuleTable} {d d' : Draft} {segs : List (Segment Mark)}
    (h : addSegments table true d segs = .ok d') : addSegments table false d segs = .ok d' := by
  induction segs generalizing d with
  | nil => exact h
  | cons s segs ih =>
    obtain ⟨d₁, hs, h⟩ := exists_of_bind_eq_ok h
    have hs' : d.addSegment table false s = .ok d₁ := by
      cases s with
      | text s offset => exact hs
      | tag t => exact addTag_of_strict hs
    rw [addSegments, hs']
    exact ih h

end Draft

namespace Source

theorem ofTemplate_of_strict {table : RuleTable} {text s : Text}
    (h : ofTemplate table true text = .ok s) : ofTemplate table false text = .ok s := by
  obtain ⟨segs, hsegs, h⟩ := ofTemplate_eq_ok_iff.mp h
  obtain ⟨⟨source, sections⟩, hd, hfinish⟩ := exists_of_bind_eq_ok h
  refine ofTemplate_eq_ok_iff.mpr ⟨segs, hsegs, ?_⟩
  rw [ofSegments, Draft.addSegments_of_strict hd]
  cases sections with
  | nil => exact hfinish
  | cons s sections => cases hfinish

end Source

end Curly

import Curly.Proofs.Section.Outline

namespace Curly

open SectionTag

/-- A part of a template that is no section. -/
inductive Leaf where
  | text (s : Text)
  | output (expr : Text) (verbatim : Bool)
  | here (verbatim : Bool)
  | code (s : Text)
deriving DecidableEq, Repr

/-- What stands in a template or in a section, up to its end. -/
inductive Forest where
  | done
  | leaf (l : Leaf) (rest : Forest)
  | block (name : Text) (inverted : Bool) (body rest : Forest)
deriving DecidableEq, Repr

def Leaf.script (current : Text) : Leaf → Text
  | text s => Source.protectedText s
  | output expr verbatim => Source.output expr verbatim
  | here verbatim => Source.output current verbatim
  | code s => Source.statement s

namespace Forest

def guard (current name : Text) : Text := if name = [] then current else Path.rootLookup name

/-- What `.` stands for inside a section. -/
def scope (current name : Text) (inverted : Bool) : Text :=
  if name ≠ [] ∧ inverted = false then guard current name else current

def script : (current : Text) → Forest → Text
  | _, done => []
  | current, leaf l rest => l.script current ++ script current rest
  | current, block name inverted body rest =>
    let test := if inverted then "if not ".toList else "if ".toList
    Source.statement (test ++ guard current name) ++
      (script (scope current name inverted) body ++
        (Source.statement "endif".toList ++ script current rest))

end Forest

namespace Meaning

def opens? : Meaning → Option (Text × Bool)
  | opening name => some (name, false)
  | inverted name => some (name, true)
  | _ => none

def leaf? (verbatim : Bool) : Meaning → Option Leaf
  | output expr => some (.output expr verbatim)
  | current => some (.here verbatim)
  | statement code => some (.code code)
  | _ => none

end Meaning

namespace Tag

def meaning? (table : RuleTable) (t : Tag Mark) : Option Meaning :=
  match t.opening with
  | .plainOpen | .verbatimOpen => some (Draft.meaningOf table (Text.trim t.content))
  | .runOpen =>
    if Text.trim t.content = [] then none else some (.statement (Text.trim t.content))
  | _ => none

theorem sectionTag?_eq_bind (table : RuleTable) (t : Tag Mark) :
    t.sectionTag? table = (t.meaning? table).bind (Draft.sectionTagOf t.position) := by
  cases ho : t.opening with
  | plainOpen | verbatimOpen =>
    have hi : t.interpolates = true := by simp [interpolates, ho]
    rw [Draft.sectionTag?_eq table hi, meaning?, ho]
    rfl
  | runOpen =>
    simp only [sectionTag?, interpolates, meaning?, ho]
    by_cases he : Text.trim t.content = []
    · simp [he]
    · simp [he, Draft.sectionTagOf]
  | _ => simp [sectionTag?, interpolates, meaning?, ho]

end Tag

namespace Segment

/-- The segments are those of the forest: each closing tag belongs to the innermost open section. A
brace that a tag leaves over is text. -/
inductive Parses (table : RuleTable) : List (Segment Mark) → Forest → Prop
  | done : Parses table [] .done
  | text {segs : List (Segment Mark)} {f : Forest} {s : Text} {offset : Nat} :
      Parses table segs f → Parses table (.text s offset :: segs) (.leaf (.text s) f)
  | silent {segs : List (Segment Mark)} {f : Forest} {t : Tag Mark} :
      t.meaning? table = none → Parses table segs f →
        Parses table (.tag t :: segs) (.leaf (.text (Draft.spareBrace t)) f)
  | leaf {segs : List (Segment Mark)} {f : Forest} {t : Tag Mark} {l : Leaf} :
      (t.meaning? table).bind (·.leaf? t.isVerbatim) = some l → Parses table segs f →
        Parses table (.tag t :: segs) (.leaf l (.leaf (.text (Draft.spareBrace t)) f))
  | block {body rest : List (Segment Mark)} {b r : Forest} {t u : Tag Mark} {name name' : Text}
      {inverted : Bool} :
      (t.meaning? table).bind Meaning.opens? = some (name, inverted) →
        u.meaning? table = some (.closing name') → Fits name name' →
          Parses table body b → Parses table rest r →
            Parses table (.tag t :: (body ++ .tag u :: rest))
              (.block name inverted (.leaf (.text (Draft.spareBrace t)) b)
                (.leaf (.text (Draft.spareBrace u)) r))

variable {table : RuleTable} {segs : List (Segment Mark)} {f : Forest}

theorem sectionTag?_of_opens? {t : Tag Mark} {name : Text} {inverted : Bool}
    (h : (t.meaning? table).bind Meaning.opens? = some (name, inverted)) :
    t.sectionTag? table = some (.opening name t.position) := by
  obtain ⟨m, hm, ho⟩ := Option.bind_eq_some_iff.mp h
  rw [Tag.sectionTag?_eq_bind, hm, Option.bind_some]
  cases m <;> cases ho <;> rfl

theorem sectionTag?_of_closing {t : Tag Mark} {name : Text}
    (h : t.meaning? table = some (.closing name)) :
    t.sectionTag? table = some (.closing name) := by
  rw [Tag.sectionTag?_eq_bind, h]
  rfl

theorem sectionTag?_of_leaf? {t : Tag Mark} {l : Leaf}
    (h : (t.meaning? table).bind (·.leaf? t.isVerbatim) = some l) : t.sectionTag? table = none := by
  obtain ⟨m, hm, hl⟩ := Option.bind_eq_some_iff.mp h
  rw [Tag.sectionTag?_eq_bind, hm, Option.bind_some]
  cases m <;> cases hl <;> rfl

theorem sectionTag?_of_silent {t : Tag Mark} (h : t.meaning? table = none) :
    t.sectionTag? table = none := by
  rw [Tag.sectionTag?_eq_bind, h]
  rfl

namespace Parses

theorem wellNested (h : Parses table segs f) : WellNested (sectionTags table segs) := by
  induction h with
  | done => exact .nil
  | text _ ih => exact ih
  | silent hm _ ih =>
    rw [sectionTags_tag, sectionTag?_of_silent hm]
    exact ih
  | leaf hl _ ih =>
    rw [sectionTags_tag, sectionTag?_of_leaf? hl]
    exact ih
  | block ho hc hf _ _ ihb ihr =>
    rw [sectionTags_tag, sectionTags_append, sectionTags_tag, sectionTag?_of_opens? ho,
      sectionTag?_of_closing hc]
    exact .block hf ihb ihr

theorem not_append_closing {u : Tag Mark} {name : Text} {rest : List (Segment Mark)}
    {f' : Forest} (h : Parses table segs f) (hu : u.meaning? table = some (.closing name)) :
    ¬Parses table (segs ++ .tag u :: rest) f' := by
  intro h'
  have hf := h'.wellNested.follow_eq []
  rw [sectionTags_append, follow_append, h.wellNested.follow_eq, sectionTags_tag,
    sectionTag?_of_closing hu] at hf
  cases hf

theorem body_unique {body body' rest rest' : List (Segment Mark)} {b b' : Forest} {u u' : Tag Mark}
    {name name' : Text} (hb : Parses table body b) (hb' : Parses table body' b')
    (hu : u.meaning? table = some (.closing name))
    (hu' : u'.meaning? table = some (.closing name'))
    (h : body ++ .tag u :: rest = body' ++ .tag u' :: rest') : body = body' := by
  obtain ⟨w, rfl, hw⟩ | ⟨w, rfl, hw⟩ := List.append_eq_append_iff.mp h
  · cases w with
    | nil => exact (List.append_nil body).symm
    | cons s w =>
      obtain ⟨rfl, -⟩ := List.cons.inj hw
      exact absurd hb' (hb.not_append_closing hu)
  · cases w with
    | nil => exact List.append_nil body'
    | cons s w =>
      obtain ⟨rfl, -⟩ := List.cons.inj hw
      exact absurd hb (hb'.not_append_closing hu')

theorem unique {f' : Forest} (h : Parses table segs f) (h' : Parses table segs f') : f = f' := by
  induction h generalizing f' with
  | done =>
    cases h'
    rfl
  | text _ ih =>
    cases h' with
    | text h' => rw [ih h']
  | silent hm _ ih =>
    cases h' with
    | silent _ h' => rw [ih h']
    | leaf hl => simp [hm] at hl
    | block ho => simp [hm] at ho
  | @leaf segs f t l hl _ ih =>
    cases h' with
    | silent hm => simp [hm] at hl
    | leaf hl' h' =>
      obtain rfl := Option.some.inj (hl.symm.trans hl')
      rw [ih h']
    | block ho =>
      have hs := sectionTag?_of_opens? ho
      rw [sectionTag?_of_leaf? hl] at hs
      cases hs
  | @block body rest b r t u name name' inverted ho hc hf hb hr ihb ihr =>
    generalize hsegs : Segment.tag t :: (body ++ .tag u :: rest) = segs at h'
    cases h' with
    | done => cases hsegs
    | text => cases hsegs
    | silent hm =>
      cases hsegs
      simp [hm] at ho
    | leaf hl =>
      cases hsegs
      have hs := sectionTag?_of_opens? ho
      rw [sectionTag?_of_leaf? hl] at hs
      cases hs
    | block ho' hc' hf' hb' hr' =>
      obtain ⟨ht, hsplit⟩ := List.cons.inj hsegs
      obtain rfl := Segment.tag.inj ht
      -- Both bodies end at the first closing tag that nothing in them belongs to.
      obtain rfl := body_unique hb hb' hc hc' hsplit
      obtain ⟨hu, rfl⟩ := List.cons.inj (List.append_cancel_left hsplit)
      obtain rfl := Segment.tag.inj hu
      obtain ⟨rfl, rfl⟩ := Prod.mk.inj (Option.some.inj (ho.symm.trans ho'))
      rw [ihb hb', ihr hr']

theorem prepend {before : List (Segment Mark)} (hs : sectionTags table before = [])
    (h : Parses table segs f) : ∃ f', Parses table (before ++ segs) f' := by
  induction before with
  | nil => exact ⟨f, h⟩
  | cons s before ih =>
    cases s with
    | text s offset =>
      obtain ⟨f', hf⟩ := ih hs
      exact ⟨_, .text hf⟩
    | tag t =>
      rw [sectionTags_tag, List.append_eq_nil_iff, Option.toList_eq_nil_iff,
        Tag.sectionTag?_eq_bind] at hs
      obtain ⟨f', hf⟩ := ih hs.2
      cases hm : t.meaning? table with
      | none => exact ⟨_, .silent hm hf⟩
      | some m =>
        rw [hm, Option.bind_some] at hs
        cases m with
        | opening name | inverted name | closing name => cases hs.1
        | output expr | current | statement code => exact ⟨_, .leaf (by rw [hm]; rfl) hf⟩

end Parses

end Segment

namespace Draft

variable {table : RuleTable}

variable {t : Tag Mark} {strict : Bool}

end Draft

namespace Template

end Template

end Curly

import Curly.Proofs.Path.Lookup
import Curly.Proofs.Section.Draft

namespace Curly

open SectionTag Script

inductive Outline where
  | done
  | text (s : Text) (rest : Outline)
  | here (verbatim : Bool) (rest : Outline)
  | lookup (name : Text) (segments : List Text) (verbatim : Bool) (rest : Outline)
  | block (name : Text) (inverted : Bool) (body rest : Outline)
deriving DecidableEq, Repr

namespace Outline

/-- What a template shows of data, where `.` stands for `current`. -/
def render (mode : Escaping) (data : Data) : (current : Option Data) → Outline → Text
  | _, done => []
  | current, text s rest => s ++ render mode data current rest
  | current, here verbatim rest =>
    Data.shown mode verbatim current ++ render mode data current rest
  | current, lookup name segments verbatim rest =>
    Data.shown mode verbatim (data.lookup? name segments) ++ render mode data current rest
  | current, block name inverted body rest =>
    let guard := if name = [] then current else data.root? name
    let inner := if inverted || name = [] then current else guard
    (if guard.any Data.isTruthy = inverted then [] else render mode data inner body) ++
      render mode data current rest

def levels : (opened : List (Text × Bool)) → Outline → Nat
  | _, done => 0
  | opened, text s rest => max (Fragment.textLevels s) (levels opened rest)
  | opened, here verbatim rest =>
    max (Path.rootLevels (Action.context opened) + Path.printedLevels verbatim) (levels opened rest)
  | opened, lookup name segments verbatim rest =>
    max (Path.guardedLevels name segments + Path.printedLevels verbatim) (levels opened rest)
  | opened, block name inverted body rest =>
    max (max (Path.rootLevels (Action.guardName opened name) + 2)
      (levels ((name, inverted) :: opened) body + 1)) (levels opened rest)

def fragments : (opened : List (Text × Bool)) → Outline → List Fragment
  | _, done => []
  | opened, text s rest => Fragment.ofText s ++ fragments opened rest
  | opened, here verbatim rest =>
    .here (Action.context opened) verbatim :: fragments opened rest
  | opened, lookup name segments verbatim rest =>
    .lookup name segments verbatim :: fragments opened rest
  | opened, block name inverted body rest =>
    .opening (Action.guardName opened name) inverted ::
      (fragments ((name, inverted) :: opened) body ++ .ending :: fragments opened rest)

end Outline

namespace Segment

/-- The tree of plain segments whose sections nest. A brace that is left over by a tag is text. -/
inductive Outlines : List (Segment Mark) → Outline → Prop
  | done : Outlines [] .done
  | text {segs : List (Segment Mark)} {o : Outline} {s : Text} {offset : Nat} :
      Outlines segs o → Outlines (.text s offset :: segs) (.text s o)
  | silent {segs : List (Segment Mark)} {o : Outline} {t : Tag Mark} :
      t.Does none → Outlines segs o → Outlines (.tag t :: segs) (.text (Draft.spareBrace t) o)
  | here {segs : List (Segment Mark)} {o : Outline} {t : Tag Mark} :
      t.Does (some .here) → Outlines segs o →
        Outlines (.tag t :: segs) (.here t.isVerbatim (.text (Draft.spareBrace t) o))
  | lookup {segs : List (Segment Mark)} {o : Outline} {t : Tag Mark} {name : Text}
      {segments : List Text} :
      t.Does (some (.lookup name segments)) → Outlines segs o →
        Outlines (.tag t :: segs)
          (.lookup name segments t.isVerbatim (.text (Draft.spareBrace t) o))
  | block {body rest : List (Segment Mark)} {b r : Outline} {t u : Tag Mark} {name name' : Text}
      {inverted : Bool} :
      t.Does (some (.opening name inverted)) → u.Does (some (.closing name')) →
        Fits name name' → Outlines body b → Outlines rest r →
          Outlines (.tag t :: (body ++ .tag u :: rest))
            (.block name inverted (.text (Draft.spareBrace t) b) (.text (Draft.spareBrace u) r))

theorem Writes.append {opened opened' opened'' : List (Text × Bool)}
    {segs segs' : List (Segment Mark)} {fs gs : List Fragment}
    (h : Writes opened segs opened' fs) (h' : Writes opened' segs' opened'' gs) :
    Writes opened (segs ++ segs') opened'' (fs ++ gs) := by
  induction h with
  | nil => exact h'
  | text _ ih =>
    rw [List.append_assoc]
    exact .text (ih h')
  | silent hp hd _ ih => exact .silent hp hd (ih h')
  | action hp hd _ ih => exact .action hp hd (ih h')

theorem ofText_spareBrace (t : Tag Mark) :
    Fragment.ofText (Draft.spareBrace t) = [.plain (Draft.spareBrace t)] := by
  unfold Draft.spareBrace
  split <;> rfl

theorem Outlines.writes {segs : List (Segment Mark)} {o : Outline} (h : Outlines segs o)
    (hp : ∀ t, .tag t ∈ segs → t.IsProper) (opened : List (Text × Bool)) :
    Writes opened segs opened (o.fragments opened) := by
  induction h generalizing opened with
  | done => exact .nil
  | text _ ih => exact .text (ih (fun t hm => hp t (List.mem_cons_of_mem _ hm)) opened)
  | @silent segs o t hd _ ih =>
    rw [Outline.fragments, ofText_spareBrace]
    exact .silent (hp t (List.mem_cons_self ..)) hd
      (ih (fun t hm => hp t (List.mem_cons_of_mem _ hm)) opened)
  | @here segs o t hd _ ih | @lookup segs o t name segments hd _ ih =>
    rw [Outline.fragments, Outline.fragments, ofText_spareBrace]
    exact .action (hp t (List.mem_cons_self ..)) hd
      (ih (fun t hm => hp t (List.mem_cons_of_mem _ hm)) opened)
  | @block body rest b r t u name name' inverted hd hd' _ _ _ ihb ihr =>
    have hbody := ihb (fun t hm => hp t (by simp [hm])) ((name, inverted) :: opened)
    have hrest := ihr (fun t hm => hp t (by simp [hm])) opened
    have hend : Writes ((name, inverted) :: opened) (.tag u :: rest) opened
        (.ending :: .plain (Draft.spareBrace u) :: r.fragments opened) :=
      .action (hp u (by simp)) hd' hrest
    rw [Outline.fragments, Outline.fragments, Outline.fragments, ofText_spareBrace,
      ofText_spareBrace]
    exact .action (hp t (List.mem_cons_self ..)) hd (hbody.append hend)

theorem Outlines.wellNested {segs : List (Segment Mark)} {o : Outline} (h : Outlines segs o) :
    WellNested (sectionTags .stock segs) := by
  induction h with
  | done => exact .nil
  | text _ ih =>
    rw [sectionTags_text]
    exact ih
  | silent hd _ ih | here hd _ ih | lookup hd _ ih =>
    rw [sectionTags_tag, Tag.sectionTag?_of_does hd]
    exact ih
  | block hd hd' hf _ _ ihb ihr =>
    rw [sectionTags_tag, sectionTags_append, sectionTags_tag, Tag.sectionTag?_of_does hd,
      Tag.sectionTag?_of_does hd']
    exact .block hf ihb ihr

theorem Outlines.prepend {before segs : List (Segment Mark)} {o : Outline}
    (hp : ∀ t, .tag t ∈ before → t.IsPlain) (hs : sectionTags .stock before = [])
    (h : Outlines segs o) : ∃ o', Outlines (before ++ segs) o' := by
  induction before with
  | nil => exact ⟨o, h⟩
  | cons s before ih =>
    have ih := ih fun t hm => hp t (List.mem_cons_of_mem _ hm)
    cases s with
    | text s offset =>
      obtain ⟨o', ho⟩ := ih hs
      exact ⟨_, .text ho⟩
    | tag t =>
      rw [sectionTags_tag, List.append_eq_nil_iff, Option.toList_eq_nil_iff] at hs
      obtain ⟨o', ho⟩ := ih hs.2
      obtain ⟨-, a, hd⟩ := hp t (List.mem_cons_self ..)
      have hnone := hs.1
      rw [Tag.sectionTag?_of_does hd] at hnone
      match a with
      | none => exact ⟨_, .silent hd ho⟩
      | some .here => exact ⟨_, .here hd ho⟩
      | some (.lookup name segments) => exact ⟨_, .lookup hd ho⟩
      | some (.opening name inverted) => cases hnone
      | some (.closing name) => cases hnone

theorem exists_of_sectionTags_eq_cons {table : RuleTable} {segs : List (Segment Mark)}
    {tag : SectionTag} {ts : List SectionTag} (h : sectionTags table segs = tag :: ts) :
    ∃ before t behind, segs = before ++ .tag t :: behind ∧ sectionTags table before = [] ∧
      t.sectionTag? table = some tag ∧ sectionTags table behind = ts := by
  induction segs with
  | nil => cases h
  | cons s segs ih =>
    cases s with
    | text s offset =>
      obtain ⟨before, t, behind, rfl, hb, ht, hts⟩ := ih h
      exact ⟨.text s offset :: before, t, behind, rfl, hb, ht, hts⟩
    | tag t =>
      rw [sectionTags_tag] at h
      cases htag : t.sectionTag? table with
      | none =>
        rw [htag] at h
        obtain ⟨before, t', behind, rfl, hb, ht, hts⟩ := ih h
        refine ⟨.tag t :: before, t', behind, rfl, ?_, ht, hts⟩
        rw [sectionTags_tag, htag, hb]
        rfl
      | some tag' =>
        rw [htag] at h
        cases h
        exact ⟨[], t, segs, rfl, rfl, htag, rfl⟩

/-- The tags of a section, with what is before it, inside of it and behind it. -/
theorem exists_of_sectionTags_eq_block {table : RuleTable} {segs : List (Segment Mark)}
    {tag tag' : SectionTag} {ts us : List SectionTag}
    (h : sectionTags table segs = tag :: (ts ++ tag' :: us)) :
    ∃ before t body u behind, segs = before ++ .tag t :: (body ++ .tag u :: behind) ∧
      sectionTags table before = [] ∧ t.sectionTag? table = some tag ∧
        sectionTags table body = ts ∧ u.sectionTag? table = some tag' ∧
          sectionTags table behind = us := by
  obtain ⟨before, t, inside, rfl, hbefore, ht, hinside⟩ := exists_of_sectionTags_eq_cons h
  obtain ⟨mid, tail, rfl, hmid, htail⟩ := List.filterMap_eq_append_iff.mp hinside
  obtain ⟨last, u, behind, rfl, hlast, hu, hbehind⟩ := exists_of_sectionTags_eq_cons htail
  refine ⟨before, t, mid ++ last, u, behind, ?_, hbefore, ht, ?_, hu, hbehind⟩
  · rw [List.append_assoc]
  · rw [sectionTags_append, hlast, List.append_nil]
    exact hmid

theorem exists_outline {segs : List (Segment Mark)} (hp : ∀ t, .tag t ∈ segs → t.IsPlain)
    (hw : WellNested (sectionTags .stock segs)) : ∃ o, Outlines segs o := by
  generalize hts : sectionTags .stock segs = ts at hw
  induction hw generalizing segs with
  | nil =>
    obtain ⟨o, ho⟩ := Outlines.prepend hp hts .done
    rw [List.append_nil] at ho
    exact ⟨o, ho⟩
  | @block n m offset body rest hf _ _ ihb ihr =>
    obtain ⟨before, t, inside, u, behind, rfl, hbefore, ht, hinside, hu, hbehind⟩ :=
      exists_of_sectionTags_eq_block hts
    obtain ⟨b, hb⟩ := ihb (fun t hm => hp t (by simp [hm])) hinside
    obtain ⟨r, hr⟩ := ihr (fun t hm => hp t (by simp [hm])) hbehind
    obtain ⟨-, a, hd⟩ := hp t (by simp)
    obtain ⟨-, a', hd'⟩ := hp u (by simp)
    rw [Tag.sectionTag?_of_does hd] at ht
    rw [Tag.sectionTag?_of_does hd'] at hu
    match a, a' with
    | some (.opening name inverted), some (.closing name') =>
      cases ht
      cases hu
      have hblock := Outlines.block hd hd' hf hb hr
      obtain ⟨o, ho⟩ := hblock.prepend (fun t hm => hp t (by simp [hm])) hbefore
      refine ⟨o, ?_⟩
      simpa using ho
    | none, _ | some (.closing _), _ | some .here, _ | some (.lookup _ _), _ => cases ht
    | some (.opening _ _), none | some (.opening _ _), some (.opening _ _)
    | some (.opening _ _), some .here | some (.opening _ _), some (.lookup _ _) => cases hu

end Segment

end Curly

import Mathlib.Data.List.Chain
import Curly.Segment

namespace Curly

/-- A part of a text: what stands there, from which byte on, and whether it is plain text. -/
class Located (α : Type) where
  source : α → Text
  offset : α → Nat
  IsText : α → Prop

instance {κ : Type} : Located (Token κ) where
  source
    | .text s _ => s
    | .delimiter _ _ s _ => s
  offset
    | .text _ offset => offset
    | .delimiter _ _ _ offset => offset
  IsText
    | .text _ _ => True
    | .delimiter _ _ _ _ => False

def Tag.source {κ : Type} (t : Tag κ) : Text := t.openText ++ (t.content ++ t.closeText)

instance {κ : Type} : Located (Segment κ) where
  source
    | .text s _ => s
    | .tag t => t.source
  offset
    | .text _ offset => offset
    | .tag t => t.offset
  IsText
    | .text _ _ => True
    | .tag _ => False

namespace Located

variable {α : Type} [Located α]

def sources (l : List α) : Text := l.flatMap source

@[simp] theorem sources_nil : sources ([] : List α) = [] := rfl

@[simp] theorem sources_cons (x : α) (l : List α) : sources (x :: l) = source x ++ sources l :=
  List.flatMap_cons

@[simp] theorem sources_append (l l' : List α) : sources (l ++ l') = sources l ++ sources l' :=
  List.flatMap_append

/-- Each character of the text stands in one of its parts. -/
theorem exists_of_sources_eq {l : List α} {a b : Text} {c : Char} (h : sources l = a ++ c :: b) :
    ∃ before x behind u v, l = before ++ x :: behind ∧ source x = u ++ c :: v ∧
      a = sources before ++ u ∧ b = v ++ sources behind := by
  induction l generalizing a with
  | nil => simp at h
  | cons x l ih =>
    rw [sources_cons] at h
    obtain ⟨r, rfl, hl⟩ | ⟨r, hx, hr⟩ := List.append_eq_append_iff.mp h
    · obtain ⟨before, y, behind, u, v, rfl, hy, rfl, hb⟩ := ih hl
      exact ⟨x :: before, y, behind, u, v, rfl, hy, by simp, hb⟩
    · cases r with
      | nil =>
        obtain ⟨before, y, behind, u, v, rfl, hy, ha, hb⟩ := @ih [] hr.symm
        refine ⟨x :: before, y, behind, u, v, rfl, hy, ?_, hb⟩
        rw [sources_cons, List.append_assoc, ← ha, hx, List.append_nil, List.append_nil]
      | cons d r =>
        obtain ⟨rfl, rfl⟩ := List.cons.inj hr
        exact ⟨[], x, l, a, r, rfl, hx, rfl, rfl⟩

/-- From an offset on, the parts are not empty, each stands behind the ones before it, and text is
not cut in two. -/
structure Laid (start : Nat) (l : List α) : Prop where
  nonempty : ∀ x ∈ l, source x ≠ []
  placed : ∀ before x behind, l = before ++ x :: behind →
    offset x = start + Text.bytes (sources before)
  apart : l.IsChain fun x y => ¬(IsText x ∧ IsText y)

/-- The parts are the whole text. -/
structure Covers (s : Text) (l : List α) : Prop extends Laid 0 l where
  whole : sources l = s

theorem Laid.nil (start : Nat) : Laid start ([] : List α) where
  nonempty := by simp
  placed := by simp
  apart := .nil

theorem Laid.singleton {start : Nat} {x : α} (hne : source x ≠ []) (ho : offset x = start) :
    Laid start [x] where
  nonempty := by simpa using hne
  placed := by
    intro before y behind h
    cases before with
    | nil =>
      cases h
      exact ho
    | cons z before => simp at h
  apart := .singleton x

theorem laid_append {start : Nat} {l l' : List α} :
    Laid start (l ++ l') ↔
      Laid start l ∧ Laid (start + Text.bytes (sources l)) l' ∧
        ∀ x ∈ l.getLast?, ∀ y ∈ l'.head?, ¬(IsText x ∧ IsText y) := by
  constructor
  · intro ⟨hne, hp, ha⟩
    obtain ⟨ha, ha', hj⟩ := List.isChain_append.mp ha
    refine ⟨⟨fun x hx => hne x (List.mem_append_left l' hx), ?_, ha⟩,
      ⟨fun x hx => hne x (List.mem_append_right l hx), ?_, ha'⟩, hj⟩
    · intro before x behind h
      exact hp before x (behind ++ l') (by rw [h, List.append_assoc, List.cons_append])
    · intro before x behind h
      rw [hp (l ++ before) x behind (by rw [h, List.append_assoc]), sources_append,
        Text.bytes_append, Nat.add_assoc]
  · intro ⟨⟨hne, hp, ha⟩, ⟨hne', hp', ha'⟩, hj⟩
    refine ⟨?_, ?_, List.isChain_append.mpr ⟨ha, ha', hj⟩⟩
    · intro x hx
      obtain hx | hx := List.mem_append.mp hx
      · exact hne x hx
      · exact hne' x hx
    · intro before x behind h
      obtain ⟨r, hr, hl'⟩ | ⟨r, hl, hr⟩ := List.append_eq_append_iff.mp h
      · rw [hp' r x behind hl', hr, sources_append, Text.bytes_append, Nat.add_assoc]
      · cases r with
        | nil =>
          have h0 := hp' [] x behind hr.symm
          rw [List.append_nil] at hl
          rw [h0, hl, sources_nil, Text.bytes_nil, Nat.add_zero]
        | cons y r =>
          obtain ⟨rfl, -⟩ := List.cons.inj hr
          exact hp before x r hl

theorem laid_cons {x : α} {l : List α} :
    Laid (offset x) (x :: l) ↔
      source x ≠ [] ∧ Laid (offset x + Text.bytes (source x)) l ∧
        ∀ y ∈ l.head?, ¬(IsText x ∧ IsText y) := by
  have h := @laid_append _ _ (offset x) [x] l
  rw [List.singleton_append, sources_cons, sources_nil, List.append_nil] at h
  rw [h]
  constructor
  · intro ⟨hx, hl, hj⟩
    exact ⟨hx.nonempty x (List.mem_singleton_self x), hl, hj x rfl⟩
  · intro ⟨hne, hl, hj⟩
    refine ⟨.singleton hne rfl, hl, fun y hy => ?_⟩
    obtain rfl := Option.some.inj hy
    exact hj

theorem laid_concat {start : Nat} {l : List α} {x : α} :
    Laid start (l ++ [x]) ↔
      Laid start l ∧ source x ≠ [] ∧ offset x = start + Text.bytes (sources l) ∧
        ∀ y ∈ l.getLast?, ¬(IsText y ∧ IsText x) := by
  rw [laid_append]
  constructor
  · intro ⟨hl, hx, hj⟩
    have ho := hx.placed [] x [] rfl
    exact ⟨hl, hx.nonempty x (List.mem_singleton_self x), ho, fun y hy => hj y hy x rfl⟩
  · intro ⟨hl, hne, ho, hj⟩
    refine ⟨hl, .singleton hne ho, fun y hy z hz => ?_⟩
    obtain rfl := Option.some.inj hz
    exact hj y hy

end Located

end Curly

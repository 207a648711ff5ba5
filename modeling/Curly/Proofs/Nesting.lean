import Curly.Text.Basic

namespace Curly

theorem forall_prefix_cons {α : Type} {x : α} {l : List α} {p : List α → Prop} :
    (∀ before, before <+: x :: l → p before) ↔ p [] ∧ ∀ before, before <+: l → p (x :: before) := by
  constructor
  · intro h
    exact ⟨h [] List.nil_prefix, fun before hb =>
      h (x :: before) (List.cons_prefix_cons.mpr ⟨rfl, hb⟩)⟩
  · rintro ⟨hnil, hcons⟩ before hb
    obtain rfl | ⟨rest, rfl, hrest⟩ := List.prefix_cons_iff.mp hb
    · exact hnil
    · exact hcons rest hrest

inductive SectionTag where
  | opening (name : Text) (offset : Nat)
  | closing (name : Text)
deriving DecidableEq, Repr

namespace SectionTag

def Fits (opened closed : Text) : Prop := opened = [] ∨ closed = [] ∨ opened = closed

instance (opened closed : Text) : Decidable (Fits opened closed) :=
  inferInstanceAs (Decidable (_ ∨ _ ∨ _))

inductive WellNested : List SectionTag → Prop
  | nil : WellNested []
  | block {n m : Text} {offset : Nat} {body rest : List SectionTag} :
      Fits n m → WellNested body → WellNested rest →
        WellNested (.opening n offset :: (body ++ .closing m :: rest))

/-- The tags leave those sections open, the innermost first. -/
inductive LeavesOpen : List SectionTag → List (Text × Nat) → Prop
  | closed {ts : List SectionTag} : WellNested ts → LeavesOpen ts []
  | opened {ts us : List SectionTag} {n : Text} {offset : Nat} {stack : List (Text × Nat)} :
      LeavesOpen ts stack → WellNested us →
        LeavesOpen (ts ++ .opening n offset :: us) ((n, offset) :: stack)

/-- The open sections behind the tags, unless one of them closes what it must not. -/
def follow : List (Text × Nat) → List SectionTag → Option (List (Text × Nat))
  | stack, [] => some stack
  | stack, .opening n offset :: ts => follow ((n, offset) :: stack) ts
  | [], .closing _ :: _ => none
  | (n, _) :: stack, .closing m :: ts => if Fits n m then follow stack ts else none

theorem follow_append (stack : List (Text × Nat)) (ts us : List SectionTag) :
    follow stack (ts ++ us) = (follow stack ts).bind fun stack => follow stack us := by
  induction ts generalizing stack with
  | nil => rfl
  | cons t ts ih =>
    cases t with
    | opening n offset => exact ih _
    | closing m =>
      cases stack with
      | nil => rfl
      | cons s stack =>
        by_cases h : Fits s.1 m
        · simpa [follow, h] using ih stack
        · simp [follow, h]

theorem WellNested.follow_eq {ts : List SectionTag} (h : WellNested ts)
    (stack : List (Text × Nat)) : follow stack ts = some stack := by
  induction h generalizing stack with
  | nil => rfl
  | block hf _ _ ihb ihr =>
    rw [follow, follow_append, ihb, Option.bind_some, follow, if_pos hf]
    exact ihr stack

theorem WellNested.append {ts us : List SectionTag} (ht : WellNested ts) (hu : WellNested us) :
    WellNested (ts ++ us) := by
  induction ht with
  | nil => exact hu
  | block hf hb _ _ ihr =>
    rw [List.cons_append, List.append_assoc, List.cons_append]
    exact .block hf hb ihr

theorem LeavesOpen.append {ts us : List SectionTag} {stack : List (Text × Nat)}
    (ht : LeavesOpen ts stack) (hu : WellNested us) : LeavesOpen (ts ++ us) stack := by
  cases ht with
  | closed h => exact .closed (h.append hu)
  | opened h h' =>
    rw [List.append_assoc, List.cons_append]
    exact .opened h (h'.append hu)

theorem LeavesOpen.close {ts : List SectionTag} {n m : Text} {offset : Nat}
    {stack : List (Text × Nat)} (h : LeavesOpen ts ((n, offset) :: stack)) (hf : Fits n m) :
    LeavesOpen (ts ++ [.closing m]) stack := by
  cases h with
  | opened h h' =>
    rw [List.append_assoc, List.cons_append]
    exact h.append (.block hf h' .nil)

theorem LeavesOpen.follow_eq {ts : List SectionTag} {stack : List (Text × Nat)}
    (h : LeavesOpen ts stack) : follow [] ts = some stack := by
  induction h with
  | closed h => exact h.follow_eq []
  | opened _ h' ih =>
    rw [follow_append, ih, Option.bind_some, follow]
    exact h'.follow_eq _

theorem LeavesOpen.of_follow {ts us : List SectionTag} {stack stack' : List (Text × Nat)}
    (ht : LeavesOpen ts stack) (hu : follow stack us = some stack') :
    LeavesOpen (ts ++ us) stack' := by
  induction us generalizing ts stack with
  | nil =>
    rw [follow, Option.some.injEq] at hu
    rwa [List.append_nil, ← hu]
  | cons u us ih =>
    have hsplit : ts ++ u :: us = (ts ++ [u]) ++ us := by simp
    rw [hsplit]
    cases u with
    | opening n offset => exact ih (.opened ht .nil) hu
    | closing m =>
      cases stack with
      | nil => simp [follow] at hu
      | cons s stack =>
        obtain ⟨n, offset⟩ := s
        by_cases hf : Fits n m
        · rw [follow, if_pos hf] at hu
          exact ih (ht.close hf) hu
        · simp [follow, hf] at hu

theorem wellNested_iff_leavesOpen {ts : List SectionTag} : WellNested ts ↔ LeavesOpen ts [] :=
  ⟨.closed, fun h => by cases h; assumption⟩

def isOpening : SectionTag → Bool
  | opening _ _ => true
  | closing _ => false

/-- Whether the tags nest when their names do not count: nowhere have more sections been closed
than opened, and in the end none is left open. -/
def IsBalanced (ts : List SectionTag) : Prop :=
  (∀ us, us <+: ts → us.countP (!isOpening ·) ≤ us.countP isOpening) ∧
    ts.countP (!isOpening ·) = ts.countP isOpening

/-- Whether the tags nest behind that many open sections and leave that many open. -/
def Counts (n m : Nat) (ts : List SectionTag) : Prop :=
  (∀ us, us <+: ts → us.countP (!isOpening ·) ≤ n + us.countP isOpening) ∧
    n + ts.countP isOpening = m + ts.countP (!isOpening ·)

theorem counts_nil {n m : Nat} : Counts n m [] ↔ n = m := by
  simp [Counts]

theorem counts_opening {n m : Nat} {name : Text} {offset : Nat} {ts : List SectionTag} :
    Counts n m (.opening name offset :: ts) ↔ Counts (n + 1) m ts := by
  rw [Counts, Counts, forall_prefix_cons]
  simp only [isOpening, List.countP_cons, List.countP_nil, Bool.not_true, Bool.false_eq_true,
    if_false, if_true, Nat.add_zero]
  constructor
  · rintro ⟨⟨-, h⟩, ht⟩
    refine ⟨fun us hu => ?_, by omega⟩
    have h := h us hu
    omega
  · rintro ⟨h, ht⟩
    refine ⟨⟨Nat.zero_le n, fun us hu => ?_⟩, by omega⟩
    have h := h us hu
    omega

theorem not_counts_closing {m : Nat} {name : Text} {ts : List SectionTag} :
    ¬Counts 0 m (.closing name :: ts) := by
  rintro ⟨h, -⟩
  have hfirst := h [.closing name] (List.cons_prefix_cons.mpr ⟨rfl, List.nil_prefix⟩)
  simp [isOpening] at hfirst

theorem counts_closing {n m : Nat} {name : Text} {ts : List SectionTag} :
    Counts (n + 1) m (.closing name :: ts) ↔ Counts n m ts := by
  rw [Counts, Counts, forall_prefix_cons]
  simp only [isOpening, List.countP_cons, List.countP_nil, Bool.not_false, Bool.false_eq_true,
    if_false, if_true, Nat.add_zero]
  constructor
  · rintro ⟨⟨-, h⟩, ht⟩
    refine ⟨fun us hu => ?_, by omega⟩
    have h := h us hu
    omega
  · rintro ⟨h, ht⟩
    refine ⟨⟨Nat.zero_le _, fun us hu => ?_⟩, by omega⟩
    have h := h us hu
    omega

def depth? : Nat → List SectionTag → Option Nat
  | n, [] => some n
  | n, .opening _ _ :: ts => depth? (n + 1) ts
  | 0, .closing _ :: _ => none
  | n + 1, .closing _ :: ts => depth? n ts

theorem depth?_eq_some_iff {n m : Nat} {ts : List SectionTag} :
    depth? n ts = some m ↔ Counts n m ts := by
  induction ts generalizing n with
  | nil => rw [depth?, Option.some.injEq, counts_nil]
  | cons t ts ih =>
    cases t with
    | opening name offset => rw [depth?, ih, counts_opening]
    | closing name =>
      cases n with
      | zero => exact iff_of_false (Option.some_ne_none m).symm not_counts_closing
      | succ n => rw [depth?, ih, counts_closing]

theorem isBalanced_iff_depth? {ts : List SectionTag} : IsBalanced ts ↔ depth? 0 ts = some 0 := by
  rw [depth?_eq_some_iff, Counts, IsBalanced]
  simp only [Nat.zero_add, eq_comm]

theorem depth?_of_follow {stack stack' : List (Text × Nat)} {ts : List SectionTag}
    (h : follow stack ts = some stack') : depth? stack.length ts = some stack'.length := by
  induction ts generalizing stack with
  | nil =>
    cases h
    rfl
  | cons t ts ih =>
    cases t with
    | opening name offset => exact ih h
    | closing name =>
      cases stack with
      | nil => cases h
      | cons s stack =>
        by_cases hf : Fits s.1 name
        · rw [follow, if_pos hf] at h
          exact ih h
        · simp [follow, hf] at h

theorem WellNested.isBalanced {ts : List SectionTag} (h : WellNested ts) : IsBalanced ts :=
  isBalanced_iff_depth?.mpr (depth?_of_follow (h.follow_eq []))

end SectionTag

end Curly

import Curly.Text.Blank

namespace Curly

inductive CharSet where
  | empty
  | range (lo hi : Char)
  | blank
  | union (a b : CharSet)
  | inter (a b : CharSet)
  | diff (a b : CharSet)
  | symDiff (a b : CharSet)
  | compl (a : CharSet)
deriving DecidableEq, Repr

namespace CharSet

def has : CharSet → Char → Bool
  | empty, _ => false
  | range lo hi, c => lo ≤ c && c ≤ hi
  | blank, c => Text.isBlank c
  | union a b, c => a.has c || b.has c
  | inter a b, c => a.has c && b.has c
  | diff a b, c => a.has c && !b.has c
  | symDiff a b, c => a.has c != b.has c
  | compl a, c => !a.has c

def single (c : Char) : CharSet := range c c

@[simp] theorem has_single (c d : Char) : (single c).has d = decide (d = c) := by
  have h : (c ≤ d ∧ d ≤ c) ↔ d = c :=
    ⟨fun h => Char.le_antisymm h.2 h.1, fun h => h ▸ ⟨Char.le_refl _, Char.le_refl _⟩⟩
  simp [single, has, ← h, Bool.decide_and]

def ofRanges (ranges : List (Char × Char)) : CharSet :=
  ranges.foldl (fun k (lo, hi) => k.union (range lo hi)) empty

end CharSet

end Curly

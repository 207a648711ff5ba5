namespace Curly

-- Powers of integers are the computable ones, whatever else is imported.
attribute [instance (high), default_instance (high)] instPowNat

abbrev Text := List Char

namespace Text

instance : LawfulBEq Text := inferInstance

/-- Length of the UTF-8 form. Offsets count these bytes. -/
def bytes : Text → Nat
  | [] => 0
  | c :: s => c.utf8Size + bytes s

@[simp] theorem bytes_nil : bytes [] = 0 := rfl

@[simp] theorem bytes_cons (c : Char) (s : Text) : bytes (c :: s) = c.utf8Size + bytes s := rfl

@[simp] theorem bytes_append (s t : Text) : bytes (s ++ t) = bytes s + bytes t := by
  induction s with
  | nil => rw [List.nil_append, bytes_nil, Nat.zero_add]
  | cons c s ih => rw [List.cons_append, bytes_cons, ih, bytes_cons, Nat.add_assoc]

def inRanges (ranges : List (Nat × Nat)) (c : Char) : Bool :=
  ranges.any fun (lo, hi) => lo ≤ c.toNat && c.toNat ≤ hi

def after? : (lead s : Text) → Option Text
  | [], s => some s
  | _ :: _, [] => none
  | a :: lead, c :: s => if a = c then after? lead s else none

theorem after?_eq_some_iff {lead s rest : Text} : after? lead s = some rest ↔ s = lead ++ rest := by
  induction lead generalizing s with
  | nil => simp [after?, eq_comm]
  | cons a lead ih =>
    cases s with
    | nil => simp [after?]
    | cons c s =>
      by_cases h : a = c
      · simp [after?, h, ih]
      · simp [after?, h, eq_comm (a := c)]

@[simp] theorem after?_append (lead rest : Text) : after? lead (lead ++ rest) = some rest :=
  after?_eq_some_iff.mpr rfl

def cutAt? (part : Text) : Text → Option (Text × Text)
  | [] => if part = [] then some ([], []) else none
  | c :: s =>
    match after? part (c :: s) with
    | some rest => some ([], rest)
    | none => (cutAt? part s).map fun (before, rest) => (c :: before, rest)

def includes (s part : Text) : Bool := (cutAt? part s).isSome

def ofNat (n : Nat) : Text := Nat.toDigits 10 n

def ofInt : Int → Text
  | .ofNat n => ofNat n
  | .negSucc n => '-' :: ofNat (n + 1)

def join (gap : Text) : List Text → Text
  | [] => []
  | [s] => s
  | s :: t :: rest => s ++ gap ++ join gap (t :: rest)

/-- The pieces between the occurrences of `mark`; always at least one. -/
def splitOn (mark : Char) : Text → List Text
  | [] => [[]]
  | c :: s =>
    if c = mark then [] :: splitOn mark s
    else match splitOn mark s with
      | [] => [[c]]
      | piece :: rest => (c :: piece) :: rest

theorem splitOn_of_not_mem {mark : Char} {s : Text} (h : mark ∉ s) : splitOn mark s = [s] := by
  induction s with
  | nil => rfl
  | cons c s ih =>
    rw [List.mem_cons, not_or] at h
    rw [splitOn, if_neg (Ne.symm h.1), ih h.2]

theorem splitOn_append {mark : Char} {s : Text} (h : mark ∉ s) (rest : Text) :
    splitOn mark (s ++ mark :: rest) = s :: splitOn mark rest := by
  induction s with
  | nil => rw [List.nil_append, splitOn, if_pos rfl]
  | cons c s ih =>
    rw [List.mem_cons, not_or] at h
    rw [List.cons_append, splitOn, if_neg (Ne.symm h.1), ih h.2]

theorem splitOn_ne_nil (mark : Char) (s : Text) : splitOn mark s ≠ [] := by
  cases s with
  | nil => simp [splitOn]
  | cons c s =>
    rw [splitOn]
    split
    · simp
    · split <;> simp

def replaceFrom (part new : Text) : Nat → Text → Text
  | 0, s => s
  | _, [] => []
  | n + 1, c :: s =>
    match after? part (c :: s) with
    | some rest => new ++ replaceFrom part new n rest
    | none => c :: replaceFrom part new n s

/-- Every occurrence of `part` becomes `new`. The empty text occurs before every character and at
the end. -/
def replace (s part new : Text) : Text :=
  match part with
  | [] => new ++ s.flatMap fun c => c :: new
  | _ => replaceFrom part new s.length s

def dropReturn (line : Text) : Text :=
  if line.getLast? = some '\r' then line.dropLast else line

/-- The lines of a text. A line ends in LF or CRLF, which are not part of it, and a final line
ending starts no further line. -/
def lines (s : Text) : List Text :=
  let pieces := splitOn '\n' s
  pieces.dropLast.map dropReturn ++ (pieces.getLast?.filter (· ≠ [])).toList

end Text

end Curly

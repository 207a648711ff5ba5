import Curly.Script.Lexeme
import Curly.Text.Blank

namespace Curly.Script

/-- Comments are no pieces, and what stands in a raw block is text. -/
inductive Piece where
  | text (s : Text)
  | printed (ls : List Lexeme)
  | statement (ls : List Lexeme)
deriving DecidableEq, Repr

namespace Piece

inductive Marker where
  | printed
  | statement
  | comment
deriving DecidableEq, Repr

def Marker.closing : Marker → Text
  | printed => ['}', '}']
  | statement => ['%', '}']
  | comment => ['#', '}']

def cutMarker? : Text → Option (Text × Marker × Text)
  | '{' :: '{' :: s => some ([], .printed, s)
  | '{' :: '%' :: s => some ([], .statement, s)
  | '{' :: '#' :: s => some ([], .comment, s)
  | c :: s => (cutMarker? s).map fun (t, m, rest) => (c :: t, m, rest)
  | [] => none

/-- Whether a tag starts with a dash, and the tag without its dash or plus. -/
def control : Text → Bool × Text
  | '-' :: s => (true, s)
  | '+' :: s => (false, s)
  | s => (false, s)

def atClosing? (closing s : Text) : Option (Bool × Text) :=
  match Text.after? closing s with
  | some rest => some (false, rest)
  | none =>
    match s with
    | '-' :: s => (Text.after? closing s).map (true, ·)
    | '+' :: s => (Text.after? closing s).map (false, ·)
    | _ => none

/-- The end of a tag counts only when no bracket is open. -/
def closes? (closing : Text) (depth : Int) (s : Text) : Option (Bool × Text) :=
  if depth = 0 then atClosing? closing s else none

def lexemes (closing : Text) (depth : Int) (s : Text) :
    Except Refusal (List Lexeme × Bool × Text) :=
  match closes? closing depth s with
  | some (dash, rest) => .ok ([], dash, rest)
  | none =>
    match s with
    | [] => .error .openTag
    | c :: s =>
      if Text.isAsciiBlank c then lexemes closing depth s
      else
        match h : Lexeme.read c s with
        | .error e => .error e
        | .ok (l, rest) =>
          have := Lexeme.length_read h
          match lexemes closing (depth + l.depth) rest with
          | .ok (ls, dash, rest) => .ok (l :: ls, dash, rest)
          | .error e => .error e
termination_by s.length
decreasing_by all_goals simp_all; try omega

def oneWord? (word s : Text) : Option (Bool × Bool × Text) := do
  let (dash, s) := control s
  let s ← Text.after? word (s.dropWhile Text.isAsciiBlank)
  let s := s.dropWhile Text.isAsciiBlank
  let (dash', s) := control s
  let rest ← Text.after? (Marker.closing .statement) s
  some (dash, dash', rest)

/-- The end of a raw block: the text before it, the dashes at its tag's start and end, and what
follows it. -/
def cutRaw? : Text → Option (Text × Bool × Bool × Text)
  | [] => none
  | c :: s =>
    match (Text.after? ['{', '%'] (c :: s)).bind (oneWord? "endraw".toList) with
    | some (dash, dash', rest) => some ([], dash, dash', rest)
    | none => (cutRaw? s).map fun (t, more) => (c :: t, more)

theorem length_cutMarker? {s t rest : Text} {m : Marker} (h : cutMarker? s = some (t, m, rest)) :
    rest.length < s.length := by
  induction s using cutMarker?.induct generalizing t with
  | case1 s | case2 s | case3 s =>
    simp only [cutMarker?, Option.some.injEq, Prod.mk.injEq] at h
    obtain ⟨-, -, rfl⟩ := h
    simp only [List.length_cons]
    omega
  | case4 c s h₁ h₂ h₃ ih =>
    rw [cutMarker?.eq_4 _ _ h₁ h₂ h₃] at h
    simp only [Option.map_eq_some_iff, Prod.mk.injEq, Prod.exists] at h
    obtain ⟨t, m, r, h, -, rfl, rfl⟩ := h
    have := ih h
    simp only [List.length_cons]
    omega
  | case5 => simp [cutMarker?] at h

theorem length_after? {lead s rest : Text} (h : Text.after? lead s = some rest) :
    rest.length ≤ s.length := by
  rw [Text.after?_eq_some_iff.mp h]
  simp

theorem length_control (s : Text) : (control s).2.length ≤ s.length := by
  unfold control
  split <;> simp

theorem length_atClosing? {closing s rest : Text} {dash : Bool}
    (h : atClosing? closing s = some (dash, rest)) : rest.length ≤ s.length := by
  unfold atClosing? at h
  split at h
  · next h' =>
    simp only [Option.some.injEq, Prod.mk.injEq] at h
    exact h.2 ▸ length_after? h'
  · split at h
    all_goals simp only [Option.map_eq_some_iff, Prod.mk.injEq, reduceCtorEq] at h
    all_goals
      obtain ⟨r, h, -, rfl⟩ := h
      exact Nat.le_succ_of_le (length_after? h)

theorem length_lexemes {closing : Text} {depth : Int} {s rest : Text} {ls : List Lexeme}
    {dash : Bool} (h : lexemes closing depth s = .ok (ls, dash, rest)) :
    rest.length ≤ s.length := by
  fun_induction lexemes closing depth s generalizing ls with
  | case1 depth s dash' rest' hc =>
    simp only [Except.ok.injEq, Prod.mk.injEq] at h
    obtain ⟨-, rfl, rfl⟩ := h
    unfold closes? at hc
    split at hc
    · exact length_atClosing? hc
    · simp at hc
  | case2 | case4 | case6 => simp at h
  | case3 depth c s _ _ ih => exact Nat.le_succ_of_le (ih h)
  | case5 depth c s _ l rest' _ hl ls' dash' rest'' heq _ ih =>
    simp only [Except.ok.injEq, Prod.mk.injEq] at h
    obtain ⟨-, rfl, rfl⟩ := h
    exact Nat.le_succ_of_le (Nat.le_trans (ih heq) hl)

theorem length_oneWord? {word s rest : Text} {dash dash' : Bool}
    (h : oneWord? word s = some (dash, dash', rest)) : rest.length ≤ s.length := by
  simp only [oneWord?, Option.bind_eq_bind, Option.bind_eq_some_iff, Option.some.injEq,
    Prod.mk.injEq] at h
  obtain ⟨s₁, h₁, s₂, h₂, -, -, rfl⟩ := h
  have := length_after? h₁
  have := length_after? h₂
  have := length_control s
  have := length_control (s₁.dropWhile Text.isAsciiBlank)
  have := (List.dropWhile_sublist Text.isAsciiBlank (l := s₁)).length_le
  have := (List.dropWhile_sublist Text.isAsciiBlank (l := (control s).2)).length_le
  omega

theorem length_cutRaw? {s t rest : Text} {dash dash' : Bool}
    (h : cutRaw? s = some (t, dash, dash', rest)) : rest.length ≤ s.length := by
  induction s generalizing t with
  | nil => simp [cutRaw?] at h
  | cons c s ih =>
    rw [cutRaw?] at h
    split at h
    · next hb =>
      obtain ⟨r, hr, hw⟩ := Option.bind_eq_some_iff.mp hb
      simp only [Option.some.injEq, Prod.mk.injEq] at h
      obtain ⟨-, -, -, rfl⟩ := h
      exact Nat.le_trans (length_oneWord? hw) (length_after? hr)
    · simp only [Option.map_eq_some_iff, Prod.mk.injEq, Prod.exists] at h
      obtain ⟨t, a, b, r, h, -, rfl, rfl, rfl⟩ := h
      exact Nat.le_succ_of_le (ih h)

theorem length_cutAt? {part s before rest : Text} (h : Text.cutAt? part s = some (before, rest)) :
    rest.length ≤ s.length := by
  induction s generalizing before with
  | nil =>
    unfold Text.cutAt? at h
    split at h <;> simp_all
  | cons c s ih =>
    rw [Text.cutAt?] at h
    split at h
    · next hr =>
      simp only [Option.some.injEq, Prod.mk.injEq] at h
      exact h.2 ▸ length_after? hr
    · simp only [Option.map_eq_some_iff, Prod.mk.injEq, Prod.exists] at h
      obtain ⟨t, r, h, -, rfl⟩ := h
      exact Nat.le_succ_of_le (ih h)

def lead (dash : Bool) (s : Text) : Text := if dash then Text.trimEnd s else s

def trail (dash : Bool) (s : Text) : Text := if dash then Text.trimStart s else s

theorem length_trail (dash : Bool) (s : Text) : (trail dash s).length ≤ s.length := by
  unfold trail
  split
  · exact (List.dropWhile_sublist _).length_le
  · exact Nat.le_refl _

def addText (s : Text) (ps : List Piece) : List Piece := if s = [] then ps else .text s :: ps

def ofMarker : Marker → List Lexeme → Piece
  | .printed, ls => .printed ls
  | _, ls => .statement ls

/-- The first tag of a text: the text before it, the pieces that the tag stands for, whether a
dash ends it, and what follows it. -/
def cutTag? (m : Marker) (s : Text) : Except Refusal (List Piece × Bool × Text) :=
  match m with
  | .comment =>
    match Text.cutAt? m.closing (control s).2 with
    | none => .error .openComment
    | some (content, rest) => .ok ([], content.getLast? = some '-', rest)
  | m =>
    match if m = .statement then oneWord? "raw".toList s else none with
    | some (_, dash, rest) =>
      match cutRaw? rest with
      | none => .error .openRaw
      | some (body, dash', dash'', rest) =>
        .ok (addText (lead dash' (trail dash body)) [], dash'', rest)
    | none =>
      match lexemes m.closing 0 (control s).2 with
      | .error e => .error e
      | .ok (ls, dash, rest) => .ok ([ofMarker m ls], dash, rest)

theorem length_cutTag? {m : Marker} {s rest : Text} {ps : List Piece} {dash : Bool}
    (h : cutTag? m s = .ok (ps, dash, rest)) : rest.length ≤ s.length := by
  unfold cutTag? at h
  split at h
  · split at h
    · simp at h
    · next hc =>
      simp only [Except.ok.injEq, Prod.mk.injEq] at h
      exact h.2.2 ▸ Nat.le_trans (length_cutAt? hc) (length_control s)
  · split at h
    · next hw =>
      split at hw
      · split at h
        · simp at h
        · next hr =>
          simp only [Except.ok.injEq, Prod.mk.injEq] at h
          exact h.2.2 ▸ Nat.le_trans (length_cutRaw? hr) (length_oneWord? hw)
      · simp at hw
    · split at h
      · simp at h
      · next hl =>
        simp only [Except.ok.injEq, Prod.mk.injEq] at h
        exact h.2.2 ▸ Nat.le_trans (length_lexemes hl) (length_control s)

def readAll (s : Text) : Except Refusal (List Piece) :=
  match hm : cutMarker? s with
  | none => .ok (addText s [])
  | some (before, m, rest) =>
    match ht : cutTag? m rest with
    | .error e => .error e
    | .ok (ps, dash, rest') =>
      have := length_cutMarker? hm
      have := length_cutTag? ht
      have := length_trail dash rest'
      match readAll (trail dash rest') with
      | .error e => .error e
      | .ok more => .ok (addText (lead (control rest).1 before) (ps ++ more))
termination_by s.length
decreasing_by omega

end Piece

end Curly.Script

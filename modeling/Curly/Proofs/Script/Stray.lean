import Curly.Proofs.Script.Parsing

namespace Curly.Script.Expr

open LexemeParser

def Leaves {α : Type} (bad : List Lexeme → Prop) (r : Except Refusal (α × List Lexeme)) : Prop :=
  ∀ a rest, r = .ok (a, rest) → bad rest

def joints : List Text :=
  ["is".toList, "in".toList, "not".toList, "and".toList, "or".toList, "if".toList, "else".toList]

def IsStray (ls : List Lexeme) : Prop := ∃ w more, ls = .word w :: more ∧ w ∉ joints

/-- Where no operand stands that an expression can go on behind. -/
inductive IsDeadEnd : List Lexeme → Prop
  | closing {more : List Lexeme} : IsDeadEnd (.sign .closeParen :: more)
  | name {more : List Lexeme} : IsStray more → IsDeadEnd (Lexeme.keyword "and" :: more)

def IsBlocked (ls : List Lexeme) : Prop :=
  ∃ w tail, ls = .word w :: tail ∧ w ≠ "is".toList ∧ (w ∉ joints ∨ IsDeadEnd tail)

theorem IsStray.isBlocked {ls : List Lexeme} (h : IsStray ls) : IsBlocked ls := by
  obtain ⟨w, more, rfl, hw⟩ := h
  refine ⟨w, more, rfl, ?_, .inl hw⟩
  rintro rfl
  exact hw (by decide)

section

variable {α β : Type} {bad bad' : List Lexeme → Prop}

theorem leaves_ok {a : α} {rest : List Lexeme} (h : bad rest) :
    Leaves bad (.ok (a, rest) : Except Refusal (α × List Lexeme)) := by
  rintro _ _ ⟨⟩
  exact h

theorem leaves_error (r : Refusal) :
    Leaves bad (.error r : Except Refusal (α × List Lexeme)) := by
  rintro _ _ ⟨⟩

theorem Leaves.bind {r : Except Refusal (α × List Lexeme)}
    {f : α × List Lexeme → Except Refusal (β × List Lexeme)} (h : Leaves bad r)
    (hf : ∀ a rest, bad rest → Leaves bad' (f (a, rest))) : Leaves bad' (r.bind f) := by
  intro b rest hb
  match r with
  | .error e => cases hb
  | .ok (a, rest') => exact hf a rest' (h a rest' rfl) b rest hb

end

variable {levels : Nat} {ls rest tail : List Lexeme}

theorem access_word (nested : LexemeParser Expr) (fuel : Nat) (e : Expr) (w : Text)
    (more : List Lexeme) : access nested fuel e (.word w :: more) = .ok (e, .word w :: more) := by
  cases fuel <;> rfl

theorem refine_word (nested : Nested) (fuel : Nat) (e : Expr) {w : Text} (hw : w ≠ "is".toList)
    (more : List Lexeme) : refine nested fuel e (.word w :: more) = .ok (e, .word w :: more) := by
  cases fuel with
  | zero => rfl
  | succ fuel => rw [refine, if_neg hw]

/-- A parser that gets no further than a dead end, wherever it starts and from the lexemes. -/
structure Stops (p : LexemeParser Expr) (ls : List Lexeme) : Prop where
  deadEnd : ∀ tail, IsDeadEnd tail → Leaves IsStray (p tail)
  blocked : Leaves IsBlocked (p ls)

section

variable {op? : Lexeme → Option BinaryOp} {operand : LexemeParser Expr}

theorem chainLeft_stray (hop : ∀ w, w ∉ joints → op? (.word w) = none) (fuel : Nat) (e : Expr)
    (h : IsStray rest) : chainLeft op? operand fuel e rest = .ok (e, rest) := by
  obtain ⟨w, more, rfl, hw⟩ := h
  exact chainLeft_stop operand fuel e (by simpa using hop w hw)

/-- Operators go on at most to a dead end. -/
theorem chainLeft_blocked (hop : ∀ w, w ∉ joints → op? (.word w) = none)
    (hd : ∀ tail, IsDeadEnd tail → Leaves IsStray (operand tail)) (fuel : Nat) (e : Expr)
    (h : IsBlocked rest) : Leaves IsBlocked (chainLeft op? operand fuel e rest) := by
  obtain ⟨w, tail, rfl, hw, hblocked⟩ := h
  cases fuel with
  | zero => exact leaves_ok ⟨w, tail, rfl, hw, hblocked⟩
  | succ fuel =>
    rw [chainLeft]
    cases ho : op? (.word w) with
    | none => exact leaves_ok ⟨w, tail, rfl, hw, hblocked⟩
    | some op =>
      have hdead : IsDeadEnd tail := hblocked.resolve_left fun hj => by
        rw [hop w hj] at ho
        cases ho
      refine (hd tail hdead).bind fun r rest hr => ?_
      simp only [chainLeft_stray hop fuel _ hr]
      exact leaves_ok hr.isBlocked

theorem Stops.level (hop : ∀ w, w ∉ joints → op? (.word w) = none) (h : Stops operand ls) :
    Stops (level op? operand) ls where
  deadEnd tail ht := (h.deadEnd tail ht).bind fun e rest hr => by
    simp only [chainLeft_stray hop _ e hr]
    exact leaves_ok hr
  blocked := h.blocked.bind fun e _ hr => chainLeft_blocked hop h.deadEnd _ e hr

end

theorem refined_deadEnd (ht : IsDeadEnd tail) :
    Leaves IsStray (refined (nestedAt levels) tail) := by
  cases ht with
  | closing => exact leaves_error _
  | @name more hm =>
    obtain ⟨w, more, rfl, hw⟩ := hm
    have his : w ≠ "is".toList := by
      rintro rfl
      exact hw (by decide)
    have ha : accessed (nestedAt levels) (Lexeme.keyword "and" :: .word w :: more) =
        .ok (ofWord "and".toList, .word w :: more) := access_word _ _ _ w more
    rw [refined, ha]
    change Leaves IsStray (refine _ _ _ (.word w :: more))
    rw [refine_word _ _ _ his]
    exact leaves_ok ⟨w, more, rfl, hw⟩

theorem Stops.sum (h : Stops (refined (nestedAt levels)) ls) :
    Stops (Expr.sum (nestedAt levels)) ls :=
  (((h.level fun _ _ => rfl).level fun _ _ => rfl).level fun _ _ => rfl).level fun _ _ => rfl

theorem not_head_deadEnd (h : IsDeadEnd tail) : ∃ l more, tail = l :: more ∧
    l ≠ Lexeme.keyword "not" ∧ l ≠ Lexeme.keyword "in" := by
  cases h with
  | closing => exact ⟨_, _, rfl, by decide, by decide⟩
  | name => exact ⟨_, _, rfl, by decide, by decide⟩

theorem links_stray (nested : Nested) (fuel : Nat) (h : IsStray rest) :
    links nested fuel rest = .ok ([], rest) := by
  obtain ⟨w, more, rfl, hw⟩ := h
  cases fuel with
  | zero => simp [links]
  | succ fuel =>
    have hin : comparison? (.word w) = none := by
      rw [comparison?, if_neg]
      rintro rfl
      exact hw (by decide)
    have hnot : Lexeme.word w ≠ Lexeme.keyword "not" := by
      rintro ⟨⟩
      exact hw (by decide)
    rw [links, hin]
    simp only [if_neg hnot]

theorem links_blocked (h : Stops (Expr.sum (nestedAt levels)) ls) (fuel : Nat)
    (hr : IsBlocked rest) :
    Leaves IsBlocked (links (nestedAt levels) fuel rest) := by
  obtain ⟨w, tail, rfl, hw, hblocked⟩ := hr
  have hself : Leaves IsBlocked (.ok (([] : List (Comparison × Expr)), .word w :: tail)) :=
    leaves_ok ⟨w, tail, rfl, hw, hblocked⟩
  cases fuel with
  | zero =>
    rw [links]
    exact hself
  | succ fuel =>
    -- The word may go on with a comparison, but then it leads to a dead end.
    cases hc : comparison? (.word w) with
    | some c =>
      have hdead : IsDeadEnd tail := hblocked.resolve_left fun hj => by
        have hne : w ≠ "in".toList := by
          rintro rfl
          exact hj (by decide)
        rw [comparison?, if_neg hne] at hc
        cases hc
      rw [links, hc]
      simp only
      rw [links.next]
      refine (h.deadEnd tail hdead).bind fun e rest hr => ?_
      simp only [links_stray _ _ hr]
      exact leaves_ok hr.isBlocked
    | none =>
      rw [links, hc]
      by_cases hnot : Lexeme.word w = Lexeme.keyword "not"
      · have hdead : IsDeadEnd tail := hblocked.resolve_left fun hj => by
          cases hnot
          exact hj (by decide)
        obtain ⟨l, more, rfl, -, hin⟩ := not_head_deadEnd hdead
        simp only [if_pos hnot, expect, if_neg hin]
        exact leaves_error _
      · simp only [if_neg hnot]
        exact hself

theorem Stops.comparison (h : Stops (Expr.sum (nestedAt levels)) ls) :
    Stops (Expr.comparison (nestedAt levels)) ls where
  deadEnd tail ht := (h.deadEnd tail ht).bind fun e rest hr => by
    simp only [links_stray _ _ hr]
    exact leaves_ok hr
  blocked := h.blocked.bind fun e rest hr =>
    (links_blocked h rest.length hr).bind fun more rest hr => leaves_ok hr

theorem negation_cons (nested : Nested) {l : Lexeme} (hl : l ≠ Lexeme.keyword "not")
    (ls : List Lexeme) : negation nested (l :: ls) = comparison nested (l :: ls) := by
  rw [negation, if_neg hl]

theorem Stops.negation (hs : StartsOperand ls)
    (h : Stops (Expr.comparison (nestedAt levels)) ls) :
    Stops (Expr.negation (nestedAt levels)) ls where
  deadEnd tail ht := by
    obtain ⟨l, more, rfl, hl, -⟩ := not_head_deadEnd ht
    rw [negation_cons _ hl]
    exact h.deadEnd _ ht
  blocked := by
    obtain ⟨l, more, rfl, hl, -⟩ := hs
    rw [negation_cons _ hl]
    exact h.blocked

theorem op_joint {k : String} (hk : k.toList ∈ joints) (op : BinaryOp) :
    ∀ w, w ∉ joints → (if Lexeme.word w = Lexeme.keyword k then some op else none) = none := by
  intro w hw
  rw [if_neg]
  rintro ⟨⟩
  exact hw hk

/-- Behind operands that are read, a conjunction gets no further than its last operand. -/
theorem Stops.conjunction {need : Nat} {e : Expr} {first : List Lexeme}
    {operands : List (List Lexeme × Expr)} (hf : ReadsNegation need first e)
    (ho : ∀ o ∈ operands, ReadsNegation need o.1 o.2)
    (h : Stops (Expr.negation (nestedAt levels)) ls) :
    Stops (Expr.level andOp? (Expr.negation (nestedAt levels)))
      (first ++ conjuncts operands ++ Lexeme.keyword "and" :: ls) := by
  have hop := op_joint (k := "and") (by decide) .and
  refine ⟨(h.level hop).deadEnd, ?_⟩
  have hread := hf levels (conjuncts operands ++ Lexeme.keyword "and" :: ls) (by
    cases operands with
    | nil => exact follows_cons _ (by decide)
    | cons o operands => exact follows_cons _ (by decide))
  rw [List.append_assoc, Expr.level, hread]
  by_cases hn : need ≤ levels
  · rw [within, if_pos hn]
    obtain ⟨fuel, hfuel, hle⟩ := exists_fuel operands (Lexeme.keyword "and" :: ls)
    change Leaves _ (chainLeft _ _ (conjuncts operands ++ Lexeme.keyword "and" :: ls).length e _)
    rw [hfuel, chainLeft_conjuncts ho hn (follows_cons _ (by decide))]
    cases fuel with
    | zero => simp at hle
    | succ fuel =>
      have hand : andOp? (Lexeme.keyword "and") = some .and := by decide
      rw [chainLeft, hand]
      exact h.blocked.bind fun r _ hr => chainLeft_blocked hop h.deadEnd fuel _ hr
  · rw [within, if_neg hn]
    exact leaves_error _

theorem Stops.or (h : Stops (Expr.level andOp? (Expr.negation (nestedAt levels))) ls) :
    Stops (Expr.unconditional (nestedAt levels)) ls :=
  h.level (op_joint (k := "or") (by decide) .or)

theorem Stops.unconditional (h : Stops (Expr.negation (nestedAt levels)) ls) :
    Stops (Expr.unconditional (nestedAt levels)) ls :=
  (h.level (op_joint (k := "and") (by decide) .and)).or

theorem conditional_stray (nested : Nested) (fuel : Nat) (e : Expr) (h : IsStray rest) :
    conditional nested fuel e rest = .ok (e, rest) := by
  obtain ⟨w, more, rfl, hw⟩ := h
  cases fuel with
  | zero => rfl
  | succ fuel =>
    rw [conditional, if_neg]
    rintro ⟨⟩
    exact hw (by decide)

theorem conditional_blocked (h : Stops (Expr.unconditional (nestedAt levels)) ls) (fuel : Nat)
    (e : Expr) (hr : IsBlocked rest) :
    Leaves IsBlocked (conditional (nestedAt levels) fuel e rest) := by
  obtain ⟨w, tail, rfl, hw, hblocked⟩ := hr
  cases fuel with
  | zero => exact leaves_ok ⟨w, tail, rfl, hw, hblocked⟩
  | succ fuel =>
    rw [conditional]
    by_cases hif : Lexeme.word w = Lexeme.keyword "if"
    · have hdead : IsDeadEnd tail := hblocked.resolve_left fun hj => by
        cases hif
        exact hj (by decide)
      rw [if_pos hif]
      refine (h.deadEnd tail hdead).bind fun guard rest hr => ?_
      have hstray := hr
      obtain ⟨v, more, rfl, hv⟩ := hr
      have helse : Lexeme.word v ≠ Lexeme.keyword "else" := by
        rintro ⟨⟩
        exact hv (by decide)
      simp only [if_neg helse, conditional_stray _ _ _ hstray]
      exact leaves_ok hstray.isBlocked
    · rw [if_neg hif]
      exact leaves_ok ⟨w, tail, rfl, hw, hblocked⟩

theorem parser_blocked (h : ∀ levels, Stops (Expr.unconditional (nestedAt levels)) ls)
    (levels : Nat) : Leaves IsBlocked (parser levels ls) := by
  match levels with
  | 0 | 1 => exact leaves_error _
  | levels + 2 =>
    exact (h levels).blocked.bind fun e _ hr => conditional_blocked (h levels) _ e hr

theorem Stops.parens (hs : StartsOperand ls)
    (h : ∀ levels, Stops (Expr.unconditional (nestedAt levels)) ls) (levels : Nat) :
    Stops (Expr.unconditional (nestedAt levels)) (.sign .openParen :: ls) := by
  have hparens : Leaves (fun _ => False) (Expr.parens (parser levels) ls) := by
    obtain ⟨l, more, rfl, -, hl⟩ := hs
    rw [Expr.parens.eq_2 _ _ (by rintro _ ⟨⟩; exact hl rfl)]
    refine (parser_blocked h levels).bind fun e rest hr => ?_
    obtain ⟨w, tail, rfl, -⟩ := hr
    exact leaves_error _
  have haccessed : Leaves (fun _ => False)
      (accessed (nestedAt levels) (.sign .openParen :: ls)) := by
    rw [accessed, signed.eq_2 _ _ (by rintro _ ⟨⟩), primary]
    exact hparens.bind fun _ _ hf => hf.elim
  have hrefined : Stops (refined (nestedAt levels)) (.sign .openParen :: ls) :=
    ⟨fun tail ht => refined_deadEnd ht, haccessed.bind fun _ _ hf => hf.elim⟩
  exact (hrefined.sum.comparison.negation (startsOperand_parens ls)).unconditional

theorem whole_blocked (h : ∀ levels, Stops (Expr.unconditional (nestedAt levels)) ls)
    (levels : Nat) : ∃ r, LexemeParser.whole (parser levels) ls = .error r := by
  have hp := parser_blocked h levels
  rw [LexemeParser.whole]
  cases hr : parser levels ls with
  | error r => exact ⟨r, rfl⟩
  | ok result =>
    obtain ⟨w, tail, ht, -⟩ := hp result.1 result.2 hr
    refine ⟨.unexpected, ?_⟩
    change (if result.2 = [] then _ else _) = _
    rw [if_neg (by rw [ht]; exact List.cons_ne_nil _ _)]

end Curly.Script.Expr

import Curly.Script.Expr

namespace Curly.Script

/-- An outcome that takes some levels of nesting. -/
def within {α : Type} (need levels : Nat) (a : α) : Except Refusal α :=
  if need ≤ levels then .ok a else .error .tooDeep

theorem within_zero {α : Type} (levels : Nat) (a : α) : within 0 levels a = .ok a := by
  simp [within]

theorem within_succ {α : Type} (need levels : Nat) (a : α) :
    within (need + 1) (levels + 1) a = within need levels a := by
  simp [within]

/-- What is done one after the other takes the most levels that one part of it takes. -/
theorem within_bind_bind {α β γ : Type} {need need' levels : Nat} {a : α} {b : β}
    {f : α → Except Refusal γ} {g : β → Except Refusal γ}
    (h : f a = (within need' levels b).bind g) :
    (within need levels a).bind f = (within (max need need') levels b).bind g := by
  unfold within at h ⊢
  by_cases hn : need ≤ levels
  · rw [if_pos hn]
    change f a = _
    rw [h]
    by_cases hn' : need' ≤ levels
    · rw [if_pos hn', if_pos (Nat.max_le.mpr ⟨hn, hn'⟩)]
    · rw [if_neg hn', if_neg fun h => hn' (Nat.max_le.mp h).2]
  · rw [if_neg hn, if_neg fun h => hn (Nat.max_le.mp h).1]
    rfl

theorem within_bind {α β : Type} {need need' levels : Nat} {a : α} {b : β}
    {f : α → Except Refusal β} (h : f a = within need' levels b) :
    (within need levels a).bind f = within (max need need') levels b := by
  have hok (need : Nat) : (within need levels b).bind .ok = within need levels b := by
    unfold within
    split <;> rfl
  rw [← hok need'] at h
  rw [within_bind_bind h, hok]

theorem within_bind_ok {α β : Type} {need levels : Nat} {a : α} {b : β}
    {f : α → Except Refusal β} (h : f a = .ok b) :
    (within need levels a).bind f = within need levels b := by
  have hw : (within need levels a).bind f = within (max need 0) levels b :=
    within_bind (h.trans (within_zero levels b).symm)
  rwa [Nat.max_zero] at hw

theorem within_bind_congr {α β γ : Type} {need levels : Nat} {a : α} {b : β}
    {f : α → Except Refusal γ} {g : β → Except Refusal γ} (h : f a = g b) :
    (within need levels a).bind f = (within need levels b).bind g := by
  unfold within
  split
  · exact h
  · rfl

namespace Expr

open LexemeParser

def Follows (ends rest : List Lexeme) : Prop := ∀ l ∈ rest.head?, l ∈ ends

theorem Follows.mono {ends ends' rest : List Lexeme} (h : Follows ends rest)
    (hs : ∀ l ∈ ends, l ∈ ends') : Follows ends' rest := fun l hl => hs l (h l hl)

theorem follows_cons {ends : List Lexeme} {l : Lexeme} (rest : List Lexeme) (h : l ∈ ends) :
    Follows ends (l :: rest) := by
  simpa [Follows] using h

theorem follows_nil (ends : List Lexeme) : Follows ends [] := by simp [Follows]

def exprEnds : List Lexeme := [.sign .closeParen, .sign .closeBracket]

def unconditionalEnds : List Lexeme := Lexeme.keyword "if" :: Lexeme.keyword "else" :: exprEnds

def operandEnds : List Lexeme :=
  Lexeme.keyword "and" :: Lexeme.keyword "or" :: unconditionalEnds

def accessEnds : List Lexeme := .sign .pipe :: Lexeme.keyword "is" :: operandEnds

/-- What is nested in an expression that takes two levels more. -/
def nestedAt (levels : Nat) : Nested := ⟨parser levels, parser (levels + 1)⟩

def ReadsAccessed (need : Nat) (ls : List Lexeme) (e : Expr) : Prop :=
  ∀ levels rest, Follows accessEnds rest →
    accessed (nestedAt levels) (ls ++ rest) = within need levels (e, rest)

/-- Whether an operand may start so: not with `not`, and not with the end of an empty list. -/
def StartsOperand (ls : List Lexeme) : Prop :=
  ∃ l more, ls = l :: more ∧ l ≠ Lexeme.keyword "not" ∧ l ≠ .sign .closeParen

structure ReadsOperand (need : Nat) (ls : List Lexeme) (e : Expr) : Prop where
  start : StartsOperand ls
  reads : ∀ levels rest, Follows operandEnds rest →
    refined (nestedAt levels) (ls ++ rest) = within need levels (e, rest)

def ReadsNegation (need : Nat) (ls : List Lexeme) (e : Expr) : Prop :=
  ∀ levels rest, Follows operandEnds rest →
    negation (nestedAt levels) (ls ++ rest) = within need levels (e, rest)

def ReadsUnconditional (need : Nat) (ls : List Lexeme) (e : Expr) : Prop :=
  ∀ levels rest, Follows unconditionalEnds rest →
    unconditional (nestedAt levels) (ls ++ rest) = within need levels (e, rest)

def ReadsExpr (need : Nat) (ls : List Lexeme) (e : Expr) : Prop :=
  ∀ levels rest, Follows exprEnds rest →
    parser levels (ls ++ rest) = within need levels (e, rest)

variable {need need' : Nat} {ls ms : List Lexeme} {e e' : Expr}

theorem StartsOperand.append (h : StartsOperand ls) (ms : List Lexeme) :
    StartsOperand (ls ++ ms) := by
  obtain ⟨l, more, rfl, hl⟩ := h
  exact ⟨l, more ++ ms, rfl, hl⟩

theorem startsOperand_text (s : Text) (ls : List Lexeme) : StartsOperand (.text s :: ls) :=
  ⟨.text s, ls, rfl, by simp, by simp⟩

theorem startsOperand_parens (ls : List Lexeme) : StartsOperand (.sign .openParen :: ls) :=
  ⟨.sign .openParen, ls, rfl, by decide, by decide⟩

theorem chainLeft_stop {op? : Lexeme → Option BinaryOp} (operand : LexemeParser Expr)
    (fuel : Nat) (e : Expr) {rest : List Lexeme} (h : ∀ l ∈ rest.head?, op? l = none) :
    chainLeft op? operand fuel e rest = .ok (e, rest) := by
  cases rest with
  | nil => cases fuel <;> rfl
  | cons l rest =>
    cases fuel with
    | zero => rfl
    | succ fuel => rw [chainLeft, h l rfl]

theorem level_stop {op? : Lexeme → Option BinaryOp} {operand : LexemeParser Expr} {levels : Nat}
    {ls rest : List Lexeme} (ho : operand ls = within need levels (e, rest))
    (h : ∀ l ∈ rest.head?, op? l = none) :
    level op? operand ls = within need levels (e, rest) := by
  rw [level, ho]
  exact within_bind_ok (chainLeft_stop operand rest.length e h)

theorem ops_operandEnds : ∀ l ∈ operandEnds, powerOp? l = none ∧ productOp? l = none ∧
    concatOp? l = none ∧ sumOp? l = none ∧ comparison? l = none ∧ l ≠ Lexeme.keyword "not" := by
  simp only [operandEnds, unconditionalEnds, exprEnds, List.mem_cons, List.not_mem_nil, or_false]
  rintro l (rfl | rfl | rfl | rfl | rfl | rfl) <;> decide

theorem access_stop (nested : LexemeParser Expr) (fuel : Nat) (e : Expr) {rest : List Lexeme}
    (h : Follows accessEnds rest) : access nested fuel e rest = .ok (e, rest) := by
  cases fuel with
  | zero => rfl
  | succ fuel =>
    cases rest with
    | nil => rfl
    | cons l rest =>
      have hl := h l rfl
      simp only [accessEnds, operandEnds, unconditionalEnds, exprEnds, List.mem_cons,
        List.not_mem_nil, or_false] at hl
      obtain rfl | rfl | rfl | rfl | rfl | rfl | rfl | rfl := hl <;> rfl

theorem refine_stop (nested : Nested) (fuel : Nat) (e : Expr) {rest : List Lexeme}
    (h : Follows operandEnds rest) : refine nested fuel e rest = .ok (e, rest) := by
  cases fuel with
  | zero => rfl
  | succ fuel =>
    cases rest with
    | nil => rfl
    | cons l rest =>
      have hl := h l rfl
      simp only [operandEnds, unconditionalEnds, exprEnds, List.mem_cons, List.not_mem_nil,
        or_false] at hl
      obtain rfl | rfl | rfl | rfl | rfl | rfl := hl <;> simp [refine]

theorem dottedName_stop (name : Text) {rest : List Lexeme} (h : Follows operandEnds rest) :
    dottedName name rest = .ok (name, rest) := by
  cases rest with
  | nil => rfl
  | cons l rest =>
    have hl : l ≠ .sign .dot := by
      rintro rfl
      exact absurd (h _ rfl) (by decide)
    unfold dottedName
    split <;> simp_all

theorem filterArguments_stop (nested : LexemeParser Expr) {rest : List Lexeme}
    (h : Follows operandEnds rest) : filterArguments nested rest = .ok ([], rest) := by
  cases rest with
  | nil => rfl
  | cons l rest =>
    have hl : l ≠ .sign .openParen := by
      rintro rfl
      exact absurd (h _ rfl) (by decide)
    unfold filterArguments
    split <;> simp_all

theorem links_stop (nested : Nested) (fuel : Nat) {rest : List Lexeme}
    (h : Follows operandEnds rest) : links nested fuel rest = .ok ([], rest) := by
  cases rest with
  | nil => cases fuel <;> simp [links]
  | cons l rest =>
    cases fuel with
    | zero => simp [links]
    | succ fuel =>
      obtain ⟨-, -, -, -, hc, hn⟩ := ops_operandEnds l (h l rfl)
      rw [links, hc]
      simp only [if_neg hn]

theorem comparison_of_refined {levels : Nat} {ls rest : List Lexeme}
    (h : refined (nestedAt levels) ls = within need levels (e, rest))
    (hr : Follows operandEnds rest) :
    comparison (nestedAt levels) ls = within need levels (e, rest) := by
  have hops := fun l hl => ops_operandEnds l (hr l hl)
  have hpower := level_stop h fun l hl => (hops l hl).1
  have hproduct := level_stop hpower fun l hl => (hops l hl).2.1
  have hconcat := level_stop hproduct fun l hl => (hops l hl).2.2.1
  have hsum := level_stop hconcat fun l hl => (hops l hl).2.2.2.1
  have hsum : sum (nestedAt levels) ls = within need levels (e, rest) := hsum
  rw [comparison, hsum]
  refine within_bind_ok ?_
  simp only [links_stop (nestedAt levels) rest.length hr]
  rfl

theorem ReadsAccessed.operand (h : ReadsAccessed need ls e)
    (hs : StartsOperand ls) : ReadsOperand need ls e := by
  refine ⟨hs, fun levels rest hr => ?_⟩
  rw [refined, h levels rest (hr.mono fun l hl => by simp [accessEnds, hl])]
  exact within_bind_ok (refine_stop (nestedAt levels) rest.length e hr)

theorem ReadsAccessed.filtered (h : ReadsAccessed need ls e)
    (hs : StartsOperand ls) (w : Text) :
    ReadsOperand need (ls ++ [.sign .pipe, .word w]) (filter e w []) := by
  refine ⟨hs.append _, fun levels rest hr => ?_⟩
  have ha := h levels (.sign .pipe :: .word w :: rest) (follows_cons _ (by decide))
  rw [List.append_assoc, refined]
  change ((accessed _ (ls ++ .sign .pipe :: .word w :: rest)).bind _) = _
  rw [ha]
  refine within_bind_ok ?_
  change refine (nestedAt levels) (rest.length + 1 + 1) e (.sign .pipe :: .word w :: rest) = _
  rw [refine, dottedName_stop w hr]
  change (filterArguments (nestedAt levels).behind rest).bind _ = _
  rw [filterArguments_stop _ hr]
  exact refine_stop _ _ _ hr

theorem ReadsAccessed.tested (h : ReadsAccessed need ls e) {w : Text}
    (hw : Lexeme.word w ≠ Lexeme.keyword "not") (levels : Nat) (rest : List Lexeme) :
    refined (nestedAt levels)
        (ls ++ Lexeme.keyword "is" :: .word w :: Lexeme.keyword "else" :: rest) =
      within need levels (test e w [], Lexeme.keyword "else" :: rest) := by
  have ha := h levels (Lexeme.keyword "is" :: .word w :: Lexeme.keyword "else" :: rest)
    (follows_cons _ (by decide))
  have hr : Follows operandEnds (Lexeme.keyword "else" :: rest) := follows_cons _ (by decide)
  have hskip : skipWord "not" (.word w :: Lexeme.keyword "else" :: rest) =
      (false, .word w :: Lexeme.keyword "else" :: rest) := if_neg hw
  rw [refined, ha]
  refine within_bind_ok ?_
  change refine (nestedAt levels) (rest.length + 1 + 1 + 1) e
    (Lexeme.keyword "is" :: .word w :: Lexeme.keyword "else" :: rest) = _
  rw [refine, if_pos rfl, hskip]
  simp only [dottedName_stop w hr]
  exact refine_stop _ _ _ hr

theorem readsAccessed_text (s : Text) : ReadsAccessed 0 [.text s] (const (.plain s)) := by
  intro levels rest hr
  have hjoin : joinTexts rest = ([], rest) := by
    cases rest with
    | nil => rfl
    | cons l rest =>
      have hl (t : Text) : l ≠ .text t := by
        rintro rfl
        have hm := hr _ rfl
        simp [accessEnds, operandEnds, unconditionalEnds, exprEnds] at hm
      unfold joinTexts
      split <;> simp_all
  have hs : signed (nestedAt levels) (.text s :: rest) = .ok (const (.plain s), rest) := by
    simp only [signed, primary, hjoin, List.append_nil]
  rw [List.cons_append, List.nil_append, accessed, hs, within_zero]
  exact access_stop _ _ _ hr

theorem readsAccessed_call {w : Text} (h : ofWord w = name w) :
    ReadsAccessed 0 [.word w, .sign .openParen, .sign .closeParen] (call (name w) []) := by
  intro levels rest hr
  have hs : signed (nestedAt levels) (.word w :: .sign .openParen :: .sign .closeParen :: rest) =
      .ok (name w, .sign .openParen :: .sign .closeParen :: rest) := by
    rw [signed.eq_2 _ _ (by rintro _ ⟨⟩), primary, h]
  have hargs : arguments (nestedAt levels).behind (.sign .closeParen :: rest) = .ok ([], rest) := by
    rw [arguments, List.length_cons, itemsUntil, if_pos rfl]
  rw [within_zero, accessed, List.cons_append, List.cons_append, List.cons_append,
    List.nil_append, hs]
  change access _ (rest.length + 1 + 1) _ (.sign .openParen :: .sign .closeParen :: rest) = _
  rw [access, hargs]
  exact access_stop _ _ _ hr

theorem ReadsExpr.parens (h : ReadsExpr need ls e) (hs : StartsOperand ls) :
    ReadsAccessed need (.sign .openParen :: ls ++ [.sign .closeParen]) e := by
  intro levels rest hr
  obtain ⟨l, more, rfl, -, hl⟩ := hs
  have he := h levels (.sign .closeParen :: rest) (follows_cons _ (by decide))
  have hp : Expr.parens (parser levels) (l :: (more ++ .sign .closeParen :: rest)) =
      within need levels (e, rest) := by
    rw [Expr.parens.eq_2 _ _ (by rintro _ ⟨⟩; exact hl rfl)]
    rw [List.cons_append] at he
    change (parser levels _).bind _ = _
    rw [he]
    exact within_bind_ok rfl
  have hsigned : signed (nestedAt levels)
      (.sign .openParen :: (l :: (more ++ .sign .closeParen :: rest))) =
        within need levels (e, rest) := by
    rw [signed.eq_2 _ _ (by rintro _ ⟨⟩), primary]
    exact hp
  have htext : .sign .openParen :: (l :: more) ++ [.sign .closeParen] ++ rest =
      .sign .openParen :: (l :: (more ++ .sign .closeParen :: rest)) := by simp
  rw [htext, accessed, hsigned]
  exact within_bind_ok (access_stop _ _ _ hr)

theorem ReadsOperand.negation (h : ReadsOperand need ls e) : ReadsNegation need ls e := by
  intro levels rest hr
  obtain ⟨l, more, rfl, hl, -⟩ := h.start
  have hc := comparison_of_refined (h.reads levels rest hr) hr
  rw [List.cons_append, Expr.negation, if_neg hl]
  exact hc

theorem ReadsNegation.not (h : ReadsNegation need ls e) :
    ReadsNegation need (Lexeme.keyword "not" :: ls) (unary .not e) := by
  intro levels rest hr
  rw [List.cons_append, Expr.negation, if_pos rfl, h levels rest hr]
  exact within_bind_ok rfl

theorem ops_unconditionalEnds : ∀ l ∈ unconditionalEnds, andOp? l = none ∧ orOp? l = none := by
  simp only [unconditionalEnds, exprEnds, List.mem_cons, List.not_mem_nil, or_false]
  rintro l (rfl | rfl | rfl | rfl) <;> decide

theorem unconditional_of_negation {levels : Nat} {ls rest : List Lexeme}
    (h : negation (nestedAt levels) ls = within need levels (e, rest))
    (hr : Follows unconditionalEnds rest) :
    unconditional (nestedAt levels) ls = within need levels (e, rest) :=
  level_stop (level_stop h fun l hl => (ops_unconditionalEnds l (hr l hl)).1)
    fun l hl => (ops_unconditionalEnds l (hr l hl)).2

theorem ReadsNegation.unconditional (h : ReadsNegation need ls e) :
    ReadsUnconditional need ls e := by
  intro levels rest hr
  refine unconditional_of_negation (h levels rest (hr.mono fun l hl => ?_)) hr
  simp [operandEnds, hl]

def conjuncts (operands : List (List Lexeme × Expr)) : List Lexeme :=
  operands.flatMap fun (ls, _) => Lexeme.keyword "and" :: ls

theorem length_conjuncts (operands : List (List Lexeme × Expr)) :
    operands.length ≤ (conjuncts operands).length := by
  induction operands with
  | nil => exact Nat.le_refl _
  | cons o operands ih =>
    simp only [conjuncts, List.flatMap_cons, List.length_append, List.length_cons] at ih ⊢
    omega

theorem chainLeft_conjuncts {operands : List (List Lexeme × Expr)}
    (ho : ∀ o ∈ operands, ReadsNegation need o.1 o.2) {levels : Nat} (hn : need ≤ levels)
    {rest : List Lexeme} (hr : Follows operandEnds rest) (fuel : Nat) (e : Expr) :
    chainLeft andOp? (negation (nestedAt levels)) (operands.length + fuel) e
        (conjuncts operands ++ rest) =
      chainLeft andOp? (negation (nestedAt levels)) fuel
        (operands.foldl (fun e o => binary .and e o.2) e) rest := by
  have hnext (os : List (List Lexeme × Expr)) : Follows operandEnds (conjuncts os ++ rest) := by
    cases os with
    | nil => exact hr
    | cons o os => exact follows_cons _ (by decide)
  induction operands generalizing e with
  | nil => rw [List.length_nil, Nat.zero_add, conjuncts, List.flatMap_nil, List.nil_append,
      List.foldl_nil]
  | cons o operands ih =>
    have ho' := fun o' hm => ho o' (List.mem_cons_of_mem _ hm)
    have hread := ho o (List.mem_cons_self ..) levels _ (hnext operands)
    rw [within, if_pos hn] at hread
    have htext : conjuncts (o :: operands) ++ rest =
        Lexeme.keyword "and" :: (o.1 ++ (conjuncts operands ++ rest)) := by simp [conjuncts]
    have hop : andOp? (Lexeme.keyword "and") = some .and := by decide
    rw [htext, List.length_cons, Nat.add_right_comm, chainLeft, hop]
    simp only [hread]
    exact ih ho' (binary .and e o.2)

theorem exists_fuel (operands : List (List Lexeme × Expr)) (rest : List Lexeme) :
    ∃ fuel, (conjuncts operands ++ rest).length = operands.length + fuel ∧ rest.length ≤ fuel := by
  have h := length_conjuncts operands
  refine ⟨(conjuncts operands).length - operands.length + rest.length, ?_, Nat.le_add_left _ _⟩
  rw [List.length_append]
  omega

theorem ReadsNegation.conjunction (h : ReadsNegation need ls e)
    {operands : List (List Lexeme × Expr)} (ho : ∀ o ∈ operands, ReadsNegation need o.1 o.2) :
    ReadsUnconditional need (ls ++ conjuncts operands)
      (operands.foldl (fun e o => binary .and e o.2) e) := by
  intro levels rest hr
  have hnext : Follows operandEnds (conjuncts operands ++ rest) := by
    cases operands with
    | nil => exact hr.mono fun l hl => by simp [operandEnds, hl]
    | cons o os => exact follows_cons _ (by decide)
  have hlevel : level andOp? (Expr.negation (nestedAt levels))
      (ls ++ (conjuncts operands ++ rest)) =
        within need levels (operands.foldl (fun e o => binary .and e o.2) e, rest) := by
    rw [level, h levels _ hnext]
    by_cases hn : need ≤ levels
    · obtain ⟨fuel, hfuel, -⟩ := exists_fuel operands rest
      refine within_bind_ok ?_
      change chainLeft _ _ (conjuncts operands ++ rest).length e _ = _
      rw [hfuel, chainLeft_conjuncts ho hn (hr.mono fun l hl => by simp [operandEnds, hl])]
      exact chainLeft_stop _ _ _ fun l hl => (ops_unconditionalEnds l (hr l hl)).1
    · rw [within, if_neg hn, within, if_neg hn]
      rfl
  rw [List.append_assoc]
  exact level_stop hlevel fun l hl => (ops_unconditionalEnds l (hr l hl)).2

theorem ReadsNegation.or (h : ReadsNegation need ls e) (h' : ReadsNegation need' ms e') :
    ReadsUnconditional (max need need') (ls ++ Lexeme.keyword "or" :: ms) (binary .or e e') := by
  intro levels rest hr
  have hr' : Follows operandEnds rest := hr.mono fun l hl => by simp [operandEnds, hl]
  have hand : level andOp? (Expr.negation (nestedAt levels))
      (ls ++ Lexeme.keyword "or" :: (ms ++ rest)) =
        within need levels (e, Lexeme.keyword "or" :: (ms ++ rest)) :=
    level_stop (h levels _ (follows_cons _ (by decide))) (by simp; decide)
  have hand' := level_stop (h' levels rest hr') fun l hl => (ops_unconditionalEnds l (hr l hl)).1
  have htext : ls ++ Lexeme.keyword "or" :: ms ++ rest =
      ls ++ Lexeme.keyword "or" :: (ms ++ rest) := by simp
  have hop : orOp? (Lexeme.keyword "or") = some .or := by decide
  rw [htext, Expr.unconditional, level, hand]
  refine within_bind ?_
  change chainLeft orOp? _ ((ms ++ rest).length + 1) e (Lexeme.keyword "or" :: (ms ++ rest)) = _
  rw [chainLeft, hop]
  simp only [hand']
  exact within_bind_ok (chainLeft_stop _ _ _ fun l hl => (ops_unconditionalEnds l (hr l hl)).2)

theorem conditional_stop (nested : Nested) (fuel : Nat) (e : Expr) {rest : List Lexeme}
    (hr : Follows exprEnds rest) : conditional nested fuel e rest = .ok (e, rest) := by
  cases rest with
  | nil => cases fuel <;> rfl
  | cons l rest =>
    cases fuel with
    | zero => rfl
    | succ fuel =>
      have hl : l ≠ Lexeme.keyword "if" := by
        rintro rfl
        exact absurd (hr _ rfl) (by decide)
      rw [conditional, if_neg hl]

theorem parser_eq_within {ls rest : List Lexeme}
    (h : ∀ levels, ((unconditional (nestedAt levels) ls).bind fun (e, ls) =>
      conditional (nestedAt levels) ls.length e ls) = within need levels (e, rest)) (levels : Nat) :
    parser levels ls = within (need + 2) levels (e, rest) := by
  match levels with
  | 0 | 1 =>
    rw [within, if_neg (by omega)]
    rfl
  | levels + 2 =>
    rw [within_succ, within_succ, ← h levels]
    rfl

theorem ReadsUnconditional.expr (h : ReadsUnconditional need ls e) : ReadsExpr (need + 2) ls e := by
  intro levels rest hr
  refine parser_eq_within (fun levels => ?_) levels
  rw [h levels rest (hr.mono fun l hl => by simp [unconditionalEnds, hl])]
  exact within_bind_ok (conditional_stop _ _ _ hr)

theorem ReadsUnconditional.ifDefined {gs : List Lexeme} {g : Expr}
    (h : ReadsUnconditional need ls e) (hg : ReadsAccessed need' gs g)
    (hs : StartsOperand gs) (s : Text) :
    ReadsExpr (max need need' + 2)
      (ls ++ Lexeme.keyword "if" :: (gs ++ [Lexeme.keyword "is", Lexeme.keyword "defined",
        Lexeme.keyword "else", .text s]))
      (cond (test g "defined".toList []) e (const (.plain s))) := by
  intro levels rest hr
  refine parser_eq_within (fun levels => ?_) levels
  have htext : ls ++ Lexeme.keyword "if" :: (gs ++ [Lexeme.keyword "is", Lexeme.keyword "defined",
      Lexeme.keyword "else", .text s]) ++ rest =
    ls ++ Lexeme.keyword "if" :: (gs ++ Lexeme.keyword "is" :: Lexeme.keyword "defined" ::
      Lexeme.keyword "else" :: .text s :: rest) := by simp
  have hguard : unconditional (nestedAt levels) (gs ++ Lexeme.keyword "is" ::
      Lexeme.keyword "defined" :: Lexeme.keyword "else" :: .text s :: rest) =
        within need' levels
          (test g "defined".toList [], Lexeme.keyword "else" :: .text s :: rest) := by
    have ht := hg.tested (w := "defined".toList) (by decide) levels (.text s :: rest)
    have hc := comparison_of_refined ht (follows_cons _ (by decide))
    obtain ⟨l, more, rfl, hl, -⟩ := hs
    refine unconditional_of_negation ?_ (follows_cons _ (by decide))
    rw [List.cons_append, Expr.negation, if_neg hl]
    exact hc
  have hno : unconditional (nestedAt levels) (.text s :: rest) = .ok (const (.plain s), rest) := by
    have ho := (readsAccessed_text s).operand (startsOperand_text s [])
    have hu := ho.negation.unconditional levels rest
      (hr.mono fun l hl => by simp [unconditionalEnds, hl])
    rwa [within_zero] at hu
  rw [htext, h levels _ (follows_cons _ (by decide))]
  refine within_bind ?_
  generalize htail : gs ++ Lexeme.keyword "is" :: Lexeme.keyword "defined" ::
    Lexeme.keyword "else" :: .text s :: rest = tail at hguard
  change conditional (nestedAt levels) (tail.length + 1) e (Lexeme.keyword "if" :: tail) = _
  rw [conditional, if_pos rfl, hguard]
  refine within_bind_ok ?_
  simp only [if_true, hno]
  change (conditional _ _ _ _).bind _ = _
  rw [conditional_stop _ _ _ hr]
  rfl

theorem ReadsExpr.whole (h : ReadsExpr need ls e) (levels : Nat) :
    LexemeParser.whole (parser levels) ls = within need levels e := by
  have he := h levels [] (follows_nil _)
  rw [List.append_nil] at he
  rw [LexemeParser.whole, he]
  exact within_bind_ok rfl

theorem ReadsUnconditional.whole (h : ReadsUnconditional need ls e) (levels : Nat) :
    LexemeParser.whole (plainParser levels) ls = within (need + 1) levels e := by
  cases levels with
  | zero => rfl
  | succ levels =>
    have he := h levels [] (follows_nil _)
    rw [List.append_nil] at he
    rw [within_succ, LexemeParser.whole, plainParser]
    change (Expr.unconditional (nestedAt levels) ls).bind _ = _
    rw [he]
    exact within_bind_ok rfl

end Expr

end Curly.Script

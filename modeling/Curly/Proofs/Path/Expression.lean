import Curly.Proofs.Path.Spelling
import Curly.Proofs.Script.Parsing

namespace Curly

namespace Path

open Script Expr

def segmentExpr (e : Expr) (segment : Text) : Expr :=
  match startsWithDigit segment, numeral? segment with
  | true, some n => .item e (.const (.nat n))
  | _, _ => .attr e segment

def rootExpr (name : Text) : Expr :=
  if isQuoted name then .item (.name data) (.const (.plain name)) else .name name

def rootLevels (name : Text) : Nat := if isQuoted name then 1 else 0

theorem rootLevels_le (name : Text) : rootLevels name ≤ 1 := by
  unfold rootLevels
  split <;> omega

theorem isQuoted_data : isQuoted data = false := by decide

theorem ofWord_of_not_isQuoted {name : Text} (h : isQuoted name = false) :
    Expr.ofWord name = .name name := by
  have hk : name ∉ keywords := by
    intro hm
    simp [isQuoted, hm] at h
  simp only [keywords, List.mem_cons, List.not_mem_nil, or_false, not_or] at hk
  simp only [Expr.ofWord, hk, or_self, if_false]

theorem isQuoted_of_rootLookup {name : Text} (h : rootLookup name = name) :
    isQuoted name = false := by
  rw [← Bool.not_eq_true]
  intro hq
  have hq : (startsWithDigit name || name ∈ keywords) = true := hq
  have hlen := congrArg List.length h
  rw [rootLookup, if_pos hq] at hlen
  simp only [List.length_append, List.length_cons, List.length_nil] at hlen
  omega

theorem access_dotted (nested : LexemeParser Expr) (segments : List Text) (fuel : Nat) (e : Expr)
    (rest : List Lexeme) :
    access nested (segments.length + fuel) e (dottedLexemes segments ++ rest) =
      access nested fuel (segments.foldl segmentExpr e) rest := by
  induction segments generalizing e with
  | nil => rw [List.length_nil, Nat.zero_add, dottedLexemes, List.flatMap_nil, List.nil_append,
      List.foldl_nil]
  | cons segment segments ih =>
    have htext : dottedLexemes (segment :: segments) ++ rest =
        .sign .dot :: segmentLexeme segment :: (dottedLexemes segments ++ rest) := by
      simp [dottedLexemes]
    rw [htext, List.length_cons, Nat.add_right_comm, List.foldl_cons,
      ← ih (segmentExpr e segment), segmentLexeme, segmentExpr]
    cases startsWithDigit segment with
    | false => rfl
    | true => cases numeral? segment <;> rfl

theorem length_dottedLexemes (segments : List Text) :
    segments.length ≤ (dottedLexemes segments).length := by
  induction segments with
  | nil => exact Nat.le_refl _
  | cons segment segments ih =>
    simp only [dottedLexemes, List.flatMap_cons, List.length_append, List.length_cons] at ih ⊢
    omega

theorem accessed_root (name : Text) (levels : Nat) (tail : List Lexeme) :
    ∃ fuel, tail.length ≤ fuel ∧ accessed (nestedAt levels) (rootLexemes name ++ tail) =
      (within (rootLevels name) levels (rootExpr name)).bind fun e =>
        access (parser (levels + 1)) fuel e tail := by
  cases hq : isQuoted name with
  | false =>
    have hl : rootLexemes name = [.word name] := by simp [rootLexemes, hq]
    have he : rootExpr name = .name name := by simp [rootExpr, hq]
    have hn : rootLevels name = 0 := by simp [rootLevels, hq]
    rw [hl, he, hn, within_zero, ← ofWord_of_not_isQuoted hq]
    exact ⟨tail.length, Nat.le_refl _, rfl⟩
  | true =>
    have hl : rootLexemes name =
        [.word data, .sign .openBracket, .text name, .sign .closeBracket] := by
      simp [rootLexemes, hq]
    have he : rootExpr name = .item (.name data) (.const (.plain name)) := by simp [rootExpr, hq]
    have hn : rootLevels name = 1 := by simp [rootLevels, hq]
    have hkey : parser (levels + 1) (.text name :: .sign .closeBracket :: tail) =
        within 1 levels (.const (.plain name), .sign .closeBracket :: tail) := by
      have ho := (readsAccessed_text name).operand (startsOperand_text name [])
      have h := ho.negation.unconditional.expr (levels + 1) (.sign .closeBracket :: tail)
        (follows_cons _ (by decide))
      rwa [within_succ] at h
    refine ⟨tail.length + 1 + 1, by omega, ?_⟩
    rw [hl, he, hn]
    change access (parser (levels + 1)) (tail.length + 1 + 1 + 1) (Expr.ofWord data)
      (.sign .openBracket :: .text name :: .sign .closeBracket :: tail) = _
    rw [ofWord_of_not_isQuoted isQuoted_data, access, hkey]
    exact within_bind_congr rfl

theorem accessed_reference (name : Text) (segments : List Text) (levels : Nat)
    (tail : List Lexeme) :
    ∃ fuel, tail.length ≤ fuel ∧
      accessed (nestedAt levels) (rootLexemes name ++ dottedLexemes segments ++ tail) =
        (within (rootLevels name) levels (segments.foldl segmentExpr (rootExpr name))).bind fun e =>
          access (parser (levels + 1)) fuel e tail := by
  obtain ⟨fuel, hfuel, h⟩ := accessed_root name levels (dottedLexemes segments ++ tail)
  have hlength := length_dottedLexemes segments
  rw [List.length_append] at hfuel
  obtain ⟨more, rfl⟩ : ∃ more, fuel = segments.length + more :=
    Nat.exists_eq_add_of_le (by omega)
  refine ⟨more, by omega, ?_⟩
  rw [List.append_assoc, h]
  exact within_bind_congr (access_dotted _ segments more (rootExpr name) tail)

theorem readsAccessed_reference (name : Text) (segments : List Text) :
    ReadsAccessed (rootLevels name) (rootLexemes name ++ dottedLexemes segments)
      (segments.foldl segmentExpr (rootExpr name)) := by
  intro levels rest hr
  obtain ⟨fuel, -, h⟩ := accessed_reference name segments levels rest
  rw [h]
  exact within_bind_ok (access_stop _ _ _ hr)

theorem readsAccessed_root (name : Text) :
    ReadsAccessed (rootLevels name) (rootLexemes name) (rootExpr name) := by
  have h := readsAccessed_reference name []
  rwa [dottedLexemes, List.flatMap_nil, List.append_nil] at h

theorem startsOperand_root (name : Text) : StartsOperand (rootLexemes name) := by
  cases hq : isQuoted name with
  | false =>
    refine ⟨.word name, [], by simp [rootLexemes, hq], ?_, by simp⟩
    rintro ⟨⟩
    revert hq
    decide
  | true =>
    exact ⟨.word data, [.sign .openBracket, .text name, .sign .closeBracket],
      by simp [rootLexemes, hq], by decide, by decide⟩

/-- The references that go on from one by a segment at a time, each with what it is read as. -/
def references (ls : List Lexeme) (e : Expr) : List Text → List (List Lexeme × Expr)
  | [] => []
  | segment :: rest =>
    let ls := ls ++ [.sign .dot, segmentLexeme segment]
    let e := segmentExpr e segment
    (ls, e) :: references ls e rest

theorem chainLexemes_eq (ls : List Lexeme) (e : Expr) (segments : List Text) :
    chainLexemes ls segments = ls ++ conjuncts (references ls e segments) := by
  induction segments generalizing ls e with
  | nil => simp [chainLexemes, references, conjuncts]
  | cons segment segments ih =>
    rw [chainLexemes, ih _ (segmentExpr e segment)]
    simp [references, conjuncts]

theorem readsNegation_reference (name : Text) (segments : List Text) :
    ReadsNegation (rootLevels name) (rootLexemes name ++ dottedLexemes segments)
      (segments.foldl segmentExpr (rootExpr name)) := by
  exact ((readsAccessed_reference name segments).operand
    ((startsOperand_root name).append _)).negation

theorem readsNegation_of_mem_references (name : Text) (before segments : List Text) :
    ∀ o ∈ references (rootLexemes name ++ dottedLexemes before)
      (before.foldl segmentExpr (rootExpr name)) segments,
        ReadsNegation (rootLevels name) o.1 o.2 := by
  induction segments generalizing before with
  | nil => simp [references]
  | cons segment segments ih =>
    have hl : rootLexemes name ++ dottedLexemes before ++ [.sign .dot, segmentLexeme segment] =
        rootLexemes name ++ dottedLexemes (before ++ [segment]) := by simp [dottedLexemes]
    have he : segmentExpr (before.foldl segmentExpr (rootExpr name)) segment =
        (before ++ [segment]).foldl segmentExpr (rootExpr name) := by simp
    intro o ho
    rw [references, hl, he] at ho
    obtain rfl | ho := List.mem_cons.mp ho
    · exact readsNegation_reference name (before ++ [segment])
    · exact ih (before ++ [segment]) o ho

theorem readsNegation_references (name : Text) (segments : List Text) :
    ReadsNegation (rootLevels name) (rootLexemes name) (rootExpr name) ∧
      ∀ o ∈ references (rootLexemes name) (rootExpr name) segments,
        ReadsNegation (rootLevels name) o.1 o.2 := by
  have hroot := readsNegation_reference name []
  have hmem := readsNegation_of_mem_references name [] segments
  simp only [dottedLexemes, List.flatMap_nil, List.append_nil, List.foldl_nil] at hroot hmem
  exact ⟨hroot, hmem⟩

/-- The references joined by `and`, from the root to the whole path. -/
def conjunction (name : Text) (segments : List Text) : Expr :=
  (references (rootLexemes name) (rootExpr name) segments).foldl
    (fun e o => .binary .and e o.2) (rootExpr name)

def guardedExpr (name : Text) (segments : List Text) : Expr :=
  .cond (.test (rootExpr name) "defined".toList [])
    (if segments = [] then rootExpr name
      else .binary .or (conjunction name segments) (.const (.plain [])))
    (.const (.plain []))

/-- The levels that a guarded lookup takes besides those of the expression it stands in. -/
def guardedLevels (name : Text) (segments : List Text) : Nat :=
  rootLevels name + if segments = [] then 2 else 6

theorem guardedLevels_le (name : Text) (segments : List Text) :
    guardedLevels name segments ≤ 7 := by
  have h := rootLevels_le name
  unfold guardedLevels
  split <;> omega

theorem startsOperand_guarded (name : Text) (segments : List Text) :
    StartsOperand (guardedLexemes name segments) := by
  cases segments <;> exact startsOperand_parens _

theorem readsUnconditional_conjunction (name : Text) (segments : List Text) :
    ReadsUnconditional (rootLevels name) (chainLexemes (rootLexemes name) segments)
      (conjunction name segments) := by
  obtain ⟨hroot, hmem⟩ := readsNegation_references name segments
  rw [chainLexemes_eq _ (rootExpr name)]
  exact hroot.conjunction hmem

theorem readsAccessed_guarded (name : Text) (segments : List Text) :
    ReadsAccessed (guardedLevels name segments) (guardedLexemes name segments)
      (guardedExpr name segments) := by
  have hroot := readsAccessed_root name
  have hstart := startsOperand_root name
  cases segments with
  | nil =>
    have h := (hroot.operand hstart).negation.unconditional.ifDefined hroot hstart []
    rw [Nat.max_self] at h
    exact h.parens (hstart.append _)
  | cons segment segments =>
    have hc := (readsUnconditional_conjunction name (segment :: segments)).expr
    have hsc : StartsOperand (chainLexemes (rootLexemes name) (segment :: segments)) := by
      rw [chainLexemes]
      exact hstart.append _
    have ho := ((hc.parens hsc).operand (startsOperand_parens _)).negation
    have he := ((readsAccessed_text []).operand (startsOperand_text [] [])).negation
    have hor := (ho.or he).expr
    have hp := (hor.parens ((startsOperand_parens _).append _)).operand (startsOperand_parens _)
    have h := hp.negation.unconditional.ifDefined hroot hstart []
    have hlevels : max (max (rootLevels name + 2) 0 + 2) (rootLevels name) + 2 =
        guardedLevels name (segment :: segments) := by
      simp only [guardedLevels, reduceCtorEq, if_false]
      omega
    rw [hlevels] at h
    exact h.parens ((startsOperand_parens _).append _)

def printedExpr (unescaped : Bool) (e : Expr) : Expr :=
  if unescaped then .filter e Source.unescapedFilter [] else e

def printedLevels (unescaped : Bool) : Nat := if unescaped then 4 else 2

theorem printedLevels_le (unescaped : Bool) : printedLevels unescaped ≤ 4 := by
  cases unescaped <;> decide

theorem readsExpr_output {need : Nat} {ls : List Lexeme} {e : Expr} (h : ReadsAccessed need ls e)
    (hs : StartsOperand ls) (unescaped : Bool) :
    ReadsExpr (need + printedLevels unescaped) (outputLexemes unescaped ls)
      (printedExpr unescaped e) := by
  have he := (h.operand hs).negation.unconditional.expr
  cases unescaped with
  | false => exact he
  | true =>
    exact ((he.parens hs).filtered (startsOperand_parens _) _).negation.unconditional.expr

end Path

end Curly

import Curly.Script.Operator
import Curly.Script.Piece

namespace Curly.Script

/-- Comparisons form chains: `a < b < c` holds when `a < b` and `b < c` do. Slices and arguments by
keyword are not covered, and not read. -/
inductive Expr where
  | const (v : Value)
  | name (n : Text)
  | list (items : List Expr)
  | map (entries : List (Expr × Expr))
  | unary (op : UnaryOp) (e : Expr)
  | binary (op : BinaryOp) (l r : Expr)
  | compare (e : Expr) (links : List (Comparison × Expr))
  | cond (test yes no : Expr)
  | attr (e : Expr) (name : Text)
  | item (e key : Expr)
  | call (f : Expr) (args : List Expr)
  | filter (e : Expr) (name : Text) (args : List Expr)
  | test (e : Expr) (name : Text) (args : List Expr)
deriving Repr, Inhabited

abbrev LexemeParser (α : Type) := List Lexeme → Except Refusal (α × List Lexeme)

namespace Lexeme

abbrev keyword (s : String) : Lexeme := word s.toList

end Lexeme

namespace LexemeParser

variable {α : Type}

def expect (l : Lexeme) (ls : List Lexeme) : Except Refusal (List Lexeme) :=
  match ls with
  | l' :: rest => if l' = l then .ok rest else .error .unexpected
  | [] => .error .unexpected

def itemsUntil (closing : Sign) (item : LexemeParser α) : (fuel : Nat) → LexemeParser (List α)
  | 0, _ => .error .unexpected
  | fuel + 1, ls =>
    match ls with
    | .sign s :: rest =>
      if s = closing then .ok ([], rest) else next fuel ls
    | ls => next fuel ls
where
  next (fuel : Nat) (ls : List Lexeme) : Except Refusal (List α × List Lexeme) := do
    let (a, ls) ← item ls
    match ls with
    | .sign s :: rest =>
      if s = closing then .ok ([a], rest)
      else if s = .comma then do
        let (as, ls) ← itemsUntil closing item fuel rest
        .ok (a :: as, ls)
      else .error .unexpected
    | _ => .error .unexpected

def whole (p : LexemeParser α) (ls : List Lexeme) : Except Refusal α := do
  let (a, rest) ← p ls
  if rest = [] then .ok a else .error .unexpected

end LexemeParser

namespace Expr

open LexemeParser

def ofWord (w : Text) : Expr :=
  if w = "true".toList ∨ w = "True".toList then const (.bool true)
  else if w = "false".toList ∨ w = "False".toList then const (.bool false)
  else if w = "none".toList ∨ w = "None".toList then const .none
  else name w

def joinTexts : List Lexeme → Text × List Lexeme
  | .text s :: ls => let (t, rest) := joinTexts ls; (s ++ t, rest)
  | ls => ([], ls)

/-- The parsers of what is nested in an expression: of the expressions that stand in an operand's
own brackets, and of those in the brackets behind an operand. They are handed down, so that the
number of levels is bounded. -/
structure Nested where
  inside : LexemeParser Expr
  behind : LexemeParser Expr

variable (nested : LexemeParser Expr)

def entry : LexemeParser (Expr × Expr) := fun ls => do
  let (k, ls) ← nested ls
  let ls ← expect (.sign .colon) ls
  let (v, ls) ← nested ls
  .ok ((k, v), ls)

def parens : LexemeParser Expr
  | .sign .closeParen :: ls => .ok (list [], ls)
  | ls => do
    let (e, ls) ← nested ls
    match ls with
    | .sign .comma :: ls => do
      let (es, ls) ← itemsUntil .closeParen nested (ls.length + 1) ls
      .ok (list (e :: es), ls)
    | ls => do
      let ls ← expect (.sign .closeParen) ls
      .ok (e, ls)

def primary : LexemeParser Expr
  | .word w :: ls => .ok (ofWord w, ls)
  | .text s :: ls => let (t, rest) := joinTexts ls; .ok (const (.plain (s ++ t)), rest)
  | .int n :: ls => .ok (const (.nat n), ls)
  | .double x :: ls => .ok (const (.double x), ls)
  | .sign .openParen :: ls => parens nested ls
  | .sign .openBracket :: ls => do
    let (es, ls) ← itemsUntil .closeBracket nested (ls.length + 1) ls
    .ok (list es, ls)
  | .sign .openBrace :: ls => do
    let (es, ls) ← itemsUntil .closeBrace (entry nested) (ls.length + 1) ls
    .ok (map es, ls)
  | _ => .error .unexpected

def arguments (ls : List Lexeme) : Except Refusal (List Expr × List Lexeme) :=
  itemsUntil .closeParen nested (ls.length + 1) ls

/-- The attributes, items and calls behind `e`. Behind a dot every word is an attribute. -/
def access : (fuel : Nat) → Expr → LexemeParser Expr
  | 0, e, ls => .ok (e, ls)
  | fuel + 1, e, ls =>
    match ls with
    | .sign .dot :: .word w :: ls => access fuel (attr e w) ls
    | .sign .dot :: .int n :: ls => access fuel (item e (const (.nat n))) ls
    | .sign .dot :: _ => .error .unexpected
    | .sign .openBracket :: ls => do
      let (k, ls) ← nested ls
      let ls ← expect (.sign .closeBracket) ls
      access fuel (item e k) ls
    | .sign .openParen :: ls => do
      let (args, ls) ← arguments nested ls
      access fuel (call e args) ls
    | ls => .ok (e, ls)

def dottedName (name : Text) : LexemeParser Text
  | .sign .dot :: .word w :: ls => dottedName (name ++ '.' :: w) ls
  | .sign .dot :: _ => .error .unexpected
  | ls => .ok (name, ls)

def filterArguments : LexemeParser (List Expr)
  | .sign .openParen :: ls => arguments nested ls
  | ls => .ok ([], ls)

variable (nested : Nested)

def signed : LexemeParser Expr
  | .sign .minus :: ls => do
    let (e, ls) ← signed ls
    .ok (unary .negate e, ls)
  | ls => primary nested.inside ls

def accessed : LexemeParser Expr := fun ls => do
  let (e, ls) ← signed nested ls
  access nested.behind ls.length e ls

/-- Whether a test takes the lexeme as the start of its argument. -/
def startsArgument : Lexeme → Bool
  | .word w => w ∉ ["and".toList, "or".toList, "else".toList, "is".toList]
  | .text _ | .int _ | .double _ => true
  | .sign s => s ∈ [.plus, .minus, .openBracket, .openBrace]

def testArguments : LexemeParser (List Expr)
  | .sign .openParen :: ls => arguments nested.behind ls
  | l :: ls =>
    if startsArgument l then do
      let (e, ls) ← accessed nested (l :: ls)
      .ok ([e], ls)
    else .ok ([], l :: ls)
  | [] => .ok ([], [])

def skipWord (word : String) : List Lexeme → Bool × List Lexeme
  | l :: ls => if l = Lexeme.keyword word then (true, ls) else (false, l :: ls)
  | [] => (false, [])

def refine : (fuel : Nat) → Expr → LexemeParser Expr
  | 0, e, ls => .ok (e, ls)
  | fuel + 1, e, ls =>
    match ls with
    | .sign .pipe :: .word w :: ls => do
      let (n, ls) ← dottedName w ls
      let (args, ls) ← filterArguments nested.behind ls
      refine fuel (filter e n args) ls
    | .sign .pipe :: _ => .error .unexpected
    | .word w :: ls =>
      if w = "is".toList then
        let (negated, ls) := skipWord "not" ls
        match ls with
        | .word w :: ls => do
          let (n, ls) ← dottedName w ls
          let (args, ls) ← testArguments nested ls
          let t := test e n args
          refine fuel (if negated then unary .not t else t) ls
        | _ => .error .unexpected
      else .ok (e, .word w :: ls)
    | ls => .ok (e, ls)

def refined : LexemeParser Expr := fun ls => do
  let (e, ls) ← accessed nested ls
  refine nested ls.length e ls

def chainLeft (op? : Lexeme → Option BinaryOp) (operand : LexemeParser Expr) :
    (fuel : Nat) → Expr → LexemeParser Expr
  | 0, e, ls => .ok (e, ls)
  | _, e, [] => .ok (e, [])
  | fuel + 1, e, l :: ls =>
    match op? l with
    | some op => do
      let (r, ls) ← operand ls
      chainLeft op? operand fuel (binary op e r) ls
    | none => .ok (e, l :: ls)

def level (op? : Lexeme → Option BinaryOp) (operand : LexemeParser Expr) :
    LexemeParser Expr := fun ls => do
  let (e, ls) ← operand ls
  chainLeft op? operand ls.length e ls

def powerOp? : Lexeme → Option BinaryOp
  | .sign .power => some .power
  | _ => none

def productOp? : Lexeme → Option BinaryOp
  | .sign .times => some .mul
  | .sign .slash => some .div
  | .sign .slashes => some .quotient
  | .sign .percent => some .remainder
  | _ => none

def concatOp? : Lexeme → Option BinaryOp
  | .sign .tilde => some .concat
  | _ => none

def sumOp? : Lexeme → Option BinaryOp
  | .sign .plus => some .add
  | .sign .minus => some .sub
  | _ => none

def comparison? : Lexeme → Option Comparison
  | .sign .eq => some .eq
  | .sign .ne => some .ne
  | .sign .lt => some .lt
  | .sign .le => some .le
  | .sign .gt => some .gt
  | .sign .ge => some .ge
  | .word w => if w = "in".toList then some .isIn else none
  | _ => none

def andOp? (l : Lexeme) : Option BinaryOp := if l = Lexeme.keyword "and" then some .and else none

def orOp? (l : Lexeme) : Option BinaryOp := if l = Lexeme.keyword "or" then some .or else none

def sum : LexemeParser Expr :=
  level sumOp? (level concatOp? (level productOp? (level powerOp? (refined nested))))

def links : (fuel : Nat) → LexemeParser (List (Comparison × Expr))
  | 0, ls => .ok ([], ls)
  | _, [] => .ok ([], [])
  | fuel + 1, l :: ls =>
    match comparison? l with
    | some c => next c fuel ls
    | none =>
      if l = Lexeme.keyword "not" then do next .notIn fuel (← expect (Lexeme.keyword "in") ls)
      else .ok ([], l :: ls)
where
  next (c : Comparison) (fuel : Nat) (ls : List Lexeme) :
      Except Refusal (List (Comparison × Expr) × List Lexeme) := do
    let (e, ls) ← sum nested ls
    let (more, ls) ← links fuel ls
    .ok ((c, e) :: more, ls)

def comparison : LexemeParser Expr := fun ls => do
  let (e, ls) ← sum nested ls
  let (more, ls) ← links nested ls.length ls
  .ok (if more.isEmpty then e else compare e more, ls)

def negation : LexemeParser Expr
  | [] => comparison nested []
  | l :: ls =>
    if l = Lexeme.keyword "not" then do
      let (e, ls) ← negation ls
      .ok (unary .not e, ls)
    else comparison nested (l :: ls)

def unconditional : LexemeParser Expr := level orOp? (level andOp? (negation nested))

/-- The conditionals behind `e`. Without an alternative the value is undefined. -/
def conditional : (fuel : Nat) → Expr → LexemeParser Expr
  | 0, e, ls => .ok (e, ls)
  | _, e, [] => .ok (e, [])
  | fuel + 1, e, l :: ls =>
    if l = Lexeme.keyword "if" then do
      let (guard, ls) ← unconditional nested ls
      match ls with
      | l :: rest =>
        if l = Lexeme.keyword "else" then do
          let (no, ls) ← unconditional nested rest
          let (no, ls) ← conditional fuel no ls
          .ok (cond guard e no, ls)
        else conditional fuel (cond guard e (const .undefined)) (l :: rest)
      | [] => .ok (cond guard e (const .undefined), [])
    else .ok (e, l :: ls)

/-- An expression that takes at most that many levels: one itself, and while one of its operands is
read, that operand takes another, up to its closing bracket if it has brackets of its own. -/
def parser : (levels : Nat) → LexemeParser Expr
  | 0, _ | 1, _ => .error .tooDeep
  | levels + 2, ls => do
    let nested : Nested := ⟨parser levels, parser (levels + 1)⟩
    let (e, ls) ← unconditional nested ls
    conditional nested ls.length e ls

/-- An expression that is not a conditional. It takes no level itself. -/
def plainParser : (levels : Nat) → LexemeParser Expr
  | 0, _ => .error .tooDeep
  | levels + 1, ls => unconditional ⟨parser levels, parser (levels + 1)⟩ ls

end Expr

end Curly.Script

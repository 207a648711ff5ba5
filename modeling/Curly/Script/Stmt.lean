import Curly.Script.Expr

namespace Curly.Script

inductive Target where
  | name (n : Text)
  | attr (e : Expr) (name : Text)
  | list (targets : List Target)
deriving Repr, Inhabited

inductive Stmt where
  | text (s : Text)
  | print (e : Expr)
  | cond (test : Expr) (yes no : List Stmt)
  | loop (target : Target) (items : Expr) (only : Option Expr) (body otherwise : List Stmt)
  | set (target : Target) (e : Expr)
  | scope (bindings : List (Target × Expr)) (body : List Stmt)
  | autoescape (mode : Expr) (body : List Stmt)
deriving Repr, Inhabited

namespace Target

open LexemeParser

def reserved : List Text :=
  ["true".toList, "True".toList, "false".toList, "False".toList, "none".toList, "None".toList,
    "loop".toList, "self".toList]

def plainName : LexemeParser Text
  | .word w :: ls => if w ∈ reserved then .error (.reservedName w) else .ok (w, ls)
  | _ => .error .unexpected

def dotted (e : Expr) (t : Target) : LexemeParser Target
  | .sign .dot :: .word w :: ls => dotted (.attr e w) (.attr e w) ls
  | .sign .dot :: _ => .error .unexpected
  | ls => .ok (t, ls)

def ends : List Lexeme → Bool
  | [] | .sign .closeParen :: _ => true
  | .word w :: _ => w = "in".toList
  | _ => false

def ofItems (comma : Bool) : List Target → Target
  | [t] => if comma then list [t] else t
  | ts => list ts

def items : (fuel : Nat) → LexemeParser Target
  | 0, _ => .error .unexpected
  | fuel + 1, ls => do
    let ((comma, ts), ls) ← more fuel ls
    .ok (ofItems comma ts, ls)
where
  more : (fuel : Nat) → LexemeParser (Bool × List Target)
    | 0, _ => .error .unexpected
    | fuel + 1, ls => do
      if ends ls then .ok ((false, []), ls)
      else
        let (t, ls) ← one fuel ls
        match ls with
        | .sign .comma :: ls => do
          let ((_, ts), ls) ← more fuel ls
          .ok ((true, t :: ts), ls)
        | ls => .ok ((false, [t]), ls)
  one : (fuel : Nat) → LexemeParser Target
    | 0, _ => .error .unexpected
    | fuel + 1, ls =>
      match ls with
      | .sign .openParen :: ls => do
        let (t, ls) ← items fuel ls
        let ls ← expect (.sign .closeParen) ls
        .ok (t, ls)
      | ls => do
        let (n, ls) ← plainName ls
        dotted (.name n) (name n) ls

def parser : LexemeParser Target := fun ls => items (3 * ls.length + 3) ls

def single (attributes : Bool) : LexemeParser Target
  | .sign .openParen :: ls => do
    let (t, ls) ← parser ls
    let ls ← expect (.sign .closeParen) ls
    .ok (t, ls)
  | ls => do
    let (n, ls) ← plainName ls
    if attributes then dotted (.name n) (name n) ls else .ok (name n, ls)

end Target

/-- What opens a block. A conditional keeps its branches before the current one, the last of them
first. -/
inductive Head where
  | cond (earlier : List (Expr × List Stmt)) (test : Expr)
  | loop (target : Target) (items : Expr) (only : Option Expr)
  | scope (bindings : List (Target × Expr))
  | autoescape (mode : Expr)
deriving Repr, Inhabited

/-- An open block: its head, its statements up to `else` if there was one, and the statements
before the block, the last of them first. -/
structure Frame where
  head : Head
  main : Option (List Stmt)
  before : List Stmt
deriving Repr, Inhabited

/-- A script in the middle of being read: the open blocks, innermost first, and the statements of
the innermost one, the last of them first. -/
structure Builder where
  frames : List Frame := []
  recent : List Stmt := []
deriving Repr, Inhabited

namespace Head

def closing : Head → Text
  | cond _ _ => "endif".toList
  | loop _ _ _ => "endfor".toList
  | scope _ => "endwith".toList
  | autoescape _ => "endautoescape".toList

def allowsElse : Head → Bool
  | cond _ _ | loop _ _ _ => true
  | _ => false

/-- The conditional with branches before `test`; each one is the alternative of the one before. -/
def branches (earlier : List (Expr × List Stmt)) (test : Expr) (yes no : List Stmt) : Stmt :=
  earlier.foldl (fun s (e, body) => .cond e body [s]) (.cond test yes no)

def close (body otherwise : List Stmt) : Head → Stmt
  | cond earlier test => branches earlier test body otherwise
  | loop target items only => .loop target items only body otherwise
  | scope bindings => .scope bindings body
  | autoescape mode => .autoescape mode body

end Head

namespace Builder

open LexemeParser

def push (b : Builder) (s : Stmt) : Builder := { b with recent := s :: b.recent }

def openBlock (b : Builder) (head : Head) : Builder :=
  { frames := ⟨head, none, b.recent⟩ :: b.frames, recent := [] }

def startElse (b : Builder) : Except Refusal Builder :=
  match b.frames with
  | ⟨head, none, before⟩ :: frames =>
    if head.allowsElse then .ok ⟨⟨head, some b.recent.reverse, before⟩ :: frames, []⟩
    else .error (.unknownStatement "else".toList)
  | _ => .error (.unknownStatement "else".toList)

def startBranch (b : Builder) (test : Expr) : Except Refusal Builder :=
  match b.frames with
  | ⟨.cond earlier test', none, before⟩ :: frames =>
    .ok ⟨⟨.cond ((test', b.recent.reverse) :: earlier) test, none, before⟩ :: frames, []⟩
  | _ => .error (.unknownStatement "elif".toList)

def closeBlock (b : Builder) (word : Text) : Except Refusal Builder :=
  match b.frames with
  | ⟨head, main, before⟩ :: frames =>
    if word = head.closing then
      let s :=
        match main with
        | some body => head.close body b.recent.reverse
        | none => head.close b.recent.reverse []
      .ok ⟨frames, s :: before⟩
    else .error (.unknownStatement word)
  | [] => .error (.unknownStatement word)

def loopHead (levels : Nat) : LexemeParser Head := fun ls => do
  let (target, ls) ← Target.parser ls
  let ls ← expect (Lexeme.keyword "in") ls
  let (items, ls) ← Expr.plainParser levels ls
  match ls with
  | [] => .ok (.loop target items none, [])
  | l :: ls =>
    if l = Lexeme.keyword "if" then do
      let (only, ls) ← Expr.parser levels ls
      .ok (.loop target items (some only), ls)
    else .error .unexpected

def binding (attributes : Bool) (levels : Nat) : LexemeParser (Target × Expr) := fun ls => do
  let (target, ls) ← Target.single attributes ls
  let ls ← expect (.sign .assign) ls
  let (e, ls) ← Expr.parser levels ls
  .ok ((target, e), ls)

def bindings (levels : Nat) : (fuel : Nat) → LexemeParser (List (Target × Expr))
  | 0, _ => .error .unexpected
  | fuel + 1, ls => do
    let (b, ls) ← binding false levels ls
    match ls with
    | .sign .comma :: ls => do
      let (bs, ls) ← bindings levels fuel ls
      .ok (b :: bs, ls)
    | ls => .ok ([b], ls)

/-- A statement of its own, or one that opens a block. Its expressions may take that many levels.
The statements of the evaluator that are covered are `if`, `for`, `set`, `with` and `autoescape`,
and `raw` among the pieces; `macro`, `call`, `do`, `filter`, `block`, `extends`, `include`, `import`
and `from` count as unknown, and a `for` that is `recursive` and a `set` without a value as
misplaced. -/
def addStatement (levels : Nat) (b : Builder) (word : Text) (ls : List Lexeme) :
    Except Refusal Builder :=
  if word = "if".toList then do .ok (b.openBlock (.cond [] (← whole (Expr.plainParser levels) ls)))
  else if word = "for".toList then do .ok (b.openBlock (← whole (loopHead levels) ls))
  else if word = "set".toList then do
    let (target, e) ← whole (binding true levels) ls
    .ok (b.push (.set target e))
  else if word = "with".toList then do
    let bs ← if ls = [] then .ok [] else whole (bindings levels ls.length) ls
    .ok (b.openBlock (.scope bs))
  else if word = "autoescape".toList then do
    .ok (b.openBlock (.autoescape (← whole (Expr.parser levels) ls)))
  else .error (.unknownStatement word)

def isContinuation (word : Text) : Bool :=
  word ∈ ["elif".toList, "else".toList, "endif".toList, "endfor".toList, "endwith".toList,
    "endautoescape".toList]

def continueBlock (levels : Nat) (b : Builder) (word : Text) (ls : List Lexeme) :
    Except Refusal Builder :=
  if word = "elif".toList then do b.startBranch (← whole (Expr.plainParser levels) ls)
  else if ls ≠ [] then .error .unexpected
  else if word = "else".toList then b.startElse
  else b.closeBlock word

/-- Takes in one piece. Statements and expressions nest in at most `limit` levels. -/
def add (limit : Nat) (b : Builder) : Piece → Except Refusal Builder
  | .text s => .ok (b.push (.text s))
  | .printed ls => do .ok (b.push (.print (← whole (Expr.parser (limit - b.frames.length)) ls)))
  | .statement (.word w :: ls) =>
    if isContinuation w then b.continueBlock (limit - b.frames.length) w ls
    else if limit ≤ b.frames.length then .error .tooDeep
    else b.addStatement (limit - b.frames.length - 1) w ls
  | .statement _ => .error .unexpected

def finish (b : Builder) : Except Refusal (List Stmt) :=
  if b.frames.isEmpty then .ok b.recent.reverse else .error .unexpected

end Builder

namespace Stmt

def maxDepth : Nat := 150

def ofPieces (limit : Nat) (ps : List Piece) : Except Refusal (List Stmt) := do
  let b ← ps.foldlM (Builder.add limit) {}
  b.finish

/-- A script without its last line ending: one line feed, and then one carriage return. -/
def dropLineEnd (s : Text) : Text :=
  Text.dropReturn (if s.getLast? = some '\n' then s.dropLast else s)

def readAll (limit : Nat) (keepTrailingNewline : Bool) (s : Text) : Except Refusal (List Stmt) := do
  ofPieces limit (← Piece.readAll (if keepTrailingNewline then s else dropLineEnd s))

end Stmt

end Curly.Script

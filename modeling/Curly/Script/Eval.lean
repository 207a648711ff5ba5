import Curly.Options.Basic
import Curly.Script.Constant
import Curly.Script.Filter
import Curly.Script.Stmt
import Curly.Value.Access

namespace Curly.Script

/-- What a running loop knows of itself, with the items around that of the current round. A loop
over a text does not know its length. -/
structure Counters where
  index : Nat
  length : Option Nat
  previous : Option Value := none
  next : Option Value := none
deriving Repr

namespace Counters

/-- The members of a loop. Its methods `cycle` and `changed` are not covered. No loop calls itself,
so that every loop has the depth one. -/
def attr? (c : Counters) (name : Text) : Option Value :=
  if name = "index".toList then some (.nat (c.index + 1))
  else if name = "index0".toList then some (.nat c.index)
  else if name = "length".toList then c.length.map .nat
  else if name = "revindex".toList then c.length.map fun n => .nat (n - c.index)
  else if name = "revindex0".toList then c.length.map fun n => .nat (n - c.index - 1)
  else if name = "first".toList then some (.bool (c.index = 0))
  else if name = "last".toList then some (.bool (c.length = some (c.index + 1)))
  else if name = "previtem".toList then c.previous
  else if name = "nextitem".toList then c.next
  else if name = "depth".toList then some (.nat 1)
  else if name = "depth0".toList then some (.nat 0)
  else none

end Counters

/-- The kinds of scope: that of a `with` block or of the whole script, that of a loop's rounds, and
the one in which the items of a loop are picked. -/
inductive ScopeKind where
  | block
  | picking
  | rounds (c : Counters)
deriving Repr

structure Scope where
  locals : Catalog Value := {}
  kind : ScopeKind := .block

namespace Scope

def set (s : Scope) (name : Text) (v : Value) : Scope :=
  { s with locals := s.locals.insert name v }

def isLoop (s : Scope) : Bool :=
  match s.kind with
  | .block => false
  | .picking | .rounds _ => true

def counters? (s : Scope) : Option Counters :=
  match s.kind with
  | .rounds c => some c
  | _ => none

def lookup? (name : Text) : List Scope → Option Value
  | [] => none
  | s :: outer =>
    ((s.locals.get? name).or
      (if name = "loop".toList then s.counters?.map fun _ => .loop outer.length else none)).or
      (lookup? name outer)

/-- A loop is known by its level, so that one stored in a variable tells the current round. -/
def countersAt? (level : Nat) : List Scope → Option Counters
  | [] => none
  | s :: outer => if outer.length = level then s.counters? else countersAt? level outer

end Scope

structure Env where
  context : Catalog Value
  call : Text → List Value → Except EvalError Value
  escape : Escaping
  outer : List Scope

namespace Env

def enter (env : Env) (s : Scope) : Env := { env with outer := s :: env.outer }

def lookup? (env : Env) (s : Scope) (name : Text) : Option Value :=
  (Scope.lookup? name (s :: env.outer)).or (env.context.get? name)

def lookup (env : Env) (s : Scope) (name : Text) : Value := (env.lookup? s name).getD .undefined

def inLoop (env : Env) (s : Scope) : Bool := (s :: env.outer).any Scope.isLoop

def getAttr (env : Env) (s : Scope) (v : Value) (name : Text) : Except EvalError Value :=
  match v with
  | .loop level =>
    .ok (((Scope.countersAt? level (s :: env.outer)).bind (·.attr? name)).getD .undefined)
  | v => v.getAttr name

def getItem (env : Env) (s : Scope) (v key : Value) : Except EvalError Value :=
  match v, key with
  | .loop level, .text name _ => env.getAttr s (.loop level) name
  | v, key => v.getItem key

/-- A loop cannot be called by the name of a variable that it is stored in. -/
def callValue (env : Env) (v : Value) (args : List Value) : Except EvalError Value :=
  match v with
  | .function name => env.call name args
  | .loop _ => .error (.unknownFunction "loop".toList)
  | _ => .error .invalid

/-- A call by name. There is nothing for `super` to call, and no loop calls itself. -/
def callName (env : Env) (s : Scope) (name : Text) (args : List Value) :
    Except EvalError Value :=
  if name = "super".toList ∨ (name = "loop".toList ∧ env.inLoop s) then .error .invalid
  else
    match env.lookup? s name with
    | some v => env.callValue v args
    | none => .error (.unknownFunction name)

def callMethod (env : Env) (v : Value) (name : Text) (args : List Value) :
    Except EvalError Value :=
  match v with
  | .map entries =>
    match Value.lookupText entries name with
    | some f => env.callValue f args
    | none => .error (.unknownMethod name)
  | _ => .error (.unknownMethod name)

def printed (env : Env) (v : Value) : Text :=
  if v.isMissing then []
  else if env.escape = .html && !v.isSafe then Text.escape v.toText
  else v.toText

end Env

def escapeModeOf (v : Value) : Except EvalError Escaping :=
  match v with
  | .text s _ =>
    if s = "html".toList then .ok .html
    else if s = "none".toList then .ok .none
    else .error .invalid
  | v => .ok (if v.equals (.bool true) then .html else .none)

namespace Expr

variable (env : Env) (s : Scope)

mutual

def eval : Expr → Except EvalError Value
  | const v => .ok v
  | name n => .ok (env.lookup s n)
  | list es => do .ok (.ofList (← evalAll es))
  | map entries => do .ok (.map (← evalEntries entries []))
  | unary op e => do op.apply (← eval e)
  | binary op l r =>
    match constant? l, constant? r with
    | some v, some w => op.fold v w
    | _, _ => do
      let v ← eval l
      if op.settles v then .ok v else op.apply v (← eval r)
  | compare e links => do
    let v ← eval e
    .ok (.bool (← evalChain v links))
  | cond guard yes no => do if (← eval guard).isTruthy then eval yes else eval no
  | attr e n => do env.getAttr s (← eval e) n
  | item e key => do
    let v ← eval e
    env.getItem s v (← eval key)
  | call (name n) args => do env.callName s n (← evalAll args)
  | call (attr (name n) m) args =>
    if n = "self".toList then .error (.unknownBlock m)
    else do env.callMethod (env.lookup s n) m (← evalAll args)
  | call (attr e m) args => do
    let v ← eval e
    env.callMethod v m (← evalAll args)
  | call f args => do
    let v ← eval f
    env.callValue v (← evalAll args)
  | filter e n args => do
    let v ← eval e
    Filter.apply n v (← evalAll args)
  | test e n args => do
    let v ← eval e
    .ok (.bool (← Test.apply n v (← evalAll args)))

def evalAll : List Expr → Except EvalError (List Value)
  | [] => .ok []
  | e :: es => do
    let v ← eval e
    .ok (v :: (← evalAll es))

/-- Whether a chain of comparisons holds, `v` being the operand before it. What stands behind a
comparison that fails is not looked at. -/
def evalChain (v : Value) : List (Comparison × Expr) → Except EvalError Bool
  | [] => .ok true
  | (c, e) :: links => do
    let w ← eval e
    if ← c.holds v w then evalChain w links else .ok false

def evalEntries : List (Expr × Expr) → List (Value × Value) →
    Except EvalError (List (Value × Value))
  | [], done => .ok done
  | (k, e) :: rest, done => do
    let k ← eval k
    let v ← eval e
    evalEntries rest (Value.insertEntry k v done)

end

variable {env s}

theorem evalAll_nil : evalAll env s [] = .ok [] := rfl

theorem evalAll_cons (e : Expr) (es : List Expr) :
    evalAll env s (e :: es) =
      (e.eval env s).bind fun v => (evalAll env s es).bind fun vs => .ok (v :: vs) := rfl

theorem evalEntries_cons (k e : Expr) (entries : List (Expr × Expr)) (done : List (Value × Value)) :
    evalEntries env s ((k, e) :: entries) done =
      (k.eval env s).bind fun k => (e.eval env s).bind fun v =>
        evalEntries env s entries (Value.insertEntry k v done) := rfl

theorem evalChain_cons (v : Value) (c : Comparison) (e : Expr) (links : List (Comparison × Expr)) :
    evalChain env s v ((c, e) :: links) =
      (e.eval env s).bind fun w => (c.holds v w).bind fun holds =>
        if holds then evalChain env s w links else .ok false := rfl

theorem eval_const (v : Value) : (const v).eval env s = .ok v := rfl

theorem eval_name (n : Text) : (name n).eval env s = .ok (env.lookup s n) := rfl

theorem eval_list (es : List Expr) :
    (list es).eval env s = (evalAll env s es).bind fun vs => .ok (.ofList vs) := rfl

theorem eval_map (entries : List (Expr × Expr)) :
    (map entries).eval env s = (evalEntries env s entries []).bind fun vs => .ok (.map vs) := rfl

theorem eval_unary (op : UnaryOp) (e : Expr) :
    (unary op e).eval env s = (e.eval env s).bind op.apply := rfl

theorem eval_binary {l r : Expr} (hc : l.constant? = none ∨ r.constant? = none) (op : BinaryOp) :
    (binary op l r).eval env s = (l.eval env s).bind fun v =>
      if op.settles v then .ok v else (r.eval env s).bind (op.apply v) := by
  change (match l.constant?, r.constant? with
    | some v, some w => op.fold v w
    | _, _ => (l.eval env s).bind fun v =>
      if op.settles v then .ok v else (r.eval env s).bind (op.apply v)) = _
  split
  · next hl hr => simp [hl, hr] at hc
  · rfl

theorem eval_compare (e : Expr) (links : List (Comparison × Expr)) :
    (compare e links).eval env s =
      (e.eval env s).bind fun v => (evalChain env s v links).bind fun holds =>
        .ok (.bool holds) := rfl

theorem eval_cond (guard yes no : Expr) :
    (cond guard yes no).eval env s =
      (guard.eval env s).bind fun v => if v.isTruthy then yes.eval env s else no.eval env s := rfl

theorem eval_attr (e : Expr) (n : Text) :
    (attr e n).eval env s = (e.eval env s).bind (env.getAttr s · n) := rfl

theorem eval_item (e key : Expr) :
    (item e key).eval env s =
      (e.eval env s).bind fun v => (key.eval env s).bind (env.getItem s v) := rfl

theorem eval_call_name (n : Text) (args : List Expr) :
    (call (name n) args).eval env s = (evalAll env s args).bind (env.callName s n) := rfl

theorem eval_call_member (n m : Text) (args : List Expr) :
    (call (attr (name n) m) args).eval env s =
      if n = "self".toList then .error (.unknownBlock m)
      else (evalAll env s args).bind (env.callMethod (env.lookup s n) m) := rfl

theorem eval_filter (e : Expr) (n : Text) (args : List Expr) :
    (filter e n args).eval env s =
      (e.eval env s).bind fun v => (evalAll env s args).bind (Filter.apply n v) := rfl

theorem eval_test (e : Expr) (n : Text) (args : List Expr) :
    (test e n args).eval env s =
      (e.eval env s).bind fun v => (evalAll env s args).bind fun ws =>
        (Test.apply n v ws).bind fun holds => .ok (.bool holds) := rfl

end Expr

def unpack (v : Value) : Except EvalError (List Value) :=
  match v with
  | .list items _ => .ok items
  | .map entries => .ok (entries.map (·.1))
  | _ => .error .cannotUnpack

namespace Target

variable (env : Env)

mutual

/-- Writes to the innermost scope, which is that of a loop or a `with` block inside of these.
Attributes cannot be written to. -/
def assign (s : Scope) : Target → Value → Except EvalError Scope
  | name n, v => .ok (s.set n v)
  | attr e _, _ => do
    let _ ← e.eval env s
    .error .invalid
  | list ts, v => do
    let vs ← unpack v
    if vs.length = ts.length then assignAll s ts vs else .error .cannotUnpack

def assignAll (s : Scope) : List Target → List Value → Except EvalError Scope
  | t :: ts, v :: vs => do assignAll (← assign s t v) ts vs
  | _, _ => .ok s

end

end Target

def admitted (env : Env) (target : Target) (only : Expr) :
    List Value → Scope → Except EvalError (List Value)
  | [], _ => .ok []
  | v :: vs, s => do
    let s ← target.assign env s v
    let kept := (← only.eval env s).isTruthy
    let rest ← admitted env target only vs s
    .ok (if kept then v :: rest else rest)

/-- The output of a loop over items, of which the first has the number `index` and comes behind
`previous`. The items share one scope. -/
def repeated (env : Env) (target : Target) (body : Scope → Except EvalError (Text × Scope))
    (length : Option Nat) :
    (index : Nat) → (previous : Option Value) → List Value → Scope → Except EvalError Text
  | _, _, [], _ => .ok []
  | index, previous, v :: vs, s => do
    let s ← target.assign env { s with kind := .rounds ⟨index, length, previous, vs.head?⟩ } v
    let (out, s) ← body s
    .ok (out ++ (← repeated env target body length (index + 1) (some v) vs s))

def knownLength? (v : Value) (items : List Value) : Option Nat :=
  if v.kind = .text then none else some items.length

/-- The value of a printed expression. A printed call of `loop` with one argument is meant for the
loop around it, even where there is none. -/
def evalPrinted (env : Env) (s : Scope) : Expr → Except EvalError Value
  | .call (.name n) [arg] => do
    if n = "loop".toList ∧ ¬ env.inLoop s then
      let _ ← arg.eval env s
      .error (.unknownFunction n)
    else (Expr.call (.name n) [arg]).eval env s
  | e => e.eval env s

namespace Stmt

mutual

def exec (env : Env) (s : Scope) : Stmt → Except EvalError (Text × Scope)
  | text t => .ok (t, s)
  | print e => do .ok (env.printed (← evalPrinted env s e), s)
  | cond guard yes no => do
    if (← guard.eval env s).isTruthy then execAll env s yes else execAll env s no
  | set target e => do .ok ([], ← target.assign env s (← e.eval env s))
  | scope bindings body => do
    let inner ← bindings.foldlM (fun inner (t, e) => do
      t.assign (env.enter s) inner (← e.eval (env.enter s) inner)) {}
    let (out, _) ← execAll (env.enter s) inner body
    .ok (out, s)
  | autoescape mode body => do
    execAll { env with escape := ← escapeModeOf (← mode.eval env s) } s body
  | loop target items only body otherwise => do
    let v ← items.eval env s
    let vs ← v.iterate
    let (vs, length) ←
      match only with
      | some e => do
        let vs ← admitted (env.enter s) target e vs { kind := .picking }
        .ok (vs, some vs.length)
      | none => .ok (vs, knownLength? v vs)
    if vs.isEmpty then execAll env s otherwise
    else
      let out ← repeated (env.enter s) target (fun inner => execAll (env.enter s) inner body)
        length 0 none vs {}
      .ok (out, s)

def execAll (env : Env) (s : Scope) : List Stmt → Except EvalError (Text × Scope)
  | [] => .ok ([], s)
  | stmt :: rest => do
    let (out, s) ← exec env s stmt
    let (more, s) ← execAll env s rest
    .ok (out ++ more, s)

end

def run (context : Catalog Value) (call : Text → List Value → Except EvalError Value)
    (escape : Escaping) (script : List Stmt) : Except EvalError Text := do
  let (out, _) ← execAll ⟨context, call, escape, []⟩ {} script
  .ok out

end Stmt

end Curly.Script

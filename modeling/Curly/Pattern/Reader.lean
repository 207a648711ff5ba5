import Curly.Pattern.Basic

namespace Curly

namespace Pattern

inductive ClassPart where
  | char (c : Char)
  | set (k : CharSet)

def ClassPart.toSet : ClassPart → CharSet
  | char c => .single c
  | set k => k

/-- Every character of ASCII but letters, digits and angle brackets stands for itself behind a
backslash. -/
def isEscapable (c : Char) : Bool :=
  c.toNat < 0x80 && !c.isAlphanum && c != '<' && c != '>'

/-- What a backslash and `c` stand for. Not covered are `\d` and `\w`, `\b` and the other marks of
places, characters by their number (`\x`, `\u`, `\U`) and classes by a property (`\p`), and the
complements of all these. -/
def escape? (c : Char) : Option ClassPart :=
  match c with
  | 's' => some (.set .blank)
  | 'S' => some (.set (.compl .blank))
  | 'n' => some (.char '\n')
  | 'r' => some (.char '\r')
  | 't' => some (.char '\t')
  | 'f' => some (.char '\x0c')
  | 'v' => some (.char '\x0b')
  | 'a' => some (.char '\x07')
  | c => if isEscapable c then some (.char c) else none

def namedSet? (name : String) : Option CharSet :=
  (match name with
    | "alnum" => some [('0', '9'), ('A', 'Z'), ('a', 'z')]
    | "alpha" => some [('A', 'Z'), ('a', 'z')]
    | "ascii" => some [('\x00', '\x7f')]
    | "blank" => some [('\t', '\t'), (' ', ' ')]
    | "cntrl" => some [('\x00', '\x1f'), ('\x7f', '\x7f')]
    | "digit" => some [('0', '9')]
    | "graph" => some [('!', '~')]
    | "lower" => some [('a', 'z')]
    | "print" => some [(' ', '~')]
    | "punct" => some [('!', '/'), (':', '@'), ('[', '\x60'), ('{', '~')]
    | "space" => some [('\t', '\r'), (' ', ' ')]
    | "upper" => some [('A', 'Z')]
    | "word" => some [('0', '9'), ('A', 'Z'), ('_', '_'), ('a', 'z')]
    | "xdigit" => some [('0', '9'), ('A', 'F'), ('a', 'f')]
    | _ => none).map CharSet.ofRanges

def readNamedSet? (s : Text) : Option (CharSet × Text) := do
  let s ← Text.after? [':'] s
  let (negated, s) := match s with
    | '^' :: s => (true, s)
    | s => (false, s)
  let k ← namedSet? (String.ofList (s.takeWhile (· ≠ ':')))
  let s ← Text.after? [':', ']'] (s.dropWhile (· ≠ ':'))
  some (if negated then .compl k else k, s)

def readPart? : Text → Option (ClassPart × Text)
  | [] => none
  | ['\\'] => none
  | '\\' :: c :: s => (escape? c).map (·, s)
  | c :: s => some (.char c, s)

/-- A part of a class, or a range. A dash makes no range before another dash or the end. -/
def readRange? (s : Text) : Option (CharSet × Text) := do
  let (part, s) ← readPart? s
  match s with
  | '-' :: c :: rest =>
    if c = ']' ∨ c = '-' then some (part.toSet, s)
    else
      match part, ← readPart? (c :: rest) with
      | .char lo, (.char hi, s) => if lo ≤ hi then some (.range lo hi, s) else none
      | _, _ => none
  | s => some (part.toSet, s)

/-- The dashes that a class starts with, or else a closing bracket, stand for themselves. -/
def readLead (s : Text) : CharSet × Text :=
  match s with
  | '-' :: s => (.single '-', s.dropWhile (· = '-'))
  | ']' :: s => (.single ']', s)
  | s => (.empty, s)

mutual

/-- A class, from behind its opening bracket. A caret takes the complement of the whole. A class may
hold classes, and the operators `&&` for what is in both sides, `--` for what is only in the left
side, and `~~` for what is in one side alone. -/
def readClass? : (fuel : Nat) → Text → Option (CharSet × Text)
  | 0, _ => none
  | fuel + 1, '^' :: s => do
    let (k, s) ← readOperands? fuel id (readLead s).1 (readLead s).2
    some (.compl k, s)
  | fuel + 1, s => readOperands? fuel id (readLead s).1 (readLead s).2

/-- The rest of a class. `k` is what has been read of the current operand, and `left` takes the
whole operand to the value of the class up to its end. -/
def readOperands? : (fuel : Nat) → (left : CharSet → CharSet) → (k : CharSet) → Text →
    Option (CharSet × Text)
  | 0, _, _, _ => none
  | fuel + 1, left, k, s =>
    match s with
    | ']' :: s => some (left k, s)
    | '&' :: '&' :: s => readOperands? fuel (.inter (left k)) .empty s
    | '-' :: '-' :: s => readOperands? fuel (.diff (left k)) .empty s
    | '~' :: '~' :: s => readOperands? fuel (.symDiff (left k)) .empty s
    | '[' :: s => do
      let (k', s) ← (readNamedSet? s).or (readClass? fuel s)
      readOperands? fuel left (k.union k') s
    | s => do
      let (k', s) ← readRange? s
      readOperands? fuel left (k.union k') s

end

def isNameChar (c : Char) : Bool := c.isAlphanum || c = '_'

def readGroupHead? (s : Text) : Option (Option Text × Text) :=
  let named (s : Text) : Option (Option Text × Text) :=
    let name := s.takeWhile isNameChar
    match name, s.dropWhile isNameChar with
    | c :: _, '>' :: s => if c.isDigit then none else some (some name, s)
    | _, _ => none
  match s with
  | '?' :: 'P' :: '<' :: s => named s
  | '?' :: '<' :: s => named s
  | '?' :: ':' :: s => some (none, s)
  | '?' :: _ => none
  | s => some (none, s)

def readGreed : Text → Bool × Text
  | '?' :: s => (false, s)
  | s => (true, s)

theorem length_readGreed (s : Text) : (readGreed s).2.length ≤ s.length := by
  unfold readGreed
  split <;> simp

def readRepeats (p : Pattern) (s : Text) : Pattern × Text :=
  match s with
  | '*' :: s =>
    have := length_readGreed s
    readRepeats (many (readGreed s).1 p) (readGreed s).2
  | '+' :: s =>
    have := length_readGreed s
    readRepeats (plus (readGreed s).1 p) (readGreed s).2
  | '?' :: s =>
    have := length_readGreed s
    readRepeats (opt (readGreed s).1 p) (readGreed s).2
  | s => (p, s)
termination_by s.length
decreasing_by all_goals simp only [List.length_cons]; omega

mutual

def readChoices? : (fuel : Nat) → Text → Option (Pattern × Text)
  | 0, _ => none
  | fuel + 1, s => do
    let (p, s) ← readSequence? fuel s
    match s with
    | '|' :: s =>
      let (q, s) ← readChoices? fuel s
      some (alt p q, s)
    | s => some (p, s)

def readSequence? : (fuel : Nat) → Text → Option (Pattern × Text)
  | 0, _ => none
  | fuel + 1, s =>
    match s with
    | [] => some (empty, [])
    | '|' :: _ | ')' :: _ => some (empty, s)
    | _ => do
      let (p, s) ← readAtom? fuel s
      let (p, s) := readRepeats p s
      let (q, s) ← readSequence? fuel s
      some (if q = empty then p else seq p q, s)

def readAtom? : (fuel : Nat) → Text → Option (Pattern × Text)
  | 0, _ => none
  | _ + 1, [] => none
  | fuel + 1, c :: s =>
    match c with
    | '(' => do
      let (name, s) ← readGroupHead? s
      let (p, s) ← readChoices? fuel s
      match s with
      | ')' :: s => some (group name p, s)
      | _ => none
    | '[' => (readClass? (s.length + 1) s).map fun (k, s) => (one k, s)
    | '^' => some (start, s)
    | '$' => some (stop, s)
    | '.' => some (one (.compl (.single '\n')), s)
    | '*' | '+' | '?' | '{' => none
    | '\\' =>
      match s with
      | [] => none
      | c :: s => (escape? c).map fun part => (one part.toSet, s)
    | c => some (one (.single c), s)

end

/-- The pattern written by a text: characters and the escapes of `escape?`, classes in brackets,
`.`, `^`, `$`, groups, the repetitions `*`, `+` and `?` with a question mark behind them or without,
and `|`. Two groups of one name are refused. So is everything else, also counted repetitions
(`a{2}`), flags (`(?i)`) and names of groups with dots or brackets, which patterns may have
elsewhere. -/
def read? (s : Text) : Option Pattern :=
  match readChoices? (3 * s.length + 3) s with
  | some (p, []) => if p.names.Nodup then some p else none
  | _ => none

end Pattern

end Curly

import Curly.Data.Reader

namespace Curly.Script

inductive Refusal where
  | strayCharacter (c : Char)
  | openString
  | badEscape
  | badNumber
  | openTag
  | openComment
  | openRaw
  | unexpected
  | unknownStatement (name : Text)
  | reservedName (name : Text)
  | tooDeep
deriving DecidableEq, Repr

inductive Sign where
  | dot | comma | colon | tilde | assign | pipe
  | eq | ne | lt | le | gt | ge
  | plus | minus | times | power | slash | slashes | percent
  | openParen | closeParen | openBracket | closeBracket | openBrace | closeBrace
deriving DecidableEq, Repr

inductive Lexeme where
  | word (name : Text)
  | text (s : Text)
  | int (n : Nat)
  | double (x : Float)
  | sign (s : Sign)
deriving DecidableEq, Repr

namespace Lexeme

def depth : Lexeme → Int
  | sign .openParen | sign .openBracket | sign .openBrace => 1
  | sign .closeParen | sign .closeBracket | sign .closeBrace => -1
  | _ => 0

def pair? : Char → Char → Option Sign
  | '/', '/' => some .slashes
  | '*', '*' => some .power
  | '=', '=' => some .eq
  | '!', '=' => some .ne
  | '>', '=' => some .ge
  | '<', '=' => some .le
  | _, _ => none

def single? : Char → Option Sign
  | '+' => some .plus
  | '-' => some .minus
  | '*' => some .times
  | '/' => some .slash
  | '%' => some .percent
  | '.' => some .dot
  | ',' => some .comma
  | ':' => some .colon
  | '~' => some .tilde
  | '=' => some .assign
  | '|' => some .pipe
  | '(' => some .openParen
  | ')' => some .closeParen
  | '[' => some .openBracket
  | ']' => some .closeBracket
  | '{' => some .openBrace
  | '}' => some .closeBrace
  | '<' => some .lt
  | '>' => some .gt
  | _ => none

def isWordStart (c : Char) : Bool := c.isAlpha || c = '_'

def isWordRest (c : Char) : Bool := c.isAlphanum || c = '_'

def cutString? (quote : Char) : Text → Option (Text × Text)
  | [] => none
  | '\\' :: c :: s => (cutString? quote s).map fun (t, rest) => ('\\' :: c :: t, rest)
  | c :: s =>
    if c = quote then some ([], s)
    else (cutString? quote s).map fun (t, rest) => (c :: t, rest)

/-- The number written by digits of a base. A plus sign may stand before them. -/
def codeOf? (base : Nat) (digits : Text) : Option Nat :=
  let digits := (Text.after? ['+'] digits).getD digits
  if digits = [] then none
  else
    digits.foldlM (fun n c => do
      let d ← Data.hexDigit? c
      if d < base then some (n * base + d) else none) 0

def escaped? : Char → Option Char
  | '"' => some '"'
  | '\\' => some '\\'
  | '/' => some '/'
  | '\'' => some '\''
  | 'b' => some '\x08'
  | 'f' => some '\x0c'
  | 'n' => some '\n'
  | 'r' => some '\r'
  | 't' => some '\t'
  | _ => none

def isOctal (c : Char) : Bool := '0' ≤ c && c ≤ '7'

inductive Unit16 where
  | half (n : Nat)
  | char (c : Char)
deriving DecidableEq, Repr

def unitOf (n : Nat) : Unit16 :=
  if 0xD800 ≤ n ∧ n < 0xE000 then .half n else .char (Char.ofNat n)

/-- The text behind a backslash: what the escape stands for, and what follows it. A character that
escapes nothing stands for itself, behind its backslash. -/
def readEscape? : Text → Option (List Unit16 × Text)
  | [] => none
  | 'u' :: s =>
    match s with
    | a :: b :: c :: d :: s => (codeOf? 16 [a, b, c, d]).map fun n => ([unitOf n], s)
    | _ => none
  | 'x' :: s =>
    match s with
    | a :: b :: s => (codeOf? 16 [a, b]).map fun n => ([.char (Char.ofNat n)], s)
    | _ => none
  | c :: s =>
    if isOctal c then
      let more := (s.take 2).takeWhile isOctal
      match codeOf? 8 (c :: more) with
      | some n => if n < 0x100 then some ([.char (Char.ofNat n)], s.drop more.length) else none
      | none => none
    else
      match escaped? c with
      | some d => some ([.char d], s)
      | none => some ([.char '\\', .char c], s)

def units? : (fuel : Nat) → Text → Option (List Unit16)
  | 0, _ => none
  | _, [] => some []
  | fuel + 1, '\\' :: s => do
    let (us, s) ← readEscape? s
    some (us ++ (← units? fuel s))
  | fuel + 1, c :: s => do some (.char c :: (← units? fuel s))

/-- The text of some units. Halves stand in pairs, a high one before a low one. -/
def joinUnits? : List Unit16 → Option Text
  | [] => some []
  | .char c :: us => (joinUnits? us).map (c :: ·)
  | .half m :: .half n :: us =>
    if m < 0xDC00 ∧ 0xDC00 ≤ n then
      (joinUnits? us).map (Char.ofNat (0x10000 + (m - 0xD800) * 0x400 + (n - 0xDC00)) :: ·)
    else none
  | .half _ :: _ => none

def unescape? (s : Text) : Option Text := (units? (s.length + 1) s).bind joinUnits?

def readString (quote : Char) (s : Text) : Except Refusal (Lexeme × Text) :=
  match cutString? quote s with
  | none => .error .openString
  | some (body, rest) =>
    match unescape? body with
    | some t => .ok (text t, rest)
    | none => .error .badEscape

def atExponent : Text → Bool
  | e :: '+' :: c :: _ | e :: '-' :: c :: _ => (e = 'e' || e = 'E') && c.isDigit
  | e :: c :: _ => (e = 'e' || e = 'E') && c.isDigit
  | _ => false

/-- Whether a name stands here that a dot makes an attribute: a word that is no exponent. -/
def atAttribute (s : Text) : Bool := s.head?.any isWordStart && !atExponent s

inductive NumberState where
  | whole
  | fraction
  | exponent
  | power
  | radix (base : Nat)
deriving DecidableEq, Repr

def NumberState.next? : NumberState → Char → Option NumberState
  | whole, '.' => some fraction
  | whole, 'e' | whole, 'E' | fraction, 'e' | fraction, 'E' => some exponent
  | exponent, '+' | exponent, '-' => some power
  | state, c =>
    if c.isDigit then some (if state = exponent then power else state)
    else if c = '_' then some state
    else if state = radix 16 ∧ (Data.hexDigit? c).isSome then some state
    else none

/-- The characters that belong to a number, the state behind them, and what follows. A dot before
an attribute is no part of the number. -/
def cutNumber (state : NumberState) : Text → Text × NumberState × Text
  | [] => ([], state, [])
  | c :: s =>
    match if c = '.' && atAttribute s then none else state.next? c with
    | none => ([], state, c :: s)
    | some state =>
      let (digits, state, rest) := cutNumber state s
      (c :: digits, state, rest)

def floatOfText? (s : Text) : Option Float :=
  let whole := s.takeWhile Char.isDigit
  let s := s.dropWhile Char.isDigit
  let (fraction, s) :=
    match s with
    | '.' :: s => (s.takeWhile Char.isDigit, s.dropWhile Char.isDigit)
    | s => ([], s)
  let m := Data.natOfDigits (whole ++ fraction)
  match s with
  | [] => some (Decimal.toFloat m (-fraction.length))
  | _ :: s =>
    match Data.readExponent? s with
    | some (e, []) => some (Decimal.toFloat m (e - fraction.length))
    | _ => none

/-- The number that a run of number characters stands for. Underscores may stand anywhere but at
the end. -/
def ofDigits? (state : NumberState) (run : Text) : Option Lexeme :=
  if run.getLast? = some '_' then none
  else
    let digits := run.filter (· ≠ '_')
    let whole (base : Nat) : Option Lexeme :=
      (codeOf? base digits).bind fun n => if n < 2 ^ 128 then some (int n) else none
    match state with
    | .whole => whole 10
    | .radix base => whole base
    | _ => (floatOfText? digits).map double

def base? : Char → Option Nat
  | 'b' | 'B' => some 2
  | 'o' | 'O' => some 8
  | 'x' | 'X' => some 16
  | _ => none

def readRun (state : NumberState) (s : Text) : Except Refusal (Lexeme × Text) :=
  let (digits, state, rest) := cutNumber state s
  match ofDigits? state digits with
  | some l => .ok (l, rest)
  | none => .error .badNumber

def readNumber (c : Char) (s : Text) : Except Refusal (Lexeme × Text) :=
  match c, s with
  | '0', x :: rest =>
    match base? x with
    | some base => readRun (.radix base) rest
    | none => readRun .whole (c :: s)
  | _, _ => readRun .whole (c :: s)

def read (c : Char) (s : Text) : Except Refusal (Lexeme × Text) :=
  match s.head?.bind (pair? c) with
  | some p => .ok (sign p, s.tail)
  | none =>
    match single? c with
    | some p => .ok (sign p, s)
    | none =>
      if c = '"' || c = '\'' then readString c s
      else if c.isDigit then readNumber c s
      else if isWordStart c then
        .ok (word (c :: s.takeWhile isWordRest), s.dropWhile isWordRest)
      else .error (.strayCharacter c)

theorem length_cutString? {quote : Char} {s t rest : Text}
    (h : cutString? quote s = some (t, rest)) : rest.length < s.length := by
  induction s using cutString?.induct quote generalizing t with
  | case1 => simp [cutString?] at h
  | case2 c s ih =>
    simp only [cutString?, Option.map_eq_some_iff, Prod.mk.injEq, Prod.exists] at h
    obtain ⟨t, r, h, -, rfl⟩ := h
    have := ih h
    simp only [List.length_cons]
    omega
  | case3 s _ => simp_all [cutString?]
  | case4 c s _ _ ih =>
    rw [cutString?.eq_3 _ _ _ (by assumption), if_neg (by assumption)] at h
    simp only [Option.map_eq_some_iff, Prod.mk.injEq, Prod.exists] at h
    obtain ⟨t, r, h, -, rfl⟩ := h
    have := ih h
    simp only [List.length_cons]
    omega

theorem length_cutNumber (state : NumberState) (s : Text) :
    (cutNumber state s).2.2.length ≤ s.length := by
  induction s generalizing state with
  | nil => simp [cutNumber]
  | cons c s ih =>
    rw [cutNumber]
    generalize (if c = '.' && atAttribute s then none else state.next? c) = next
    cases next with
    | none => simp
    | some state => exact Nat.le_succ_of_le (ih state)

theorem next?_digit {c : Char} (h : c.isDigit) (state : NumberState) :
    (state.next? c).isSome := by
  have hne : c ≠ '.' ∧ c ≠ 'e' ∧ c ≠ 'E' ∧ c ≠ '+' ∧ c ≠ '-' := by
    refine ⟨?_, ?_, ?_, ?_, ?_⟩ <;> rintro rfl <;> simp at h
  obtain ⟨h₁, h₂, h₃, h₄, h₅⟩ := hne
  unfold NumberState.next?
  split <;> simp_all

theorem length_cutNumber_digit {c : Char} (h : c.isDigit) (state : NumberState) (s : Text) :
    (cutNumber state (c :: s)).2.2.length ≤ s.length := by
  obtain ⟨next, hn⟩ := Option.isSome_iff_exists.mp (next?_digit h state)
  have hc : c ≠ '.' := by rintro rfl; simp at h
  simpa [cutNumber, hn, hc] using length_cutNumber next s

theorem length_readRun {state : NumberState} {s rest : Text} {l : Lexeme}
    (h : readRun state s = .ok (l, rest)) : rest = (cutNumber state s).2.2 := by
  unfold readRun at h
  split at h
  · split at h <;> simp_all

theorem length_read {c : Char} {s rest : Text} {l : Lexeme} (h : read c s = .ok (l, rest)) :
    rest.length ≤ s.length := by
  unfold read at h
  split at h
  · simp only [Except.ok.injEq, Prod.mk.injEq] at h
    rw [← h.2]
    simp
  · split at h
    · simp only [Except.ok.injEq, Prod.mk.injEq] at h
      simp [h.2]
    · split at h
      · unfold readString at h
        split at h
        · simp at h
        · next hc =>
          split at h
          · simp only [Except.ok.injEq, Prod.mk.injEq] at h
            exact Nat.le_of_lt (h.2 ▸ length_cutString? hc)
          · simp at h
      · split at h
        · next hd =>
          unfold readNumber at h
          split at h
          · split at h
            · rw [length_readRun h]
              exact Nat.le_succ_of_le (length_cutNumber _ _)
            · rw [length_readRun h]
              exact length_cutNumber_digit hd _ _
          · rw [length_readRun h]
            exact length_cutNumber_digit hd _ _
        · split at h
          · simp only [Except.ok.injEq, Prod.mk.injEq] at h
            exact h.2 ▸ (List.dropWhile_sublist _).length_le
          · simp at h

end Lexeme

end Curly.Script

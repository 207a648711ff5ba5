import Curly.Path
import Curly.Script.Piece

namespace Curly.Script

namespace Piece

def behind (ls : List Lexeme) :
    Except Refusal (List Lexeme × Bool × Text) → Except Refusal (List Lexeme × Bool × Text) :=
  Except.map fun (ms, more) => (ls ++ ms, more)

@[simp] theorem behind_nil (r : Except Refusal (List Lexeme × Bool × Text)) : behind [] r = r := by
  cases r <;> rfl

@[simp] theorem behind_behind (ls ms : List Lexeme)
    (r : Except Refusal (List Lexeme × Bool × Text)) :
    behind ls (behind ms r) = behind (ls ++ ms) r := by
  cases r <;> simp [behind, Except.map]

def IsInner (c : Char) : Prop := c ∉ ['}', '%', '#', '-', '+']

instance : DecidablePred IsInner := fun c => inferInstanceAs (Decidable (c ∉ _))

theorem closes?_of_isInner (m : Marker) (depth : Int) {c : Char} (s : Text) (h : IsInner c) :
    closes? m.closing depth (c :: s) = none := by
  simp only [IsInner, List.mem_cons, List.not_mem_nil, or_false, not_or] at h
  obtain ⟨h₁, h₂, h₃, h₄, h₅⟩ := h
  have ha : Text.after? m.closing (c :: s) = none := by
    cases m <;> simp [Marker.closing, Text.after?, Ne.symm h₁, Ne.symm h₂, Ne.symm h₃]
  have hn : atClosing? m.closing (c :: s) = none := by simp [atClosing?, ha, h₄, h₅]
  rw [closes?, hn, ite_self]

theorem lexemes_blank (m : Marker) (depth : Int) (s : Text) :
    lexemes m.closing depth (' ' :: s) = lexemes m.closing depth s := by
  rw [lexemes, closes?_of_isInner m depth s (by decide)]
  rfl

theorem lexemes_open (m : Marker) {depth : Int} {c : Char} {s : Text}
    (hc : closes? m.closing depth (c :: s) = none) (hb : Text.isAsciiBlank c = false) :
    lexemes m.closing depth (c :: s) = (Lexeme.read c s).bind fun (l, rest) =>
      behind [l] (lexemes m.closing (depth + l.depth) rest) := by
  rw [lexemes, hc]
  simp only [hb, Bool.false_eq_true, if_false]
  split
  · next e he =>
    rw [he]
    rfl
  · next l rest he =>
    rw [he]
    change _ = behind [l] (lexemes m.closing (depth + l.depth) rest)
    cases lexemes m.closing (depth + l.depth) rest <;> rfl

theorem lexemes_inner (m : Marker) (depth : Int) {c : Char} (s : Text) (hc : IsInner c)
    (hb : Text.isAsciiBlank c = false) :
    lexemes m.closing depth (c :: s) = (Lexeme.read c s).bind fun (l, rest) =>
      behind [l] (lexemes m.closing (depth + l.depth) rest) :=
  lexemes_open m (closes?_of_isInner m depth s hc) hb

theorem lexemes_read (m : Marker) (depth : Int) {c : Char} {s rest : Text} {l : Lexeme}
    (hc : IsInner c) (hb : Text.isAsciiBlank c = false) (hr : Lexeme.read c s = .ok (l, rest)) :
    lexemes m.closing depth (c :: s) = behind [l] (lexemes m.closing (depth + l.depth) rest) := by
  rw [lexemes_inner m depth s hc hb, hr]
  rfl

theorem lexemes_closing (m : Marker) (s : Text) :
    lexemes m.closing 0 (m.closing ++ s) = .ok ([], false, s) := by
  have h : closes? m.closing 0 (m.closing ++ s) = some (false, s) := by simp [closes?, atClosing?]
  rw [lexemes.eq_def, h]

def EndsWord (s : Text) : Prop := ∀ c ∈ s.head?, c ∈ [' ', ')', '[', ']', '|', '.']

/-- What may follow a number that ends here, too. -/
def IsBoundary (s : Text) : Prop := ∀ c ∈ s.head?, c ∈ [' ', ')', '[', ']', '|']

theorem IsBoundary.endsWord {s : Text} (h : IsBoundary s) : EndsWord s := by
  intro c hc
  have hm : c ∈ [' ', ')', '[', ']', '|'] ++ ['.'] := List.mem_append_left _ (h c hc)
  exact hm

theorem endsWord_dot (s : Text) : EndsWord ('.' :: s) := by simp [EndsWord]

theorem EndsWord.isWordRest {s : Text} (h : EndsWord s) :
    ∀ c ∈ s.head?, Lexeme.isWordRest c = false := by
  intro c hc
  have hm := h c hc
  simp only [List.mem_cons, List.not_mem_nil, or_false] at hm
  obtain rfl | rfl | rfl | rfl | rfl | rfl := hm <;> decide

theorem isBoundary_cons {c : Char} (s : Text) (h : c ∈ [' ', ')', '[', ']', '|']) :
    IsBoundary (c :: s) := by
  simpa [IsBoundary] using h

theorem isBoundary_blank (s : Text) : IsBoundary (' ' :: s) := isBoundary_cons s (by decide)

/-- The text is read as those lexemes inside every tag. -/
def Spells (s : Text) (ls : List Lexeme) : Prop :=
  ∀ (m : Marker) (depth : Int) (rest : Text), IsBoundary rest →
    lexemes m.closing depth (s ++ rest) = behind ls (lexemes m.closing depth rest)

namespace Spells

variable {s t : Text} {ls ms : List Lexeme}

theorem apart (hs : Spells s ls) (ht : Spells t ms) : Spells (s ++ ' ' :: t) (ls ++ ms) := by
  intro m depth rest hr
  have hb := hs m depth (' ' :: (t ++ rest)) (isBoundary_blank _)
  rw [List.append_assoc, List.cons_append, hb, lexemes_blank, ht m depth rest hr, behind_behind]

theorem sign {c : Char} {p : Sign} (hc : IsInner c) (hb : Text.isAsciiBlank c = false)
    (hp : ∀ d, Lexeme.pair? c d = none) (hs : Lexeme.single? c = some p) (m : Marker)
    (depth : Int) (rest : Text) :
    lexemes m.closing depth (c :: rest) =
      behind [.sign p] (lexemes m.closing (depth + (Lexeme.sign p).depth) rest) := by
  refine lexemes_read m depth hc hb ?_
  have hn : rest.head?.bind (Lexeme.pair? c) = none := by
    cases rest with
    | nil => rfl
    | cons d rest => exact hp d
  rw [Lexeme.read, hn]
  simp only [hs]

theorem pair?_eq_none {c : Char} (hc : c ∉ ['/', '*', '=', '!', '>', '<']) (d : Char) :
    Lexeme.pair? c d = none := by
  simp only [List.mem_cons, List.not_mem_nil, or_false, not_or] at hc
  unfold Lexeme.pair?
  split <;> simp_all

theorem openParen (m : Marker) (depth : Int) (rest : Text) :
    lexemes m.closing depth ('(' :: rest) =
      behind [.sign .openParen] (lexemes m.closing (depth + 1) rest) :=
  sign (c := '(') (by decide) (by decide) (pair?_eq_none (by decide)) rfl m depth rest

theorem closeParen (m : Marker) (depth : Int) (rest : Text) :
    lexemes m.closing (depth + 1) (')' :: rest) =
      behind [.sign .closeParen] (lexemes m.closing depth rest) := by
  have h := sign (c := ')') (p := .closeParen) (by decide) (by decide)
    (pair?_eq_none (by decide)) rfl m (depth + 1) rest
  rw [h]
  congr 2
  simp only [Lexeme.depth]
  omega

theorem openBracket (m : Marker) (depth : Int) (rest : Text) :
    lexemes m.closing depth ('[' :: rest) =
      behind [.sign .openBracket] (lexemes m.closing (depth + 1) rest) :=
  sign (c := '[') (by decide) (by decide) (pair?_eq_none (by decide)) rfl m depth rest

theorem closeBracket (m : Marker) (depth : Int) (rest : Text) :
    lexemes m.closing (depth + 1) (']' :: rest) =
      behind [.sign .closeBracket] (lexemes m.closing depth rest) := by
  have h := sign (c := ']') (p := .closeBracket) (by decide) (by decide)
    (pair?_eq_none (by decide)) rfl m (depth + 1) rest
  rw [h]
  congr 2
  simp only [Lexeme.depth]
  omega

theorem dot (m : Marker) (depth : Int) (rest : Text) :
    lexemes m.closing depth ('.' :: rest) =
      behind [.sign .dot] (lexemes m.closing depth rest) := by
  have h := sign (c := '.') (p := .dot) (by decide) (by decide) (pair?_eq_none (by decide)) rfl m
    depth rest
  simpa [Lexeme.depth] using h

theorem pipe (m : Marker) (depth : Int) (rest : Text) :
    lexemes m.closing depth ('|' :: rest) =
      behind [.sign .pipe] (lexemes m.closing depth rest) := by
  have h := sign (c := '|') (p := .pipe) (by decide) (by decide) (pair?_eq_none (by decide)) rfl m
    depth rest
  simpa [Lexeme.depth] using h

theorem parens (h : Spells s ls) :
    Spells ('(' :: s ++ [')']) (.sign .openParen :: ls ++ [.sign .closeParen]) := by
  intro m depth rest hr
  have hb : IsBoundary (')' :: rest) := isBoundary_cons rest (by decide)
  have hs := h m (depth + 1) (')' :: rest) hb
  rw [List.cons_append, List.cons_append, List.append_assoc, List.cons_append, List.nil_append,
    openParen, hs, closeParen, behind_behind, behind_behind]
  rfl

theorem piped (hs : Spells s ls) (ht : Spells t ms) :
    Spells (s ++ '|' :: t) (ls ++ .sign .pipe :: ms) := by
  intro m depth rest hr
  have hb : IsBoundary ('|' :: (t ++ rest)) := isBoundary_cons _ (by decide)
  rw [List.append_assoc, List.cons_append, hs m depth _ hb, pipe, ht m depth rest hr,
    behind_behind, behind_behind]
  simp

end Spells

structure IsName (w : Text) : Prop where
  start : w.head?.any Lexeme.isWordStart = true
  rest : w.all Lexeme.isWordRest = true

instance (w : Text) : Decidable (IsName w) :=
  decidable_of_iff (w.head?.any Lexeme.isWordStart = true ∧ w.all Lexeme.isWordRest = true)
    ⟨fun h => ⟨h.1, h.2⟩, fun h => ⟨h.start, h.rest⟩⟩

theorem IsName.ne_nil {w : Text} (h : IsName w) : w ≠ [] := by
  rintro rfl
  simpa using h.start

theorem isInner_of_isWordRest {c : Char} (h : Lexeme.isWordRest c = true) : IsInner c := by
  intro hm
  simp only [List.mem_cons, List.not_mem_nil, or_false] at hm
  obtain rfl | rfl | rfl | rfl | rfl := hm <;> revert h <;> decide

theorem isAsciiBlank_of_isWordRest {c : Char} (h : Lexeme.isWordRest c = true) :
    Text.isAsciiBlank c = false := by
  simp only [Text.isAsciiBlank, Bool.or_eq_false_iff, decide_eq_false_iff_not]
  refine ⟨⟨⟨⟨?_, ?_⟩, ?_⟩, ?_⟩, ?_⟩ <;> rintro rfl <;> revert h <;> decide

theorem single?_of_isWordRest {c : Char} (h : Lexeme.isWordRest c = true) :
    Lexeme.single? c = none := by
  unfold Lexeme.single?
  split <;> first | rfl | (revert h; decide)

theorem head?_bind_pair?_of_isWordRest {c : Char} (s : Text) (h : Lexeme.isWordRest c = true) :
    s.head?.bind (Lexeme.pair? c) = none := by
  cases s with
  | nil => rfl
  | cons d s =>
    refine Spells.pair?_eq_none (fun hm => ?_) d
    simp only [List.mem_cons, List.not_mem_nil, or_false] at hm
    obtain rfl | rfl | rfl | rfl | rfl | rfl := hm <;> revert h <;> decide

theorem takeWhile_isWordRest {w rest : Text} (hw : w.all Lexeme.isWordRest = true)
    (hr : ∀ c ∈ rest.head?, Lexeme.isWordRest c = false) :
    (w ++ rest).takeWhile Lexeme.isWordRest = w ∧
      (w ++ rest).dropWhile Lexeme.isWordRest = rest := by
  have hall := List.all_eq_true.mp hw
  rw [List.takeWhile_append_of_pos hall, List.dropWhile_append_of_pos hall]
  cases rest with
  | nil => simp
  | cons c rest => simp [hr c rfl]

theorem isDigit_of_isWordStart {c : Char} (h : Lexeme.isWordStart c = true) :
    c.isDigit = false := by
  delta Lexeme.isWordStart Char.isAlpha Char.isUpper Char.isLower at h
  simp only [Char.isDigit, Bool.or_eq_true, Bool.and_eq_true, decide_eq_true_eq,
    Bool.and_eq_false_iff, decide_eq_false_iff_not] at *
  obtain (h | h) | rfl := h
  · grind
  · grind
  · decide

theorem ne_of_isWordRest {c d : Char} (h : Lexeme.isWordRest c = true)
    (hd : Lexeme.isWordRest d = false) : c ≠ d := by
  rintro rfl
  rw [h] at hd
  cases hd

theorem read_word {w rest : Text} (hw : IsName w)
    (hr : ∀ c ∈ rest.head?, Lexeme.isWordRest c = false) (m : Marker) (depth : Int) :
    lexemes m.closing depth (w ++ rest) = behind [.word w] (lexemes m.closing depth rest) := by
  cases w with
  | nil => simpa using hw.start
  | cons c w =>
    have hstart : Lexeme.isWordStart c = true := by simpa using hw.start
    have hall := hw.rest
    rw [List.all_cons, Bool.and_eq_true] at hall
    obtain ⟨hrest, hall⟩ := hall
    have hdigit := isDigit_of_isWordStart hstart
    have hquote : (c = '"' || c = '\'') = false := by
      simp [ne_of_isWordRest hrest (d := '"') (by decide),
        ne_of_isWordRest hrest (d := '\'') (by decide)]
    have ht := takeWhile_isWordRest hall hr
    have hread : Lexeme.read c (w ++ rest) = .ok (.word (c :: w), rest) := by
      rw [Lexeme.read, head?_bind_pair?_of_isWordRest _ hrest, single?_of_isWordRest hrest]
      simp only [hquote, hdigit, hstart, Bool.false_eq_true, if_false, if_true, ht.1, ht.2]
    rw [List.cons_append, lexemes_read m depth (isInner_of_isWordRest hrest)
      (isAsciiBlank_of_isWordRest hrest) hread]
    simp [Lexeme.depth]

theorem read_name {w rest : Text} (hw : IsName w) (hr : EndsWord rest) (m : Marker)
    (depth : Int) :
    lexemes m.closing depth (w ++ rest) = behind [.word w] (lexemes m.closing depth rest) :=
  read_word hw hr.isWordRest m depth

theorem Spells.name {w : Text} (hw : IsName w) : Spells w [.word w] :=
  fun m depth _ hr => read_name hw hr.endsWord m depth

theorem Spells.call {w : Text} (hw : IsName w) :
    Spells (w ++ ['(', ')']) [.word w, .sign .openParen, .sign .closeParen] := by
  intro m depth rest hr
  have hp : ∀ c ∈ ('(' :: ')' :: rest : Text).head?, Lexeme.isWordRest c = false := by
    rintro c ⟨⟩
    decide
  rw [List.append_assoc, List.cons_append, List.cons_append, List.nil_append, read_word hw hp,
    openParen, closeParen, behind_behind, behind_behind]
  rfl

end Piece

namespace Lexeme

/-- The three ways to write a character in a string literal. -/
theorem jsonChar_cases (c : Char) :
    (∃ x, Text.jsonChar c = ['\\', x] ∧ ∀ s, readEscape? (x :: s) = some ([.char c], s)) ∨
      (c.toNat < 0x20 ∧ Text.jsonChar c = ['\\', 'u', '0', '0'] ++ Text.hexPair c.toNat) ∨
        (c ≠ '"' ∧ c ≠ '\\' ∧ Text.jsonChar c = [c]) := by
  unfold Text.jsonChar
  split
  · exact .inl ⟨_, rfl, fun s => rfl⟩
  · exact .inl ⟨_, rfl, fun s => rfl⟩
  · exact .inl ⟨_, rfl, fun s => rfl⟩
  · exact .inl ⟨_, rfl, fun s => rfl⟩
  · exact .inl ⟨_, rfl, fun s => rfl⟩
  · exact .inl ⟨_, rfl, fun s => rfl⟩
  · exact .inl ⟨_, rfl, fun s => rfl⟩
  · next h₁ h₂ _ _ _ _ _ =>
    by_cases h : c.toNat < 0x20
    · exact .inr (.inl ⟨h, by rw [if_pos h]⟩)
    · exact .inr (.inr ⟨h₁, h₂, by rw [if_neg h]⟩)

theorem codeOf?_hexPair : ∀ n < 0x20, codeOf? 16 ('0' :: '0' :: Text.hexPair n) = some n := by
  decide

theorem hexPair_plain {n : Nat} (hn : n < 0x20) :
    ∀ c ∈ Text.hexPair n, c ≠ '"' ∧ c ≠ '\\' := by
  have hall : ∀ n < 0x20, (Text.hexPair n).all (fun c => c ≠ '"' ∧ c ≠ '\\') = true := by decide
  intro c hc
  simpa using List.all_eq_true.mp (hall n hn) c hc

theorem cutString?_plain {quote c : Char} {s : Text} (hq : c ≠ quote) (hb : c ≠ '\\') :
    cutString? quote (c :: s) = (cutString? quote s).map fun (t, rest) => (c :: t, rest) := by
  rw [cutString?.eq_3 _ _ _ (by rintro _ _ rfl; exact absurd rfl hb), if_neg hq]

theorem cutString?_jsonChars (s rest : Text) :
    cutString? '"' (s.flatMap Text.jsonChar ++ '"' :: rest) =
      some (s.flatMap Text.jsonChar, rest) := by
  induction s with
  | nil => rfl
  | cons c s ih =>
    rw [List.flatMap_cons, List.append_assoc]
    obtain ⟨x, hx, -⟩ | ⟨h, hc⟩ | ⟨hq, hb, hc⟩ := jsonChar_cases c
    · rw [hx, List.cons_append, List.cons_append, List.nil_append, cutString?, ih]
      rfl
    · have hp := hexPair_plain h
      rw [hc]
      simp only [Text.hexPair, List.mem_cons, List.not_mem_nil, or_false, forall_eq_or_imp,
        forall_eq] at hp
      obtain ⟨⟨hq₁, hb₁⟩, hq₂, hb₂⟩ := hp
      simp only [Text.hexPair, List.cons_append, List.nil_append]
      rw [cutString?, cutString?_plain (by decide) (by decide),
        cutString?_plain (by decide) (by decide), cutString?_plain hq₁ hb₁,
        cutString?_plain hq₂ hb₂, ih]
      rfl
    · rw [hc, List.cons_append, List.nil_append, cutString?_plain hq hb, ih]
      rfl

theorem units?_backslash (fuel : Nat) (s : Text) :
    units? (fuel + 1) ('\\' :: s) =
      (readEscape? s).bind fun (us, s) => (units? fuel s).map (us ++ ·) := by
  rw [units?]
  cases readEscape? s with
  | none => rfl
  | some r => cases h : units? fuel r.2 <;> simp [h]

theorem units?_plain {fuel : Nat} {c : Char} {s : Text} (hb : c ≠ '\\') :
    units? (fuel + 1) (c :: s) = (units? fuel s).map (.char c :: ·) := by
  rw [units?.eq_4 _ _ _ hb]
  cases units? fuel s <;> rfl

theorem readEscape?_hexPair {c : Char} (h : c.toNat < 0x20) (s : Text) :
    readEscape? (['u', '0', '0'] ++ Text.hexPair c.toNat ++ s) = some ([.char c], s) := by
  have hcode := codeOf?_hexPair c.toNat h
  simp only [Text.hexPair] at hcode
  have hunit : unitOf c.toNat = .char c := by
    rw [unitOf, if_neg (by omega), Char.ofNat_toNat]
  simp [Text.hexPair, readEscape?, hcode, hunit]

theorem units?_jsonChars (s : Text) {fuel : Nat} (hf : (s.flatMap Text.jsonChar).length < fuel) :
    units? fuel (s.flatMap Text.jsonChar) = some (s.map .char) := by
  induction s generalizing fuel with
  | nil =>
    cases fuel with
    | zero => simp at hf
    | succ fuel => rfl
  | cons c s ih =>
    obtain ⟨fuel, rfl⟩ := Nat.exists_eq_add_one_of_ne_zero (Nat.ne_zero_of_lt hf)
    rw [List.flatMap_cons, List.length_append] at hf
    rw [List.flatMap_cons]
    obtain ⟨x, hx, he⟩ | ⟨h, hc⟩ | ⟨hq, hb, hc⟩ := jsonChar_cases c
    · have hlt : (s.flatMap Text.jsonChar).length < fuel := by
        rw [hx] at hf
        simp only [List.length_cons, List.length_nil] at hf
        omega
      rw [hx, List.cons_append, List.cons_append, List.nil_append, units?_backslash, he,
        Option.bind_some]
      simp [ih hlt]
    · have hlt : (s.flatMap Text.jsonChar).length < fuel := by
        rw [hc] at hf
        simp only [List.length_cons, List.length_append, List.length_nil] at hf
        omega
      have he := readEscape?_hexPair h (s.flatMap Text.jsonChar)
      simp only [List.cons_append, List.nil_append] at he
      rw [hc]
      simp only [List.cons_append, List.nil_append]
      rw [units?_backslash, he, Option.bind_some]
      simp [ih hlt]
    · have hlt : (s.flatMap Text.jsonChar).length < fuel := by
        rw [hc] at hf
        simp only [List.length_cons, List.length_nil] at hf
        omega
      rw [hc, List.cons_append, List.nil_append, units?_plain hb, ih hlt]
      rfl

theorem joinUnits?_chars (s : Text) : joinUnits? (s.map .char) = some s := by
  induction s with
  | nil => rfl
  | cons c s ih => rw [List.map_cons, joinUnits?, ih, Option.map_some]

/-- A text is read back from its string literal. -/
theorem read_jsonString (s rest : Text) :
    read '"' (s.flatMap Text.jsonChar ++ '"' :: rest) = .ok (.text s, rest) := by
  have hp : (s.flatMap Text.jsonChar ++ '"' :: rest).head?.bind (pair? '"') = none := by
    cases s.flatMap Text.jsonChar ++ '"' :: rest with
    | nil => rfl
    | cons d t => exact Piece.Spells.pair?_eq_none (c := '"') (by decide) d
  have hu : unescape? (s.flatMap Text.jsonChar) = some s := by
    rw [unescape?, units?_jsonChars s (Nat.lt_succ_self _), Option.bind_some, joinUnits?_chars]
  rw [read, hp]
  simp [single?, readString, cutString?_jsonChars, hu]

end Lexeme

namespace Piece

theorem Spells.literal (s : Text) : Spells s.jsonString [.text s] := by
  intro m depth rest hr
  have hq : Text.isAsciiBlank '"' = false := by decide
  rw [Text.jsonString, List.cons_append, List.cons_append, List.append_assoc, List.singleton_append,
    lexemes_read m depth (by decide) hq (Lexeme.read_jsonString s rest)]
  simp [Lexeme.depth]

end Piece

end Curly.Script

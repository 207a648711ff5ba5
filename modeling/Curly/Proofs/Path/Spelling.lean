import Curly.Proofs.Path.Numeral
import Curly.Script.Expr
import Curly.Source

namespace Curly

namespace Path

open Script Piece

def isQuoted (name : Text) : Bool := startsWithDigit name || name ∈ keywords

def rootLexemes (name : Text) : List Lexeme :=
  if isQuoted name then
    [.word data, .sign .openBracket, .text name, .sign .closeBracket]
  else [.word name]

theorem toNat_of_isWordRest {c : Char} (h : Lexeme.isWordRest c = true) :
    48 ≤ c.toNat ∧ c.toNat ≤ 122 := by
  delta Lexeme.isWordRest Char.isAlphanum Char.isAlpha Char.isUpper Char.isLower at h
  simp only [Char.isDigit, Bool.or_eq_true, Bool.and_eq_true, decide_eq_true_eq,
    UInt32.le_iff_toNat_le, ge_iff_le] at h
  change (((65 ≤ c.toNat ∧ c.toNat ≤ 90) ∨ 97 ≤ c.toNat ∧ c.toNat ≤ 122) ∨
    48 ≤ c.toNat ∧ c.toNat ≤ 57) ∨ c = '_' at h
  obtain h | rfl := h
  · omega
  · decide

theorem jsonChar_of_isWordRest {c : Char} (h : Lexeme.isWordRest c = true) :
    Text.jsonChar c = [c] := by
  have hn : ¬ c.toNat < 0x20 := by
    have hlo := (toNat_of_isWordRest h).1
    omega
  unfold Text.jsonChar
  split
  all_goals first | (rw [if_neg hn]) | (revert h; decide)

theorem jsonString_of_isWord {w : Text} (hw : isWord w = true) :
    w.jsonString = '"' :: w ++ ['"'] := by
  have h : w.flatMap Text.jsonChar = w := by
    induction w with
    | nil => rfl
    | cons c w ih =>
      have hall : (c :: w).all Lexeme.isWordRest = true := hw
      simp only [List.all_cons, Bool.and_eq_true] at hall
      rw [List.flatMap_cons, jsonChar_of_isWordRest hall.1, ih hall.2]
      rfl
  rw [Text.jsonString, h]

theorem isName_data : IsName data := by decide

theorem lexemes_root {name rest : Text} (hne : name ≠ []) (hw : isWord name = true)
    (hr : EndsWord rest) (m : Marker) (depth : Int) :
    lexemes m.closing depth (rootLookup name ++ rest) =
      behind (rootLexemes name) (lexemes m.closing depth rest) := by
  by_cases hq : isQuoted name = true
  · have htext : rootLookup name ++ rest = data ++ ('[' :: (name.jsonString ++ (']' :: rest))) := by
      have hq' : (startsWithDigit name || name ∈ keywords) = true := hq
      rw [rootLookup, if_pos hq', jsonString_of_isWord hw]
      simp
    have hb : IsBoundary ('[' :: (name.jsonString ++ (']' :: rest))) :=
      isBoundary_cons _ (by decide)
    rw [htext, read_name isName_data hb.endsWord, Spells.openBracket,
      Spells.literal name m (depth + 1) _ (isBoundary_cons rest (by decide)), Spells.closeBracket,
      behind_behind, behind_behind, behind_behind, rootLexemes, if_pos hq]
    rfl
  · have hq' : ¬ (startsWithDigit name || name ∈ keywords) = true := hq
    have hd : startsWithDigit name = false := by
      simp only [Bool.or_eq_true, not_or, Bool.not_eq_true] at hq'
      exact hq'.1
    rw [rootLookup, if_neg hq', read_name (isName_of_isWord hne hw hd) hr, rootLexemes, if_neg hq]

theorem spells_reference {name : Text} {segments : List Text} (hne : name ≠ [])
    (hw : isWord name = true) (hs : ∀ w ∈ segments, w ≠ [] ∧ isWord w = true)
    (hr : isReadable segments = true) :
    Spells (rootLookup name ++ dotted segments) (rootLexemes name ++ dottedLexemes segments) := by
  intro m depth rest hb
  rw [List.append_assoc, lexemes_root hne hw (endsWord_dotted segments hb.endsWord),
    lexemes_dotted hs hr (.inl hb), behind_behind]

theorem spells_root {name : Text} (hne : name ≠ []) (hw : isWord name = true) :
    Spells (rootLookup name) (rootLexemes name) := by
  have h : Spells (rootLookup name ++ dotted []) (rootLexemes name ++ dottedLexemes []) :=
    spells_reference hne hw (by simp) rfl
  simpa [dotted, dottedLexemes] using h

theorem isReadable_append_left {segments more : List Text}
    (h : isReadable (segments ++ more) = true) : isReadable segments = true := by
  induction segments with
  | nil => rfl
  | cons segment segments ih =>
    simp only [List.cons_append, isReadable, Bool.and_eq_true] at h ⊢
    refine ⟨?_, ih h.2⟩
    cases segments with
    | nil =>
      simp only [List.head?_nil, Option.all_none, Bool.or_true, Bool.and_true]
      revert h
      cases startsWithDigit segment <;> simp +contextual
    | cons next segments => exact h.1

/-- The lexemes of references that grow by one segment at a time, with `and` between them. -/
def chainLexemes (reference : List Lexeme) : List Text → List Lexeme
  | [] => reference
  | segment :: rest =>
    reference ++ Lexeme.keyword "and" ::
      chainLexemes (reference ++ [.sign .dot, segmentLexeme segment]) rest

theorem join_chain_cons (reference segment : Text) (rest : List Text) :
    Text.join " and ".toList (chain reference (segment :: rest)) =
      reference ++ ' ' :: ("and".toList ++ ' ' ::
        Text.join " and ".toList (chain (reference ++ '.' :: segment) rest)) := by
  cases rest <;> simp [chain, Text.join]

theorem spells_chain {name : Text} {before segments : List Text} (hne : name ≠ [])
    (hw : isWord name = true) (hs : ∀ w ∈ before ++ segments, w ≠ [] ∧ isWord w = true)
    (hr : isReadable (before ++ segments) = true) :
    Spells (Text.join " and ".toList (chain (rootLookup name ++ dotted before) segments))
      (chainLexemes (rootLexemes name ++ dottedLexemes before) segments) := by
  have href := spells_reference hne hw (fun w hm => hs w (List.mem_append_left _ hm))
    (isReadable_append_left hr)
  induction segments generalizing before with
  | nil => exact href
  | cons segment segments ih =>
    have hsplit : before ++ segment :: segments = (before ++ [segment]) ++ segments := by simp
    rw [hsplit] at hs hr
    have ih := ih hs hr (spells_reference hne hw (fun w hm => hs w (List.mem_append_left _ hm))
      (isReadable_append_left hr))
    have htext : rootLookup name ++ dotted before ++ '.' :: segment =
        rootLookup name ++ dotted (before ++ [segment]) := by simp [dotted]
    have hlex : rootLexemes name ++ dottedLexemes before ++ [.sign .dot, segmentLexeme segment] =
        rootLexemes name ++ dottedLexemes (before ++ [segment]) := by simp [dottedLexemes]
    have hand : Spells ("and".toList) [Lexeme.keyword "and"] := Spells.name (by decide)
    rw [join_chain_cons, htext, chainLexemes, hlex]
    exact href.apart (hand.apart ih)

def ifDefinedLexemes (root expr : List Lexeme) : List Lexeme :=
  .sign .openParen :: (expr ++ Lexeme.keyword "if" :: (root ++ [Lexeme.keyword "is",
    Lexeme.keyword "defined", Lexeme.keyword "else", .text []])) ++ [.sign .closeParen]

theorem spells_ifDefined {root expr : Text} {rs es : List Lexeme} (hr : Spells root rs)
    (he : Spells expr es) : Spells (ifDefined root expr) (ifDefinedLexemes rs es) := by
  have hif : Spells ("if".toList) [Lexeme.keyword "if"] := Spells.name (by decide)
  have his : Spells ("is".toList) [Lexeme.keyword "is"] := Spells.name (by decide)
  have hdefined : Spells ("defined".toList) [Lexeme.keyword "defined"] := Spells.name (by decide)
  have helse : Spells ("else".toList) [Lexeme.keyword "else"] := Spells.name (by decide)
  have h := (he.apart (hif.apart (hr.apart (his.apart (hdefined.apart
    (helse.apart (Spells.literal []))))))).parens
  have htext : ifDefined root expr = '(' :: (expr ++ ' ' :: ("if".toList ++ ' ' :: (root ++ ' ' ::
      ("is".toList ++ ' ' :: ("defined".toList ++ ' ' :: ("else".toList ++ ' ' ::
        Text.jsonString [])))))) ++ [')'] := by
    simp [ifDefined, Text.jsonString]
  rw [htext]
  simpa [ifDefinedLexemes] using h

def guardedLexemes (name : Text) (segments : List Text) : List Lexeme :=
  match segments with
  | [] => ifDefinedLexemes (rootLexemes name) (rootLexemes name)
  | segments =>
    ifDefinedLexemes (rootLexemes name)
      (.sign .openParen :: (.sign .openParen :: chainLexemes (rootLexemes name) segments ++
        [.sign .closeParen] ++ [Lexeme.keyword "or", .text []]) ++ [.sign .closeParen])

theorem spells_guardedSegments {name : Text} {segments : List Text} (hne : name ≠ [])
    (hw : isWord name = true) (hs : ∀ w ∈ segments, w ≠ [] ∧ isWord w = true)
    (hr : isReadable segments = true) :
    Spells (guardedSegments (rootLookup name) segments) (guardedLexemes name segments) := by
  have hroot := spells_root hne hw
  cases segments with
  | nil => exact spells_ifDefined hroot hroot
  | cons segment segments =>
    have hchain := @spells_chain name [] (segment :: segments) hne hw hs hr
    simp only [dotted, dottedLexemes, List.flatMap_nil, List.append_nil] at hchain
    have hor : Spells ("or".toList) [Lexeme.keyword "or"] := Spells.name (by decide)
    have h := spells_ifDefined hroot (hchain.parens.apart (hor.apart (Spells.literal []))).parens
    have htext : "((".toList ++ Text.join " and ".toList
          (chain (rootLookup name) (segment :: segments)) ++ ") or \"\")".toList =
        '(' :: ('(' :: Text.join " and ".toList (chain (rootLookup name) (segment :: segments)) ++
          [')'] ++ ' ' :: ("or".toList ++ ' ' :: Text.jsonString [])) ++ [')'] := by
      simp [Text.jsonString]
    rw [guardedSegments, htext]
    · simpa [guardedLexemes] using h
    · rintro ⟨⟩

def outputLexemes (unescaped : Bool) (expr : List Lexeme) : List Lexeme :=
  if unescaped then
    .sign .openParen :: expr ++ [.sign .closeParen] ++ [.sign .pipe, .word Source.unescapedFilter]
  else expr

def outputExpr (unescaped : Bool) (expr : Text) : Text :=
  if unescaped then ['('] ++ expr ++ [')', '|'] ++ Source.unescapedFilter else expr

theorem output_eq (expr : Text) (unescaped : Bool) :
    Source.output expr unescaped = Source.printed (outputExpr unescaped expr) := by
  cases unescaped <;> rfl

theorem spells_output {expr : Text} {es : List Lexeme} (h : Spells expr es) (unescaped : Bool) :
    Spells (outputExpr unescaped expr) (outputLexemes unescaped es) := by
  cases unescaped with
  | false => exact h
  | true =>
    have hf : Spells Source.unescapedFilter [.word Source.unescapedFilter] :=
      Spells.name (by decide)
    have htext : outputExpr true expr =
        '(' :: expr ++ [')'] ++ '|' :: Source.unescapedFilter := by simp [outputExpr]
    rw [htext]
    simpa [outputLexemes] using h.parens.piped hf

end Path

end Curly

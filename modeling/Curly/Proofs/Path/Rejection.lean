import Curly.Proofs.Path.Expression
import Curly.Proofs.Path.Misread
import Curly.Proofs.Script.Building
import Curly.Proofs.Script.Stray

namespace Curly

namespace Path

open Script Piece Expr

/-- What stands behind the last dot of a reference where a segment is misread. The reference is the
last one of its conjunction, or the next one goes on behind the segment. -/
inductive IsMisread (reference : List Lexeme) : List Lexeme → Prop
  | fraction {x : Float} {more : List Lexeme} : IsMisread reference (.double x :: more)
  | last {n : Nat} {w : Text} {more : List Lexeme} :
      IsMisread reference (.int n :: .word w :: .sign .closeParen :: more)
  | inner {n : Nat} {w : Text} {more : List Lexeme} :
      IsMisread reference (.int n :: .word w :: Lexeme.keyword "and" ::
        (reference ++ .sign .dot :: .int n :: .word w :: .sign .dot :: more))

variable {name : Text} {before : List Text} {levels : Nat} {tail : List Lexeme}

theorem rootLexemes_head (name : Text) :
    ∃ w more, rootLexemes name = .word w :: more ∧ w ∉ joints := by
  cases hq : isQuoted name with
  | true => exact ⟨data, _, by rw [rootLexemes, if_pos hq], by decide⟩
  | false =>
    refine ⟨name, [], by simp [rootLexemes, hq], fun hm => ?_⟩
    have hk : ∀ w ∈ joints, isQuoted w = true := by decide
    rw [hk name hm] at hq
    cases hq

theorem accessed_leftover (name : Text) (before : List Text) (levels n : Nat) (w : Text)
    (more : List Lexeme) :
    accessed (nestedAt levels)
        (rootLexemes name ++ dottedLexemes before ++ .sign .dot :: .int n :: .word w :: more) =
      within (rootLevels name) levels
        (.item (before.foldl segmentExpr (rootExpr name)) (.const (.nat n)), .word w :: more) := by
  obtain ⟨fuel, hfuel, h⟩ := accessed_reference name before levels
    (.sign .dot :: .int n :: .word w :: more)
  obtain ⟨fuel, rfl⟩ := Nat.exists_eq_add_one_of_ne_zero (Nat.ne_zero_of_lt hfuel)
  rw [h]
  refine within_bind_ok ?_
  rw [access]
  exact access_word _ _ _ w more

theorem accessed_fraction (name : Text) (before : List Text) (levels : Nat) (x : Float)
    (more : List Lexeme) :
    ∃ r, accessed (nestedAt levels)
      (rootLexemes name ++ dottedLexemes before ++ .sign .dot :: .double x :: more) = .error r := by
  obtain ⟨fuel, hfuel, h⟩ := accessed_reference name before levels (.sign .dot :: .double x :: more)
  obtain ⟨fuel, rfl⟩ := Nat.exists_eq_add_one_of_ne_zero (Nat.ne_zero_of_lt hfuel)
  rw [h, within]
  split
  · exact ⟨.unexpected, rfl⟩
  · exact ⟨.tooDeep, rfl⟩

/-- A test called `and` takes the name behind it as its argument. -/
theorem refine_andTest (fuel : Nat) (e : Expr) {w : Text} (hw : w ∉ joints) (ls : List Lexeme) :
    refine (nestedAt levels) (fuel + 1) e
        (Lexeme.keyword "is" :: Lexeme.keyword "and" :: .word w :: ls) =
      (accessed (nestedAt levels) (.word w :: ls)).bind fun (arg, ls) =>
        refine (nestedAt levels) fuel (.test e "and".toList [arg]) ls := by
  have harg : startsArgument (.word w) = true := by
    have hsub : ∀ w ∈ ["and".toList, "or".toList, "else".toList, "is".toList], w ∈ joints := by
      decide
    simpa only [startsArgument, decide_eq_true_eq] using fun hm => hw (hsub w hm)
  have hargs : testArguments (nestedAt levels) (.word w :: ls) =
      (accessed (nestedAt levels) (.word w :: ls)).bind fun (e, ls) => .ok ([e], ls) := if_pos harg
  have hne : Lexeme.keyword "and" ≠ Lexeme.keyword "not" := by decide
  have hskip : skipWord "not" (Lexeme.keyword "and" :: .word w :: ls) =
      (false, Lexeme.keyword "and" :: .word w :: ls) := by rw [skipWord, if_neg hne]
  have hname : dottedName "and".toList (.word w :: ls) = .ok ("and".toList, .word w :: ls) := rfl
  rw [refine, if_pos rfl, hskip]
  simp only [hname]
  change ((testArguments (nestedAt levels) (.word w :: ls)).bind _) = _
  rw [hargs]
  cases accessed (nestedAt levels) (.word w :: ls) <;> rfl

theorem refine_inner (fuel : Nat) (e : Expr) (name : Text) (before : List Text) (n : Nat)
    (more : List Lexeme) :
    ∃ r, refine (nestedAt levels) (fuel + 2) e (Lexeme.keyword "is" :: Lexeme.keyword "and" ::
      (rootLexemes name ++ dottedLexemes before ++
        .sign .dot :: .int n :: Lexeme.keyword "is" :: .sign .dot :: more)) = .error r := by
  have ha := accessed_leftover name before levels n "is".toList (.sign .dot :: more)
  obtain ⟨v, vs, hroot, hv⟩ := rootLexemes_head name
  rw [hroot, List.append_assoc, List.cons_append] at ha ⊢
  rw [refine_andTest _ e hv, ha, within]
  split
  · exact ⟨.unexpected, rfl⟩
  · exact ⟨.tooDeep, rfl⟩

/-- A reference with a misread segment is no operand that an expression goes on behind. -/
theorem refined_misread (h : IsMisread (rootLexemes name ++ dottedLexemes before) tail) :
    Leaves IsBlocked (refined (nestedAt levels)
      (rootLexemes name ++ dottedLexemes before ++ .sign .dot :: tail)) := by
  have hleftover {n : Nat} {w : Text} {more : List Lexeme}
      (hdead : IsDeadEnd more) (his : w = "is".toList → ∀ e, ∃ r, refine (nestedAt levels)
        (more.length + 1) e (Lexeme.keyword "is" :: more) = .error r) :
      Leaves IsBlocked (refined (nestedAt levels) (rootLexemes name ++ dottedLexemes before ++
        .sign .dot :: .int n :: .word w :: more)) := by
    rw [refined, accessed_leftover, within]
    split
    · change Leaves IsBlocked (refine (nestedAt levels) (more.length + 1) _ (.word w :: more))
      by_cases hw : w = "is".toList
      · obtain ⟨r, hr⟩ :=
          his hw (.item (before.foldl segmentExpr (rootExpr name)) (.const (.nat n)))
        subst hw
        rw [hr]
        exact leaves_error r
      · rw [refine_word _ _ _ hw]
        exact leaves_ok ⟨w, more, rfl, hw, .inr hdead⟩
    · exact leaves_error _
  -- A name that is left over is blocked by what stands behind it, unless it is `is`. Then it starts
  -- a test, which finds no name or takes the next reference as its argument.
  cases h with
  | @fraction x more =>
    obtain ⟨r, hr⟩ := accessed_fraction name before levels x more
    rw [refined, hr]
    exact leaves_error r
  | last => exact hleftover .closing fun _ e => ⟨.unexpected, rfl⟩
  | @inner n w more =>
    refine hleftover (.name ?_) ?_
    · obtain ⟨v, vs, hroot, hv⟩ := rootLexemes_head name
      exact ⟨v, _, by rw [hroot, List.append_assoc, List.cons_append], hv⟩
    · rintro rfl e
      have hlength (ls : List Lexeme) (l : Lexeme) : (l :: ls).length + 1 = ls.length + 2 := rfl
      rw [hlength]
      exact refine_inner _ e name before n more

theorem stops_misread (good : List Text)
    (h : IsMisread (rootLexemes name ++ dottedLexemes before) tail) (levels : Nat) :
    Stops (Expr.unconditional (nestedAt levels))
      (chainLexemes (rootLexemes name) good ++ Lexeme.keyword "and" ::
        (rootLexemes name ++ dottedLexemes before ++ .sign .dot :: tail)) := by
  have hstart : StartsOperand (rootLexemes name ++ dottedLexemes before ++ .sign .dot :: tail) :=
    ((startsOperand_root name).append _).append _
  have hrefined : Stops (refined (nestedAt levels))
      (rootLexemes name ++ dottedLexemes before ++ .sign .dot :: tail) :=
    ⟨fun _ ht => refined_deadEnd ht, refined_misread h⟩
  obtain ⟨hroot, hmem⟩ := readsNegation_references name good
  rw [chainLexemes_eq _ (rootExpr name)]
  exact (Stops.conjunction hroot hmem (hrefined.sum.comparison.negation hstart)).or

/-- The lexemes that a guarded lookup starts with, up to a misread segment and what follows it. -/
def misreadLexemes (name : Text) (good before : List Text) (tail : List Lexeme) : List Lexeme :=
  .sign .openParen :: .sign .openParen :: .sign .openParen ::
    (chainLexemes (rootLexemes name) good ++ Lexeme.keyword "and" ::
      (rootLexemes name ++ dottedLexemes before ++ .sign .dot :: tail))

theorem whole_misread (good : List Text)
    (h : IsMisread (rootLexemes name ++ dottedLexemes before) tail) (levels : Nat) :
    ∃ r, LexemeParser.whole (parser levels) (misreadLexemes name good before tail) =
      .error r := by
  have hstart : StartsOperand (chainLexemes (rootLexemes name) good ++ Lexeme.keyword "and" ::
      (rootLexemes name ++ dottedLexemes before ++ .sign .dot :: tail)) := by
    rw [chainLexemes_eq _ (rootExpr name)]
    exact ((startsOperand_root name).append _).append _
  have hone := Stops.parens hstart (stops_misread good h)
  have htwo := Stops.parens (startsOperand_parens _) hone
  exact whole_blocked (Stops.parens (startsOperand_parens _) htwo) levels

def Yields (p : List Lexeme → Prop) (r : Except Refusal (List Lexeme × Bool × Text)) : Prop :=
  ∀ ls more, r = .ok (ls, more) → p ls

theorem Yields.behind {p q : List Lexeme → Prop} {ms : List Lexeme}
    {r : Except Refusal (List Lexeme × Bool × Text)} (h : Yields p r)
    (hq : ∀ ls, p ls → q (ms ++ ls)) : Yields q (behind ms r) := by
  intro ls more hr
  cases r with
  | error e => cases hr
  | ok result =>
    cases hr
    exact hq _ (h _ _ rfl)

theorem yields_behind (ms : List Lexeme) (r : Except Refusal (List Lexeme × Bool × Text)) :
    Yields (fun ls => ∃ more, ls = ms ++ more) (Piece.behind ms r) := by
  have hall : Yields (fun _ => True) r := fun _ _ _ => trivial
  exact hall.behind fun ls _ => ⟨ls, rfl⟩

variable {c : Char} {s : Text} {m : Marker} {depth : Int}

theorem isWordRest_of_isDigit (hc : c.isDigit = true) : Lexeme.isWordRest c = true := by
  simp [Lexeme.isWordRest, Char.isAlphanum, hc]

theorem yields_misread {reference : List Lexeme} (hc : c.isDigit = true) (h : Misread c s)
    {rest : Text} (hb : IsBoundary rest)
    (hl : ∀ n w, (∀ rest, EndsWord rest → lexemes m.closing depth (c :: (s ++ rest)) =
        behind [.int n, .word w] (lexemes m.closing depth rest)) →
      Yields (fun ls => IsMisread reference (.int n :: .word w :: ls))
        (lexemes m.closing depth rest)) :
    Yields (IsMisread reference) (lexemes m.closing depth (c :: (s ++ rest))) := by
  have hrest := isWordRest_of_isDigit hc
  have hinner (rest : Text) := lexemes_inner m depth (s ++ rest) (isInner_of_isWordRest hrest)
    (isAsciiBlank_of_isWordRest hrest)
  cases h with
  | fraction hx =>
    rw [hinner rest]
    cases hr : Lexeme.read c (s ++ rest) with
    | error e => rintro _ _ ⟨⟩
    | ok result =>
      obtain ⟨x, hx⟩ := hx rest hb result.1 result.2 hr
      intro ls more hok
      obtain ⟨tail, rfl⟩ := yields_behind [result.1] _ ls more hok
      rw [hx]
      exact .fraction
  | leftover n w hw hread =>
    have hlexemes (rest : Text) (he : EndsWord rest) : lexemes m.closing depth (c :: (s ++ rest)) =
        behind [.int n, .word w] (lexemes m.closing depth rest) := by
      rw [hinner rest, hread rest he]
      change behind [.int n] (lexemes m.closing (depth + 0) (w ++ rest)) = _
      rw [Int.add_zero, read_name hw he, behind_behind]
      rfl
    rw [hlexemes rest hb.endsWord]
    exact (hl n w hlexemes).behind fun ls hls => hls

theorem lexemes_reference_dot (hne : name ≠ []) (hw : isWord name = true)
    (hs : ∀ w ∈ before, w ≠ [] ∧ isWord w = true) (hr : isReadable before = true)
    (hd : endsInDecimal before = false) (m : Marker) (depth : Int) (rest : Text) :
    lexemes m.closing depth (rootLookup name ++ dotted before ++ '.' :: rest) =
      behind (rootLexemes name ++ dottedLexemes before ++ [.sign .dot])
        (lexemes m.closing depth rest) := by
  rw [List.append_assoc, lexemes_root hne hw (endsWord_dotted before (endsWord_dot rest)),
    lexemes_dotted hs hr (.inr ⟨endsWord_dot rest, hd⟩), Spells.dot, behind_behind, behind_behind,
    List.append_assoc]

theorem yields_misread_last (reference : List Lexeme) (hc : c.isDigit = true) (h : Misread c s)
    (rest : Text) :
    Yields (IsMisread reference) (lexemes m.closing depth (c :: (s ++ ')' :: rest))) := by
  refine yields_misread hc h (isBoundary_cons rest (by decide)) fun n w _ => ?_
  obtain ⟨d, rfl⟩ : ∃ d, depth = d + 1 := ⟨depth - 1, by omega⟩
  rw [Spells.closeParen]
  intro ls more hok
  obtain ⟨tail, rfl⟩ := yields_behind _ _ ls more hok
  exact .last

theorem yields_misread_inner (hc : c.isDigit = true) (h : Misread c s) (hne : name ≠ [])
    (hw : isWord name = true) (hs : ∀ w ∈ before, w ≠ [] ∧ isWord w = true)
    (hr : isReadable before = true) (hd : endsInDecimal before = false) (rest : Text) :
    Yields (IsMisread (rootLexemes name ++ dottedLexemes before))
      (lexemes m.closing depth (c :: (s ++ ' ' :: ("and".toList ++ ' ' ::
        (rootLookup name ++ dotted before ++ '.' :: c :: (s ++ '.' :: rest)))))) := by
  refine yields_misread hc h (isBoundary_blank _) fun n w hlexemes => ?_
  have hand : IsName "and".toList := by decide
  rw [lexemes_blank, read_name hand (isBoundary_blank _).endsWord, lexemes_blank,
    lexemes_reference_dot hne hw hs hr hd, hlexemes _ (endsWord_dot rest), Spells.dot,
    behind_behind, behind_behind, behind_behind]
  intro ls more hok
  obtain ⟨tail, rfl⟩ := yields_behind _ _ ls more hok
  have htail : IsMisread (rootLexemes name ++ dottedLexemes before) (.int n :: .word w ::
    Lexeme.keyword "and" :: (rootLexemes name ++ dottedLexemes before ++
      .sign .dot :: .int n :: .word w :: .sign .dot :: tail)) := .inner
  simpa [Lexeme.keyword] using htail

theorem join_chain_append (reference : Text) (good : List Text) (segment : Text)
    (rest : List Text) :
    Text.join " and ".toList (chain reference (good ++ segment :: rest)) =
      Text.join " and ".toList (chain reference good) ++ ' ' :: ("and".toList ++ ' ' ::
        Text.join " and ".toList
          (chain (reference ++ dotted good ++ '.' :: segment) rest)) := by
  induction good generalizing reference with
  | nil =>
    rw [List.nil_append, join_chain_cons, dotted, List.flatMap_nil, List.append_nil]
    rfl
  | cons next good ih =>
    have htext : reference ++ '.' :: next ++ dotted good = reference ++ dotted (next :: good) := by
      simp [dotted]
    rw [List.cons_append, join_chain_cons, ih, htext, join_chain_cons]
    simp

theorem exists_join_chain (reference : Text) (rest : List Text) :
    ∃ more, Text.join " and ".toList (chain reference rest) = reference ++ more := by
  cases rest with
  | nil => exact ⟨[], (List.append_nil _).symm⟩
  | cons segment rest => exact ⟨_, join_chain_cons reference segment rest⟩

theorem exists_guardedSegments (root : Text) {segments : List Text} (h : segments ≠ []) :
    ∃ more, guardedSegments root segments =
      '(' :: '(' :: '(' :: (Text.join " and ".toList (chain root segments) ++ ')' :: more) := by
  refine ⟨" or \"\")".toList ++ " if ".toList ++ root ++ " is defined else \"\")".toList, ?_⟩
  rw [guardedSegments]
  · simp [ifDefined]
  · exact h

theorem yields_references (hc : c.isDigit = true) (h : Misread c s) (hne : name ≠ [])
    (hw : isWord name = true) (hs : ∀ w ∈ before, w ≠ [] ∧ isWord w = true)
    (hr : isReadable before = true) (hd : endsInDecimal before = false) (after : List Text)
    (rest : Text) :
    Yields
      (fun ls => ∃ tail, IsMisread (rootLexemes name ++ dottedLexemes before) tail ∧
        ls = rootLexemes name ++ dottedLexemes before ++ .sign .dot :: tail)
      (lexemes m.closing depth (Text.join " and ".toList
        (chain (rootLookup name ++ dotted before ++ '.' :: c :: s) after) ++ ')' :: rest)) := by
  have hsegment : ∃ more, Text.join " and ".toList
        (chain (rootLookup name ++ dotted before ++ '.' :: c :: s) after) ++ ')' :: rest =
      rootLookup name ++ dotted before ++ '.' :: c :: (s ++ more) ∧
        Yields (IsMisread (rootLexemes name ++ dottedLexemes before))
          (lexemes m.closing depth (c :: (s ++ more))) := by
    cases after with
    | nil => exact ⟨_, by simp [chain, Text.join], yields_misread_last _ hc h rest⟩
    | cons segment after =>
      obtain ⟨more, hmore⟩ := exists_join_chain
        (rootLookup name ++ dotted before ++ '.' :: c :: s ++ '.' :: segment) after
      refine ⟨_, ?_, yields_misread_inner hc h hne hw hs hr hd (segment ++ more ++ ')' :: rest)⟩
      rw [join_chain_cons, hmore]
      simp
  obtain ⟨more, htext, hmisread⟩ := hsegment
  rw [htext, lexemes_reference_dot hne hw hs hr hd]
  refine hmisread.behind fun tail htail => ⟨tail, htail, ?_⟩
  rw [List.append_assoc]
  rfl

theorem exists_yields_lookup {segments : List Text} (hne : name ≠ []) (hw : isWord name = true)
    (hs : ∀ w ∈ segments, w ≠ [] ∧ isWord w = true) (h : isReadable segments = false)
    (m : Marker) (depth : Int) (rest : Text) :
    ∃ good before, Yields
      (fun ls => ∃ tail, IsMisread (rootLexemes name ++ dottedLexemes before) tail ∧
        ls = misreadLexemes name good before tail)
      (lexemes m.closing depth (guardedSegments (rootLookup name) segments ++ rest)) := by
  obtain ⟨before, bad, after, c, s, rfl, hbad, hc, hm, hread, hd⟩ := exists_misread hs h
  have hbadne : bad ≠ [] := by
    rintro rfl
    cases hbad
  -- The references before the last of the misread segments are read as they are written.
  obtain ⟨good, last, hgood, hlast⟩ : ∃ good last, bad.dropLast = good ∧ bad = good ++ [last] :=
    ⟨_, bad.getLast hbadne, rfl, (List.dropLast_concat_getLast hbadne).symm⟩
  rw [hgood] at hread
  subst hlast
  refine ⟨before ++ good, before, ?_⟩
  have hsplit : before ++ (good ++ [last]) ++ after = (before ++ good) ++ last :: after := by simp
  have hbefore : ∀ w ∈ before, w ≠ [] ∧ isWord w = true := fun w hm => hs w (by simp [hm])
  have hgoods : ∀ w ∈ before ++ good, w ≠ [] ∧ isWord w = true := by
    intro w hm
    refine hs w ?_
    rw [hsplit]
    exact List.mem_append_left _ hm
  have hreference : rootLookup name ++ dotted (before ++ good) ++ '.' :: last =
      rootLookup name ++ dotted before ++ '.' :: c :: s := by
    rw [← hbad]
    simp [dotted]
  have hspells := @spells_chain name [] (before ++ good) hne hw (by simpa using hgoods)
    (by simpa using hread)
  simp only [dotted, dottedLexemes, List.flatMap_nil, List.append_nil] at hspells
  have hand : IsName "and".toList := by decide
  obtain ⟨more, hmore⟩ := @exists_guardedSegments (rootLookup name)
    (before ++ (good ++ [last]) ++ after) (by simp)
  have hreferences := @yields_references name before c s m (depth + 1 + 1 + 1) hc hm hne hw hbefore
    (isReadable_append_left hread) hd after (more ++ rest)
  have htext : guardedSegments (rootLookup name) (before ++ (good ++ [last]) ++ after) ++ rest =
      '(' :: '(' :: '(' :: (Text.join " and ".toList (chain (rootLookup name) (before ++ good)) ++
        ' ' :: ("and".toList ++ ' ' :: (Text.join " and ".toList
          (chain (rootLookup name ++ dotted before ++ '.' :: c :: s) after) ++
            ')' :: (more ++ rest)))) := by
    rw [hmore, hsplit, join_chain_append, hreference]
    simp
  rw [htext, Spells.openParen, Spells.openParen, Spells.openParen,
    hspells m _ _ (isBoundary_blank _), lexemes_blank,
    read_name hand (isBoundary_blank _).endsWord, lexemes_blank, behind_behind, behind_behind,
    behind_behind, behind_behind]
  refine hreferences.behind ?_
  rintro _ ⟨tail, htail, rfl⟩
  refine ⟨tail, htail, ?_⟩
  simp [misreadLexemes, Lexeme.keyword]

/-- The script of a lookup whose segments are not readable is refused. -/
theorem readAll_lookup_error {segments : List Text} (hne : name ≠ []) (hw : isWord name = true)
    (hs : ∀ w ∈ segments, w ≠ [] ∧ isWord w = true) (h : isReadable segments = false)
    (limit : Nat) (keep : Bool) :
    ∃ r, Stmt.readAll limit keep
      (Source.printed (guardedSegments (rootLookup name) segments)) = .error r := by
  obtain ⟨good, before, hyields⟩ :=
    exists_yields_lookup hne hw hs h .printed 0 [' ', '}', '}']
  rw [Stmt.readAll, Stmt.dropLineEnd_printed, ite_self]
  obtain ⟨r, hr⟩ | ⟨ls, more, ps, hl, hps⟩ :=
    readAll_printed (guardedSegments (rootLookup name) segments)
  · rw [hr]
    exact ⟨r, rfl⟩
  · obtain ⟨tail, hmisread, rfl⟩ := hyields ls more hl
    obtain ⟨r, hr⟩ := whole_misread good hmisread limit
    rw [hps]
    refine ⟨r, ?_⟩
    change ((Except.bind (LexemeParser.whole (parser limit) _) _).bind _).bind _ = _
    rw [hr]
    rfl

end Path

end Curly

import Curly.Proofs.Section.Outline

namespace Curly

open Script

namespace Script

def Stmt.ofText (s : Text) : List Stmt := if s = [] then [] else [.text s]

def Stmt.ofBody (body : Text) : List Stmt :=
  if Text.includes body "endraw".toList then
    [.print (.filter (.const (.plain body)) "safe".toList [])]
  else ofText body

namespace Builder

variable {limit need : Nat}

theorem pushText_eq (b : Builder) (s : Text) : b.pushText s = b.pushAll (Stmt.ofText s) := by
  unfold pushText Stmt.ofText
  split <;> rfl

/-- A block takes two levels besides those of its guard, so one level is left to its body. -/
theorem within_block {α β γ : Type} {need' levels : Nat} {a : α} {b : β}
    {f : α → Except Refusal γ} {g : β → Except Refusal γ}
    (h : f a = (within need' (levels - 1) b).bind g) :
    (within (need + 2) levels a).bind f =
      (within (max (need + 2) (need' + 1)) levels b).bind g := by
  cases levels with
  | zero =>
    simp only [within]
    rw [if_neg (by omega), if_neg (by omega)]
    rfl
  | succ levels =>
    rw [Nat.add_sub_cancel, ← within_succ] at h
    exact within_bind_bind h

theorem addAll_printed {ls : List Lexeme} {e : Expr} (h : Expr.ReadsExpr need ls e)
    (before : Text) (b : Builder) (ps : List Piece) :
    addAll limit b (Piece.addText before (.printed ls :: ps)) =
      (within need (limit - b.frames.length)
        (b.pushAll (Stmt.ofText before ++ [.print e]))).bind fun b => addAll limit b ps := by
  rw [addAll_addText, addAll_cons, add_printed h, frames_pushText, pushText_eq, pushAll_append]
  rfl

theorem addAll_opening {ls : List Lexeme} {e : Expr} (h : Expr.ReadsUnconditional need ls e)
    (before : Text) (b : Builder) (ps : List Piece) :
    addAll limit b (Piece.addText before (.statement (Lexeme.keyword "if" :: ls) :: ps)) =
      (within (need + 2) (limit - b.frames.length)
        ((b.pushAll (Stmt.ofText before)).openBlock (.cond [] e))).bind
          fun b => addAll limit b ps := by
  rw [addAll_addText, addAll_cons, add_if h, frames_pushText, pushText_eq]

theorem addAll_ending (last : Text) (b : Builder) (e : Expr) (ss : List Stmt)
    (ps : List Piece) :
    addAll limit ((b.openBlock (.cond [] e)).pushAll ss)
        (Piece.addText last (.statement [Lexeme.keyword "endif"] :: ps)) =
      addAll limit (b.push (.cond e (ss ++ Stmt.ofText last) [])) ps := by
  rw [addAll_addText, addAll_cons, add_endif, pushText_eq, ← pushAll_append]
  generalize ss ++ Stmt.ofText last = body
  have hclose : ((b.openBlock (.cond [] e)).pushAll body).closeBlock "endif".toList =
      .ok (b.push (.cond e (body.reverse ++ []).reverse [])) := by
    change closeBlock ⟨⟨.cond [] e, none, b.recent⟩ :: b.frames, body.reverse ++ []⟩ _ = _
    rw [closeBlock]
    exact if_pos rfl
  rw [List.append_nil, List.reverse_reverse] at hclose
  rw [hclose]
  rfl

end Builder

end Script

namespace Outline

def textStatements (before s : Text) : List Stmt × Text :=
  if '{' ∈ s then
    (Stmt.ofText before ++ Stmt.ofBody (Fragment.shielded s),
      s.drop (Fragment.shielded s).length)
  else ([], before ++ s)

/-- The statements of an outline behind a text, and the text that is left behind them. -/
def statements : (opened : List (Text × Bool)) → (before : Text) → Outline → List Stmt × Text
  | _, before, done => ([], before)
  | opened, before, text s rest =>
    let first := textStatements before s
    let more := statements opened first.2 rest
    (first.1 ++ more.1, more.2)
  | opened, before, here verbatim rest =>
    let e := Path.printedExpr verbatim (Path.rootExpr (Action.context opened))
    let more := statements opened [] rest
    (Stmt.ofText before ++ .print e :: more.1, more.2)
  | opened, before, lookup name segments verbatim rest =>
    let e := Path.printedExpr verbatim (Path.guardedExpr name segments)
    let more := statements opened [] rest
    (Stmt.ofText before ++ .print e :: more.1, more.2)
  | opened, before, block name inverted body rest =>
    let e := Fragment.guardExpr (Action.guardName opened name) inverted
    let inner := statements ((name, inverted) :: opened) [] body
    let more := statements opened [] rest
    (Stmt.ofText before ++ .cond e (inner.1 ++ Stmt.ofText inner.2) [] :: more.1, more.2)

variable {limit : Nat}

open Fragment Builder in
theorem addAll_text (b : Builder) (before s : Text) (fs : List Fragment) :
    addAll limit b (pieces before (ofText s ++ fs)) =
      (within (textLevels s) (limit - b.frames.length)
        (b.pushAll (textStatements before s).1)).bind
          fun b => addAll limit b (pieces (textStatements before s).2 fs) := by
  unfold textLevels textStatements ofText
  by_cases hb : '{' ∈ s
  · by_cases hi : Text.includes (shielded s) "endraw".toList = true
    · simp only [hb, hi, and_self, if_true, ofBody, Stmt.ofBody, List.cons_append,
        List.nil_append, pieces]
      exact addAll_printed (readsExpr_body _) before b _
    · simp only [hb, hi, and_false, if_true, if_false, Bool.false_eq_true, ofBody, Stmt.ofBody,
        List.cons_append, List.nil_append, pieces, within_zero, addAll_addText, pushText_eq,
        pushAll_append]
      rfl
  · simp only [hb, false_and, if_false, List.cons_append, List.nil_append, pieces,
      within_zero, pushAll_nil]
    rfl

open Fragment Builder in
theorem addAll_fragments (o : Outline) (opened : List (Text × Bool)) (b : Builder) (before : Text)
    (fs : List Fragment) :
    addAll limit b (pieces before (o.fragments opened ++ fs)) =
      (within (o.levels opened) (limit - b.frames.length)
        (b.pushAll (o.statements opened before).1)).bind
          fun b => addAll limit b (pieces (o.statements opened before).2 fs) := by
  induction o generalizing opened b before fs with
  | done =>
    rw [levels, within_zero]
    rfl
  | text s rest ih =>
    rw [fragments, List.append_assoc, addAll_text, levels]
    refine within_bind_bind ?_
    rw [ih, frames_pushAll, ← pushAll_append]
    rfl
  | here verbatim rest ih =>
    rw [fragments, List.cons_append, levels]
    refine (addAll_printed (readsExpr_here _ verbatim) before b _).trans (within_bind_bind ?_)
    rw [ih, frames_pushAll, ← pushAll_append, List.append_assoc]
    rfl
  | lookup name segments verbatim rest ih =>
    rw [fragments, List.cons_append, levels]
    refine (addAll_printed (readsExpr_lookup name segments verbatim) before b _).trans
      (within_bind_bind ?_)
    rw [ih, frames_pushAll, ← pushAll_append, List.append_assoc]
    rfl
  | block name inverted body rest ihb ihr =>
    rw [fragments, List.cons_append, List.append_assoc, List.cons_append, levels]
    refine (addAll_opening (readsUnconditional_guard _ inverted) before b _).trans ?_
    -- The body is built on top of the frame that its section has opened.
    have hbody := ihb ((name, inverted) :: opened)
      ((b.pushAll (Stmt.ofText before)).openBlock
        (.cond [] (guardExpr (Action.guardName opened name) inverted)))
      [] (.ending :: (rest.fragments opened ++ fs))
    refine (within_block (f := fun b => addAll limit b (pieces [] _)) hbody).trans
      (within_bind_bind ?_)
    refine (addAll_ending ..).trans ?_
    rw [ihr, frames_push, frames_pushAll, ← pushAll_cons, ← pushAll_append]
    rfl

end Outline

end Curly

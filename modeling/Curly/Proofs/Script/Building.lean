import Curly.Proofs.Script.Fragment
import Curly.Proofs.Script.Parsing
import Curly.Script.Stmt

namespace Curly.Script

namespace Builder

open Piece Curly.Script.Expr

def addAll (limit : Nat) (b : Builder) (ps : List Piece) : Except Refusal Builder :=
  ps.foldlM (Builder.add limit) b

def pushText (b : Builder) (s : Text) : Builder := if s = [] then b else b.push (.text s)

def pushAll (b : Builder) (ss : List Stmt) : Builder := { b with recent := ss.reverse ++ b.recent }

variable {limit need : Nat} {b : Builder} {ls : List Lexeme} {e : Expr}

theorem addAll_nil (limit : Nat) (b : Builder) : addAll limit b [] = .ok b := rfl

theorem addAll_cons (limit : Nat) (b : Builder) (p : Piece) (ps : List Piece) :
    addAll limit b (p :: ps) = (b.add limit p).bind fun b => addAll limit b ps := rfl

theorem addAll_singleton (limit : Nat) (b : Builder) (p : Piece) :
    addAll limit b [p] = b.add limit p := by
  rw [addAll_cons]
  cases b.add limit p <;> rfl

theorem addAll_append (limit : Nat) (b : Builder) (ps qs : List Piece) :
    addAll limit b (ps ++ qs) = (addAll limit b ps).bind fun b => addAll limit b qs :=
  List.foldlM_append

theorem addAll_addText (limit : Nat) (b : Builder) (s : Text) (ps : List Piece) :
    addAll limit b (addText s ps) = addAll limit (b.pushText s) ps := by
  by_cases hs : s = []
  · simp [addText, pushText, hs]
  · simp only [addText, pushText, if_neg hs, addAll_cons]
    rfl

@[simp] theorem frames_push (b : Builder) (s : Stmt) : (b.push s).frames = b.frames := rfl

@[simp] theorem frames_pushText (b : Builder) (s : Text) : (b.pushText s).frames = b.frames := by
  unfold pushText
  split <;> rfl

@[simp] theorem frames_openBlock (b : Builder) (head : Head) :
    (b.openBlock head).frames = ⟨head, none, b.recent⟩ :: b.frames := rfl

@[simp] theorem pushAll_nil (b : Builder) : b.pushAll [] = b := rfl

@[simp] theorem frames_pushAll (b : Builder) (ss : List Stmt) : (b.pushAll ss).frames = b.frames :=
  rfl

theorem pushAll_append (b : Builder) (ss ts : List Stmt) :
    b.pushAll (ss ++ ts) = (b.pushAll ss).pushAll ts := by
  simp [pushAll, List.append_assoc]

theorem pushAll_cons (b : Builder) (s : Stmt) (ss : List Stmt) :
    b.pushAll (s :: ss) = (b.push s).pushAll ss := by
  rw [← List.singleton_append, pushAll_append]
  rfl

theorem add_printed (h : ReadsExpr need ls e) :
    b.add limit (.printed ls) =
      within need (limit - b.frames.length) (b.push (.print e)) := by
  rw [add, h.whole]
  exact within_bind_ok rfl

/-- A conditional takes a level itself, and one more for its guard. -/
theorem add_if (h : ReadsUnconditional need ls e) :
    b.add limit (.statement (Lexeme.keyword "if" :: ls)) =
      within (need + 2) (limit - b.frames.length) (b.openBlock (.cond [] e)) := by
  have hc : isContinuation "if".toList = false := by decide
  rw [add, hc]
  simp only [Bool.false_eq_true, if_false]
  by_cases hl : limit ≤ b.frames.length
  · have hz : limit - b.frames.length = 0 := by omega
    rw [if_pos hl, hz, within, if_neg (by omega)]
  · obtain ⟨m, hm⟩ : ∃ m, limit - b.frames.length = m + 1 := ⟨limit - b.frames.length - 1, by omega⟩
    rw [if_neg hl, hm, Nat.add_sub_cancel, addStatement, if_pos rfl, h.whole, within_succ]
    exact within_bind_ok rfl

theorem add_ending {word : Text} (hw : isContinuation word = true) (hi : word ≠ "elif".toList)
    (he : word ≠ "else".toList) : b.add limit (.statement [.word word]) = b.closeBlock word := by
  rw [add, if_pos hw, continueBlock, if_neg hi, if_neg (by simp), if_neg he]

theorem add_endif : b.add limit (.statement [Lexeme.keyword "endif"]) =
    b.closeBlock "endif".toList := add_ending (by decide) (by decide) (by decide)

/-- Whether all open blocks are ended by one word. -/
def ClosesWith (b : Builder) (word : Text) : Prop := ∀ f ∈ b.frames, f.head.closing = word

theorem ClosesWith.openBlock {word : Text} (h : b.ClosesWith word) {head : Head}
    (hw : head.closing = word) : (b.openBlock head).ClosesWith word := by
  intro f hf
  obtain rfl | hf := List.mem_cons.mp hf
  · exact hw
  · exact h f hf

theorem closesWith_empty (word : Text) : ({} : Builder).ClosesWith word := nofun

theorem ClosesWith.closeBlock {word : Text} (h : b.ClosesWith word) :
    (b.frames.length = 0 ∧ ∃ r, b.closeBlock word = .error r) ∨
      ∃ b', b.closeBlock word = .ok b' ∧ b'.ClosesWith word ∧
        b.frames.length = b'.frames.length + 1 := by
  obtain ⟨frames, recent⟩ := b
  cases frames with
  | nil => exact .inl ⟨rfl, _, rfl⟩
  | cons f frames =>
    obtain ⟨head, main, before⟩ := f
    have hhead : head.closing = word := h _ (List.mem_cons_self ..)
    obtain ⟨stmt, hclose⟩ :
        ∃ stmt, Builder.closeBlock ⟨⟨head, main, before⟩ :: frames, recent⟩ word =
          .ok ⟨frames, stmt :: before⟩ := by
      rw [Builder.closeBlock]
      exact ⟨_, if_pos hhead.symm⟩
    exact .inr ⟨_, hclose, fun f hf => h f (List.mem_cons_of_mem _ hf), rfl⟩

end Builder

theorem Stmt.dropLineEnd_eq_self {s : Text} (hn : s.getLast? ≠ some '\n')
    (hr : s.getLast? ≠ some '\r') : Stmt.dropLineEnd s = s := by
  simp [Stmt.dropLineEnd, Text.dropReturn, hn, hr]

theorem Stmt.dropLineEnd_printed (s : Text) :
    Stmt.dropLineEnd (Source.printed s) = Source.printed s := by
  have hlast := Source.getLast?_printed s
  exact dropLineEnd_eq_self (by rw [hlast]; decide) (by rw [hlast]; decide)

theorem Stmt.readAll_of_printed {s : Text} {ls : List Lexeme} {need : Nat} {e : Expr}
    (hr : (Fragment.printed s ls).IsRead) (he : Expr.ReadsExpr need ls e)
    (hn : need ≤ Stmt.maxDepth) (keep : Bool) :
    Stmt.readAll Stmt.maxDepth keep (Source.printed s) = .ok [.print e] := by
  have hread : Piece.readAll (Source.printed s) = .ok [.printed ls] := by
    have h := @Fragment.readAll_sources [.printed s ls] (by simpa using hr)
    rwa [Fragment.sources, List.flatMap_cons, List.flatMap_nil, List.append_nil] at h
  have hadd := @Builder.add_printed Stmt.maxDepth _ {} _ _ he
  have hframes : ({} : Builder).frames.length = 0 := rfl
  rw [hframes, Nat.sub_zero, within, if_pos hn] at hadd
  rw [Stmt.readAll, Stmt.dropLineEnd_printed, ite_self, hread]
  change ((Builder.add _ _ _).bind _).bind _ = _
  rw [hadd]
  rfl

namespace Fragment

open Curly.Script.Expr

def turn? : Fragment → Option Bool
  | statement _ ls => some (ls.head? = some (Lexeme.keyword "if"))
  | _ => none

def turns (fs : List Fragment) : List Bool := fs.filterMap turn?

theorem turns_cons (f : Fragment) (fs : List Fragment) :
    turns (f :: fs) = f.turn?.toList ++ turns fs := by
  cases h : f.turn? <;> simp [turns, h]

@[simp] theorem turns_plain (s : Text) (fs : List Fragment) :
    turns (plain s :: fs) = turns fs := rfl

@[simp] theorem turns_raw (body : Text) (fs : List Fragment) : turns (raw body :: fs) = turns fs :=
  rfl

@[simp] theorem turns_printed (s : Text) (ls : List Lexeme) (fs : List Fragment) :
    turns (printed s ls :: fs) = turns fs := rfl

theorem turns_opening (s : Text) (ls : List Lexeme) (fs : List Fragment) :
    turns (statement s (Lexeme.keyword "if" :: ls) :: fs) = true :: turns fs := by
  simp [turns, turn?]

theorem turns_closing (s : Text) (fs : List Fragment) :
    turns (statement s [Lexeme.keyword "endif"] :: fs) = false :: turns fs := by
  have h : turn? (statement s [Lexeme.keyword "endif"]) = some false := by
    rw [turn?]
    decide
  rw [turns_cons, h]
  rfl

def follow : Nat → List Bool → Option Nat
  | n, [] => some n
  | n, true :: ts => follow (n + 1) ts
  | 0, false :: _ => none
  | n + 1, false :: ts => follow n ts

def textLevels (s : Text) : Nat :=
  if '{' ∈ s ∧ Text.includes (shielded s) "endraw".toList then 2 else 0

theorem readsExpr_body (body : Text) :
    ReadsExpr 2 [.text body, .sign .pipe, .word "safe".toList]
      (.filter (.const (.plain body)) "safe".toList []) :=
  ((readsAccessed_text body).filtered (startsOperand_text body []) _).negation.unconditional.expr

def mostLevels : Nat := 11

/-- Fragments whose expressions are read, and whose only blocks are conditionals. -/
inductive IsSimple : Fragment → Prop
  | plain {s : Text} : IsSimple (plain s)
  | raw {body : Text} : IsSimple (raw body)
  | printed {s : Text} {ls : List Lexeme} {e : Expr} {need : Nat} :
      ReadsExpr need ls e → need ≤ mostLevels → IsSimple (printed s ls)
  | opening {s : Text} {ls : List Lexeme} {e : Expr} {need : Nat} :
      ReadsUnconditional need ls e → need + 2 ≤ mostLevels →
        IsSimple (statement s (Lexeme.keyword "if" :: ls))
  | closing {s : Text} : IsSimple (statement s [Lexeme.keyword "endif"])

/-- Simple fragments are refused only for a block that is ended and not open. -/
theorem addAll_pieces {limit : Nat} {fs : List Fragment} (hf : ∀ f ∈ fs, f.IsSimple)
    (before : Text) {b : Builder} (hb : b.ClosesWith "endif".toList)
    (hl : b.frames.length + (turns fs).length + mostLevels ≤ limit) :
    match follow b.frames.length (turns fs) with
    | some n => ∃ b', Builder.addAll limit b (pieces before fs) = .ok b' ∧ b'.frames.length = n
    | none => ∃ r, Builder.addAll limit b (pieces before fs) = .error r := by
  -- All open blocks are conditionals, so any of them is ended by the same word.
  induction fs generalizing before b with
  | nil =>
    refine ⟨b.pushText before, ?_, by simp⟩
    rw [pieces, Builder.addAll_addText, Builder.addAll_nil]
  | cons f fs ih =>
    have ih := @ih fun g hg => hf g (List.mem_cons_of_mem _ hg)
    have hbefore : (b.pushText before).ClosesWith "endif".toList := by
      rwa [Builder.ClosesWith, Builder.frames_pushText]
    cases hf f (List.mem_cons_self ..) with
    | plain => exact ih _ hb hl
    | @raw body =>
      have h := ih [] (b := (b.pushText before).pushText body)
        (by rwa [Builder.ClosesWith, Builder.frames_pushText]) (by simpa using hl)
      simp only [Builder.frames_pushText] at h
      rw [pieces, Builder.addAll_addText, Builder.addAll_addText]
      exact h
    | @printed s ls e need he hn =>
      have hadd : (b.pushText before).add limit (.printed ls) = _ := Builder.add_printed he
      rw [Builder.frames_pushText, within, if_pos (by omega)] at hadd
      have h := ih [] (b := (b.pushText before).push (.print e)) hbefore (by simpa using hl)
      simp only [Builder.frames_push, Builder.frames_pushText] at h
      rw [pieces, Builder.addAll_addText, Builder.addAll_cons, hadd]
      exact h
    | @opening s ls e need he hn =>
      rw [turns_opening, List.length_cons] at hl
      have hadd : (b.pushText before).add limit
          (.statement (Lexeme.keyword "if" :: ls)) = _ := Builder.add_if he
      rw [Builder.frames_pushText, within, if_pos (by omega)] at hadd
      have hopened : ((b.pushText before).openBlock (.cond [] e)).ClosesWith "endif".toList :=
        hbefore.openBlock rfl
      have h := ih [] hopened (by simp; omega)
      rw [Builder.frames_openBlock, List.length_cons, Builder.frames_pushText] at h
      rw [turns_opening, follow, pieces, Builder.addAll_addText, Builder.addAll_cons, hadd]
      exact h
    | closing =>
      rw [turns_closing, List.length_cons, ← Builder.frames_pushText b before] at hl
      rw [turns_closing, pieces, Builder.addAll_addText, Builder.addAll_cons, Builder.add_endif,
        ← Builder.frames_pushText b before]
      obtain ⟨hlen, r, hclose⟩ | ⟨b', hclose, hb', hlen⟩ := hbefore.closeBlock
      · rw [hlen, hclose]
        exact ⟨r, rfl⟩
      · rw [hlen, hclose]
        exact ih [] hb' (by omega)

theorem source_getLast? {f : Fragment} {c : Char} (h : f.source.getLast? = some c) (hc : c ≠ '}') :
    ∃ s, f = plain s := by
  cases f with
  | plain s => exact ⟨s, rfl⟩
  | raw body | printed s ls | statement s ls =>
    simp only [source, Source.statement, Source.printed, List.getLast?_append,
      List.getLast?_cons, List.getLast?_nil] at h
    exact absurd (Option.some.inj h).symm hc

/-- Whether fragments differ from others only by plain text without braces. -/
def Resembles (fs gs : List Fragment) : Prop :=
  turns fs = turns gs ∧ ∀ f ∈ fs, f ∈ gs ∨ ∃ s, '{' ∉ s ∧ f = plain s

theorem Resembles.refl (fs : List Fragment) : Resembles fs fs := ⟨rfl, fun _ h => .inl h⟩

theorem Resembles.trans {fs gs hs : List Fragment} (h : Resembles fs gs) (h' : Resembles gs hs) :
    Resembles fs hs := by
  refine ⟨h.1.trans h'.1, fun f hf => ?_⟩
  obtain hg | hp := h.2 f hf
  · exact h'.2 f hg
  · exact .inr hp

theorem exists_dropLast {fs : List Fragment} (hf : ∀ f ∈ fs, f.IsRead) {c : Char} (hc : c ≠ '}')
    (hl : (sources fs).getLast? = some c) :
    ∃ gs, sources gs = (sources fs).dropLast ∧ Resembles gs fs := by
  induction fs with
  | nil => simp [sources] at hl
  | cons f fs ih =>
    have hsources : sources (f :: fs) = f.source ++ sources fs := List.flatMap_cons
    rw [hsources] at hl ⊢
    by_cases hs : sources fs = []
    · rw [hs, List.append_nil] at hl ⊢
      obtain ⟨s, rfl⟩ := source_getLast? hl hc
      refine ⟨plain s.dropLast :: fs, ?_, rfl, ?_⟩
      · rw [sources, List.flatMap_cons, ← sources, hs, List.append_nil]
        rfl
      · intro g hg
        obtain rfl | hg := List.mem_cons.mp hg
        · cases hf _ (List.mem_cons_self ..) with
          | plain hb => exact .inr ⟨_, fun hm => hb ((List.dropLast_sublist _).mem hm), rfl⟩
        · exact .inl (List.mem_cons_of_mem _ hg)
    · have hl' : (sources fs).getLast? = some c := by
        rw [List.getLast?_append, List.getLast?_eq_some_getLast hs, Option.some_or] at hl
        rw [List.getLast?_eq_some_getLast hs, hl]
      obtain ⟨gs, hgs, ht, hm⟩ := ih (fun g hg => hf g (List.mem_cons_of_mem _ hg)) hl'
      refine ⟨f :: gs, ?_, ?_, ?_⟩
      · rw [List.dropLast_append_of_ne_nil hs, ← hgs]
        exact List.flatMap_cons
      · rw [turns_cons, turns_cons, ht]
      · intro g hg
        obtain rfl | hg := List.mem_cons.mp hg
        · exact .inl (List.mem_cons_self ..)
        · exact (hm g hg).imp (List.mem_cons_of_mem _) id

/-- A script of fragments without its last line ending is a script of fragments, too. -/
theorem exists_dropLineEnd {fs : List Fragment} (hf : ∀ f ∈ fs, f.IsRead) :
    ∃ gs, sources gs = Stmt.dropLineEnd (sources fs) ∧ Resembles gs fs := by
  have hfeed : ∃ gs, sources gs = (if (sources fs).getLast? = some '\n' then (sources fs).dropLast
      else sources fs) ∧ Resembles gs fs := by
    split
    · next h => exact exists_dropLast hf (by decide) h
    · exact ⟨fs, rfl, .refl fs⟩
  obtain ⟨gs, hs, hr⟩ := hfeed
  rw [Stmt.dropLineEnd, ← hs, Text.dropReturn]
  split
  · next h =>
    have hg : ∀ g ∈ gs, g.IsRead := by
      intro g hg
      obtain hm | ⟨s, hb, rfl⟩ := hr.2 g hg
      · exact hf g hm
      · exact .plain hb
    obtain ⟨gs', hs', hr'⟩ := exists_dropLast hg (by decide) h
    exact ⟨gs', hs', hr'.trans hr⟩
  · exact ⟨gs, rfl, hr⟩

/-- A script of simple fragments is refused exactly when its blocks do not match, as long as the
limit on levels is out of reach. -/
theorem readAll_iff {limit : Nat} {fs : List Fragment} (hr : ∀ f ∈ fs, f.IsRead)
    (hs : ∀ f ∈ fs, f.IsSimple) (hl : (turns fs).length + mostLevels ≤ limit) (keep : Bool) :
    (∃ statements, Stmt.readAll limit keep (sources fs) = .ok statements) ↔
      follow 0 (turns fs) = some 0 := by
  -- The script that is read may lack a line ending, so it may have other fragments.
  obtain ⟨gs, hsources, hturns, hmem⟩ : ∃ gs, sources gs =
      (if keep then sources fs else Stmt.dropLineEnd (sources fs)) ∧ Resembles gs fs := by
    cases keep with
    | true => exact ⟨fs, rfl, .refl fs⟩
    | false => exact exists_dropLineEnd hr
  have hread : ∀ g ∈ gs, g.IsRead := by
    intro g hg
    obtain hm | ⟨s, hb, rfl⟩ := hmem g hg
    · exact hr g hm
    · exact .plain hb
  have hsimple : ∀ g ∈ gs, g.IsSimple := by
    intro g hg
    obtain hm | ⟨s, hb, rfl⟩ := hmem g hg
    · exact hs g hm
    · exact .plain
  have hadd := addAll_pieces hsimple [] (Builder.closesWith_empty _) (by simpa [hturns] using hl)
  rw [Stmt.readAll, ← hsources, readAll_sources hread]
  change (∃ statements, (Builder.addAll limit {} (pieces [] gs)).bind Builder.finish =
    .ok statements) ↔ _
  rw [hturns] at hadd
  change match follow 0 (turns fs) with | some n => _ | none => _ at hadd
  cases hf : follow 0 (turns fs) with
  | none =>
    rw [hf] at hadd
    obtain ⟨r, hadd⟩ := hadd
    simp [hadd, Except.bind]
  | some n =>
    rw [hf] at hadd
    obtain ⟨b, hadd, hn⟩ := hadd
    rw [hadd]
    simp only [Except.bind, Builder.finish, Option.some.injEq]
    cases hb : b.frames with
    | nil => simp [← hn, hb]
    | cons frame frames => simp [← hn, hb]

end Fragment

end Curly.Script

import Curly.Proofs.Script.Atoms
import Curly.Proofs.Script.Building
import Curly.Script.Eval
import Mathlib.Data.List.Forall2

namespace Curly.Script

/-- Outcomes with the same refusal, or with related values. -/
inductive Agree {α β : Type} (r : α → β → Prop) : Except Refusal α → Except Refusal β → Prop
  | ok {a : α} {b : β} : r a b → Agree r (.ok a) (.ok b)
  | error (e : Refusal) : Agree r (.error e) (.error e)

namespace Agree

variable {α β γ δ : Type} {r : α → β → Prop} {q : γ → δ → Prop}

theorem bind {x : Except Refusal α} {y : Except Refusal β} {f : α → Except Refusal γ}
    {g : β → Except Refusal δ} (h : Agree r x y) (hf : ∀ a b, r a b → Agree q (f a) (g b)) :
    Agree q (x.bind f) (y.bind g) := by
  cases h with
  | ok hr => exact hf _ _ hr
  | error e => exact .error e

theorem bind_same {x : Except Refusal α} {f : α → Except Refusal γ} {g : α → Except Refusal δ}
    (hf : ∀ a, Agree q (f a) (g a)) : Agree q (x.bind f) (x.bind g) := by
  cases x with
  | ok a => exact hf a
  | error e => exact .error e

theorem within {need levels : Nat} {a : α} {b : β} (h : r a b) :
    Agree r (within need levels a) (within need levels b) := by
  unfold Script.within
  split
  · exact .ok h
  · exact .error _

theorem exists_ok {x : Except Refusal α} {b : β} (h : Agree r x (.ok b)) :
    ∃ a, x = .ok a ∧ r a b := by
  cases h with
  | ok hr => exact ⟨_, rfl, hr⟩

theorem eq_error {x : Except Refusal α} {e : Refusal} (h : Agree r x (.error e)) :
    x = .error e := by
  cases h
  rfl

end Agree

namespace Stmt

variable {env : Env} {s : Scope} {ss ss' ts ts' : List Stmt} {a b : Stmt}

theorem execAll_append (env : Env) (s : Scope) (ss ts : List Stmt) :
    execAll env s (ss ++ ts) = (execAll env s ss).bind fun (out, s) =>
      (execAll env s ts).map fun (more, s) => (out ++ more, s) := by
  induction ss generalizing s with
  | nil =>
    rw [List.nil_append, execAll]
    change _ = Except.map _ (execAll env s ts)
    cases execAll env s ts <;> rfl
  | cons stmt ss ih =>
    rw [List.cons_append, execAll, execAll]
    cases exec env s stmt with
    | error e => rfl
    | ok first =>
      change (execAll env first.2 (ss ++ ts)).bind _ = ((execAll env first.2 ss).bind _).bind _
      rw [ih]
      cases execAll env first.2 ss with
      | error e => rfl
      | ok second =>
        change Except.bind (Except.map _ (execAll env second.2 ts)) _ =
          Except.map _ (execAll env second.2 ts)
        cases execAll env second.2 ts with
        | error e => rfl
        | ok third => simp [Except.bind, Except.map, List.append_assoc]

def Outputs (env : Env) (s : Scope) (ss : List Stmt) (out : Text) : Prop :=
  execAll env s ss = .ok (out, s)

theorem outputs_nil : Outputs env s [] [] := by rw [Outputs, execAll]

theorem Outputs.append {out more : Text} (h : Outputs env s ss out) (h' : Outputs env s ts more) :
    Outputs env s (ss ++ ts) (out ++ more) := by
  rw [Outputs, execAll_append, h]
  change Except.map _ (execAll env s ts) = _
  rw [h']
  rfl

theorem outputs_singleton {out : Text} (h : exec env s a = .ok (out, s)) :
    Outputs env s [a] out := by
  have hcons : execAll env s [a] = .ok (out ++ [], s) := by
    simp only [execAll, h, bind, Except.bind]
  rwa [List.append_nil] at hcons

theorem outputs_text (t : Text) : Outputs env s [.text t] t := outputs_singleton (by rw [exec])

/-- A text may as well be put out letter by letter. -/
theorem outputs_letters (t : Text) : Outputs env s (t.map fun c => .text [c]) t := by
  induction t with
  | nil => exact outputs_nil
  | cons c t ih => exact (outputs_text [c]).append ih

/-- Statements that do the same wherever they are run. -/
def Same (ss ts : List Stmt) : Prop :=
  ∀ (env : Env) (s : Scope), execAll env s ss = execAll env s ts

namespace Same

theorem refl (ss : List Stmt) : Same ss ss := fun _ _ => rfl

theorem symm (h : Same ss ts) : Same ts ss := fun env s => (h env s).symm

theorem trans {us : List Stmt} (h : Same ss ts) (h' : Same ts us) : Same ss us :=
  fun env s => (h env s).trans (h' env s)

theorem of_outputs {out : Text} (h : ∀ env s, Outputs env s ss out)
    (h' : ∀ env s, Outputs env s ts out) : Same ss ts :=
  fun env s => (h env s).trans (h' env s).symm

theorem letters (t : Text) : Same [.text t] (t.map fun c => .text [c]) :=
  of_outputs (fun _ _ => outputs_text t) fun _ _ => outputs_letters t

theorem append (h : Same ss ss') (h' : Same ts ts') : Same (ss ++ ts) (ss' ++ ts') := by
  intro env s
  rw [execAll_append, execAll_append, h env s]
  simp only [h' env]

theorem of_exec (h : ∀ env s, exec env s a = exec env s b) : Same [a] [b] := by
  intro env s
  rw [execAll, execAll, h]

theorem cond (guard : Expr) (h : Same ss ss') (h' : Same ts ts') :
    Same [.cond guard ss ts] [.cond guard ss' ts'] := by
  refine of_exec fun env s => ?_
  rw [exec, exec]
  simp only [h env, h' env]

theorem loop (target : Target) (items : Expr) (only : Option Expr) (h : Same ss ss')
    (h' : Same ts ts') :
    Same [.loop target items only ss ts] [.loop target items only ss' ts'] := by
  refine of_exec fun env s => ?_
  rw [exec, exec]
  simp only [h (env.enter s), h' env]

theorem scope (bindings : List (Target × Expr)) (h : Same ss ss') :
    Same [.scope bindings ss] [.scope bindings ss'] := by
  refine of_exec fun env s => ?_
  rw [exec, exec]
  simp only [h (env.enter s)]

theorem autoescape (mode : Expr) (h : Same ss ss') :
    Same [.autoescape mode ss] [.autoescape mode ss'] := by
  refine of_exec fun env s => ?_
  rw [exec, exec]
  simp only [fun escape : Escaping => h { env with escape := escape } s]

end Same

theorem run_of_same {ss ts : List Stmt} (h : Same ss ts) (context : Catalog Value)
    (call : Text → List Value → Except EvalError Value) (escape : Escaping) :
    run context call escape ss = run context call escape ts := by
  rw [run, run, h]

theorem run_append_text (context : Catalog Value)
    (call : Text → List Value → Except EvalError Value) (escape : Escaping) (ss : List Stmt)
    (u : Text) :
    run context call escape (ss ++ [.text u]) = (run context call escape ss).map (· ++ u) := by
  rw [run, run, execAll_append]
  cases execAll ⟨context, call, escape, []⟩ {} ss with
  | error e => rfl
  | ok first =>
    obtain ⟨out, sc⟩ := first
    have htext : execAll ⟨context, call, escape, []⟩ sc [.text u] = .ok (u, sc) := outputs_text u
    simp only [Except.bind, htext]
    rfl

end Stmt

theorem Agree.same {x y z : Except Refusal (List Stmt)} (h : Agree Stmt.Same x y)
    (h' : Agree Stmt.Same z y) : Agree Stmt.Same x z := by
  cases h with
  | ok hs =>
    cases h' with
    | ok hs' => exact .ok (hs.trans hs'.symm)
  | error e =>
    cases h' with
    | error => exact .error e

open Stmt

inductive Head.Alike : Head → Head → Prop
  | cond {earlier earlier' : List (Expr × List Stmt)} (test : Expr) :
      List.Forall₂ (fun b b' => b.1 = b'.1 ∧ Same b.2 b'.2) earlier earlier' →
        Alike (.cond earlier test) (.cond earlier' test)
  | loop (target : Target) (items : Expr) (only : Option Expr) :
      Alike (.loop target items only) (.loop target items only)
  | scope (bindings : List (Target × Expr)) : Alike (.scope bindings) (.scope bindings)
  | autoescape (mode : Expr) : Alike (.autoescape mode) (.autoescape mode)

namespace Head.Alike

variable {h h' : Head} {body body' otherwise otherwise' : List Stmt}

theorem refl (h : Head) : Alike h h := by
  cases h with
  | cond earlier test => exact .cond test (List.forall₂_same.mpr fun _ _ => ⟨rfl, .refl _⟩)
  | loop target items only => exact .loop target items only
  | scope bindings => exact .scope bindings
  | autoescape mode => exact .autoescape mode

theorem closing (ha : Alike h h') : h.closing = h'.closing := by cases ha <;> rfl

theorem allowsElse (ha : Alike h h') : h.allowsElse = h'.allowsElse := by cases ha <;> rfl

theorem branches {earlier earlier' : List (Expr × List Stmt)} (test : Expr)
    (he : List.Forall₂ (fun b b' => b.1 = b'.1 ∧ Same b.2 b'.2) earlier earlier')
    (hb : Same body body') (ho : Same otherwise otherwise') :
    Same [Head.branches earlier test body otherwise]
      [Head.branches earlier' test body' otherwise'] := by
  have hlast := Same.cond test hb ho
  unfold Head.branches
  -- The conditional so far is the alternative of the branch before it.
  generalize Stmt.cond test body otherwise = s at hlast ⊢
  generalize Stmt.cond test body' otherwise' = s' at hlast ⊢
  induction he generalizing s s' with
  | nil => exact hlast
  | @cons b b' earlier earlier' hb _ ih =>
    obtain ⟨e, yes⟩ := b
    obtain ⟨_, yes'⟩ := b'
    obtain ⟨rfl, hyes⟩ := hb
    exact ih _ _ (.cond e hyes hlast)

theorem close (ha : Alike h h') (hb : Same body body') (ho : Same otherwise otherwise') :
    Same [h.close body otherwise] [h'.close body' otherwise'] := by
  cases ha with
  | cond test he => exact branches test he hb ho
  | loop target items only => exact .loop target items only hb ho
  | scope bindings => exact .scope bindings hb
  | autoescape mode => exact .autoescape mode hb

end Head.Alike

structure Frame.Alike (f f' : Frame) : Prop where
  head : f.head.Alike f'.head
  main : Option.Rel Same f.main f'.main
  before : Same f.before.reverse f'.before.reverse

/-- Builders whose open blocks and statements are alike. -/
structure Builder.Alike (b b' : Builder) : Prop where
  frames : List.Forall₂ Frame.Alike b.frames b'.frames
  recent : Same b.recent.reverse b'.recent.reverse

namespace Builder

variable {b b' : Builder} {limit levels : Nat} {word : Text} {ls : List Lexeme}

namespace Alike

theorem refl_empty : Alike {} {} := ⟨.nil, .refl _⟩

theorem depth (h : Alike b b') : b.frames.length = b'.frames.length := h.frames.length_eq

theorem pushAll {ss ss' : List Stmt} (h : Alike b b') (hs : Same ss ss') :
    Alike (b.pushAll ss) (b'.pushAll ss') where
  frames := h.frames
  recent := by
    simp only [Builder.pushAll, List.reverse_append, List.reverse_reverse]
    exact h.recent.append hs

theorem push {s s' : Stmt} (h : Alike b b') (hs : Same [s] [s']) :
    Alike (b.push s) (b'.push s') := h.pushAll hs

theorem openBlock (h : Alike b b') (head : Head) :
    Alike (b.openBlock head) (b'.openBlock head) where
  frames := .cons ⟨.refl head, .none, h.recent⟩ h.frames
  recent := .refl _

theorem startElse (h : Alike b b') : Agree Alike b.startElse b'.startElse := by
  obtain ⟨frames, recent⟩ := b
  obtain ⟨frames', recent'⟩ := b'
  obtain ⟨hf, hr⟩ := h
  cases hf with
  | nil => exact .error _
  | @cons f f' frames frames' hf hfs =>
    obtain ⟨head, main, before⟩ := f
    obtain ⟨head', main', before'⟩ := f'
    obtain ⟨hh, hm, hb⟩ := hf
    cases hm with
    | some hm => exact .error _
    | none =>
      simp only [Builder.startElse, ← hh.allowsElse]
      split
      · exact .ok ⟨.cons ⟨hh, .some hr, hb⟩ hfs, .refl _⟩
      · exact .error _

theorem startBranch (h : Alike b b') (test : Expr) :
    Agree Alike (b.startBranch test) (b'.startBranch test) := by
  obtain ⟨frames, recent⟩ := b
  obtain ⟨frames', recent'⟩ := b'
  obtain ⟨hf, hr⟩ := h
  cases hf with
  | nil => exact .error _
  | @cons f f' frames frames' hf hfs =>
    obtain ⟨head, main, before⟩ := f
    obtain ⟨head', main', before'⟩ := f'
    obtain ⟨hh, hm, hb⟩ := hf
    cases hh with
    | cond test' he =>
      cases hm with
      | some hm => exact .error _
      | none => exact .ok ⟨.cons ⟨.cond test (.cons ⟨rfl, hr⟩ he), .none, hb⟩ hfs, .refl _⟩
    | loop | scope | autoescape => exact .error _

theorem closeBlock (h : Alike b b') (word : Text) :
    Agree Alike (b.closeBlock word) (b'.closeBlock word) := by
  obtain ⟨frames, recent⟩ := b
  obtain ⟨frames', recent'⟩ := b'
  obtain ⟨hf, hr⟩ := h
  cases hf with
  | nil => exact .error _
  | @cons f f' frames frames' hf hfs =>
    obtain ⟨head, main, before⟩ := f
    obtain ⟨head', main', before'⟩ := f'
    obtain ⟨hh, hm, hb⟩ := hf
    simp only [Builder.closeBlock, ← hh.closing]
    split
    · refine .ok ⟨hfs, ?_⟩
      simp only [List.reverse_cons]
      refine hb.append ?_
      cases hm with
      | some hm => exact hh.close hm hr
      | none => exact hh.close hr (.refl _)
    · exact .error _

theorem addStatement (h : Alike b b') :
    Agree Alike (b.addStatement levels word ls) (b'.addStatement levels word ls) := by
  unfold Builder.addStatement
  split
  · exact .bind_same fun _ => .ok (h.openBlock _)
  split
  · exact .bind_same fun _ => .ok (h.openBlock _)
  split
  · exact .bind_same fun _ => .ok (h.push (.refl _))
  split
  · dsimp only
    split
    · exact .ok (h.openBlock _)
    · exact .bind_same fun _ => .ok (h.openBlock _)
  split
  · exact .bind_same fun _ => .ok (h.openBlock _)
  · exact .error _

theorem continueBlock (h : Alike b b') :
    Agree Alike (b.continueBlock levels word ls) (b'.continueBlock levels word ls) := by
  unfold Builder.continueBlock
  split
  · exact .bind_same fun _ => h.startBranch _
  split
  · exact .error _
  split
  · exact h.startElse
  · exact h.closeBlock word

theorem add (h : Alike b b') (p : Piece) : Agree Alike (b.add limit p) (b'.add limit p) := by
  unfold Builder.add
  rw [← h.depth]
  split
  · exact .ok (h.push (.refl _))
  · exact .bind_same fun _ => .ok (h.push (.refl _))
  · split
    · exact h.continueBlock
    · split
      · exact .error _
      · exact h.addStatement
  · exact .error _

theorem finish (h : Alike b b') : Agree Same b.finish b'.finish := by
  obtain ⟨frames, recent⟩ := b
  obtain ⟨frames', recent'⟩ := b'
  obtain ⟨hf, hr⟩ := h
  cases hf with
  | nil => exact .ok hr
  | cons => exact .error _

end Alike

theorem addAll_letters (limit : Nat) (b : Builder) (s : Text) :
    addAll limit b (Piece.letters s) = .ok (b.pushAll (s.map fun c => .text [c])) := by
  induction s generalizing b with
  | nil => rfl
  | cons c s ih =>
    rw [List.map_cons, pushAll_cons]
    exact ih (b.push (.text [c]))

/-- The pieces of a script and their atoms are built to the same. -/
theorem addAll_atoms (h : Alike b b') (ps : List Piece) :
    Agree Alike (addAll limit b ps) (addAll limit b' (Piece.atoms ps)) := by
  induction ps generalizing b b' with
  | nil => exact .ok h
  | cons p ps ih =>
    have hatoms : Piece.atoms (p :: ps) = p.atomsOf ++ Piece.atoms ps := List.flatMap_cons
    rw [hatoms, addAll_cons, addAll_append]
    refine Agree.bind ?_ fun _ _ h => ih h
    cases p with
    | text s =>
      rw [Piece.atomsOf, addAll_letters]
      exact .ok (h.pushAll (.letters s))
    | printed ls =>
      change Agree Alike _ (addAll limit b' [.printed ls])
      rw [addAll_singleton]
      exact h.add _
    | statement ls =>
      change Agree Alike _ (addAll limit b' [.statement ls])
      rw [addAll_singleton]
      exact h.add _

end Builder

end Curly.Script

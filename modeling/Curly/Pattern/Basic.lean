import Curly.Pattern.CharSet

namespace Curly

inductive Pattern where
  | empty
  | one (k : CharSet)
  | seq (p q : Pattern)
  | alt (p q : Pattern)
  /-- Any number of rounds, for a body that reads something; `Pattern.many` is for all bodies. -/
  | star (greedy : Bool) (p : Pattern)
  | plus (greedy : Bool) (p : Pattern)
  | start
  | stop
  | group (name : Option Text) (p : Pattern)
deriving DecidableEq, Repr

/-- A place in a text: how many characters come before it, what follows it, and the named groups
that a match has entered on its way here, latest first. -/
structure Cursor where
  place : Nat
  rest : Text
  names : List Text
deriving DecidableEq, Repr

def Cursor.step (c : Cursor) (s : Text) : Cursor := { c with place := c.place + 1, rest := s }

def Cursor.enter (c : Cursor) (name : Text) : Cursor := { c with names := name :: c.names }

/-- The branching points of a pattern that a way has come through since it last read a character:
choices, and repetitions at the end of a round. A way that comes to one of them again has gone in a
circle and ends there. The marks have the shape of the pattern, and `none` is for a part without
any. -/
inductive Marks where
  | none
  | node (here : Bool) (left right : Marks)

namespace Marks

def here : Marks → Bool
  | none => false
  | node b _ _ => b

def left : Marks → Marks
  | none => none
  | node _ l _ => l

def right : Marks → Marks
  | none => none
  | node _ _ r => r

/-- What is left at `d` of marks that were made up to `c`. -/
def kept (m : Marks) (c d : Cursor) : Marks := if d.place = c.place then m else none

@[simp] theorem kept_none (c d : Cursor) : kept none c d = none := ite_self _

end Marks

/-- A way through a pattern, as far as it has come. -/
structure Way where
  cursor : Cursor
  marks : Marks

namespace Way

def left (w : Way) : Way := { w with marks := w.marks.left }

def right (w : Way) : Way := { w with marks := w.marks.right }

def across (w d : Way) : Way := ⟨d.cursor, w.marks.right.kept w.cursor d.cursor⟩

def join (d e : Way) : Way := ⟨e.cursor, .node false (d.marks.kept d.cursor e.cursor) e.marks⟩

def outLeft (w d : Way) : Way :=
  ⟨d.cursor, .node (d.cursor.place = w.cursor.place) d.marks (w.marks.right.kept w.cursor d.cursor)⟩

def outRight (w d : Way) : Way :=
  ⟨d.cursor, .node (d.cursor.place = w.cursor.place) (w.marks.left.kept w.cursor d.cursor) d.marks⟩

def outRound (d : Way) : Way := ⟨d.cursor, .node true d.marks .none⟩

end Way

/-- What a repetition has found: the places where rounds have ended, from the last one in the text
to the first, and the ways on which the repetition may be left, best last. -/
structure Trail where
  visited : List Nat := []
  ends : List Way := []

namespace Trail

def insertPlace? (place : Nat) : List Nat → Option (List Nat)
  | [] => some [place]
  | q :: qs =>
    if q < place then some (place :: q :: qs)
    else if q = place then none
    else (insertPlace? place qs).map (q :: ·)

def visit? (t : Trail) (place : Nat) : Option Trail :=
  (insertPlace? place t.visited).map fun visited => { t with visited := visited }

def addEnd (t : Trail) (w : Way) : Trail := { t with ends := w :: t.ends }

end Trail

namespace Pattern

/-- What a repetition finds from the end of a round on. What can follow at a place does not depend
on the way that leads there, so a second round that ends there adds nothing. Any other round leaves
less of the text, so that the fuel is never used up. -/
def visit (greedy : Bool) (round : Way → List Way) : (fuel : Nat) → Trail → Way → Trail
  | 0, t, _ => t
  | fuel + 1, t, d =>
    match t.visit? d.cursor.place with
    | none => t
    | some t =>
      let further (t : Trail) : Trail := (round d).foldl (visit greedy round fuel) t
      if greedy then (further t).addEnd d else further (t.addEnd d)

/-- The ways on which a repetition that is entered with `w` may be left, best first. Its first
rounds end with `ds`. -/
def rounds (greedy : Bool) (round : Way → List Way) (w : Way) (ds : List Way) : List Way :=
  let t : Trail := { visited := if w.marks.here then [w.cursor.place] else [] }
  (ds.foldl (visit greedy round (w.cursor.rest.length + 1)) t).ends.reverse.map Way.outRound

/-- The ways to match, best first: the left side of a choice comes before the right side, and one
more round of a greedy repetition before leaving it. -/
def ways : Pattern → Way → List Way
  | empty, w => [w]
  | one k, w =>
    match w.cursor.rest with
    | [] => []
    | x :: s => if k.has x then [⟨w.cursor.step s, .none⟩] else []
  | seq p q, w => (p.ways w.left).flatMap fun d => (q.ways (w.across d)).map d.join
  | alt p q, w =>
    if w.marks.here then []
    else (p.ways w.left).map w.outLeft ++ (q.ways w.right).map w.outRight
  | star greedy p, w => rounds greedy p.ways w [w.left]
  | plus greedy p, w => rounds greedy p.ways w (p.ways w.left)
  | start, w => if w.cursor.place = 0 then [w] else []
  | stop, w => if w.cursor.rest = [] then [w] else []
  | group none p, w => p.ways w
  | group (some name) p, w => p.ways { w with cursor := w.cursor.enter name }

variable {α : Type}

def findWay? : Pattern → Way → (Way → Option α) → Option α
  | empty, w, k => k w
  | one cls, w, k =>
    match w.cursor.rest with
    | [] => none
    | x :: s => if cls.has x then k ⟨w.cursor.step s, .none⟩ else none
  | seq p q, w, k => p.findWay? w.left fun d => q.findWay? (w.across d) fun e => k (d.join e)
  | alt p q, w, k =>
    if w.marks.here then none
    else
      match p.findWay? w.left fun d => k (w.outLeft d) with
      | some a => some a
      | none => q.findWay? w.right fun d => k (w.outRight d)
  | star greedy p, w, k => (rounds greedy p.ways w [w.left]).findSome? k
  | plus greedy p, w, k => (rounds greedy p.ways w (p.ways w.left)).findSome? k
  | start, w, k => if w.cursor.place = 0 then k w else none
  | stop, w, k => if w.cursor.rest = [] then k w else none
  | group none p, w, k => p.findWay? w k
  | group (some name) p, w, k => p.findWay? { w with cursor := w.cursor.enter name } k

theorem findSome?_flatMap {β γ : Type} (l : List β) (f : β → List γ) (k : γ → Option α) :
    (l.flatMap f).findSome? k = l.findSome? fun d => (f d).findSome? k := by
  induction l with
  | nil => rfl
  | cons d l ih =>
    rw [List.flatMap_cons, List.findSome?_append, ih, List.findSome?_cons]
    cases (f d).findSome? k <;> rfl

theorem findWay?_eq_findSome? (p : Pattern) (w : Way) (k : Way → Option α) :
    p.findWay? w k = (p.ways w).findSome? k := by
  induction p generalizing w k with
  | empty => simp [findWay?, ways]
  | one cls =>
    simp only [findWay?, ways]
    split
    · rfl
    · split <;> simp
  | seq p q ihp ihq =>
    simp only [findWay?, ways, ihp, ihq, findSome?_flatMap, List.findSome?_map, Function.comp_def]
  | alt p q ihp ihq =>
    simp only [findWay?, ways, ihp, ihq]
    split
    · rfl
    · rw [List.findSome?_append, List.findSome?_map, List.findSome?_map]
      simp only [Function.comp_def]
      cases (p.ways w.left).findSome? fun d => k (w.outLeft d) <;> rfl
  | star | plus => rfl
  | start => simp only [findWay?, ways]; split <;> simp
  | stop => simp only [findWay?, ways]; split <;> simp
  | group name p ih => cases name <;> simp only [findWay?, ways, ih]

/-- The places where the ways to match from `c` end, best first. -/
def hits (p : Pattern) (c : Cursor) : List Cursor := (p.ways ⟨c, .none⟩).map (·.cursor)

theorem hits_alt (p q : Pattern) (c : Cursor) : (alt p q).hits c = p.hits c ++ q.hits c := by
  have hways : (alt p q).ways ⟨c, .none⟩ = (p.ways ⟨c, .none⟩).map (Way.outLeft ⟨c, .none⟩) ++
      (q.ways ⟨c, .none⟩).map (Way.outRight ⟨c, .none⟩) := rfl
  rw [hits, hways, List.map_append, List.map_map, List.map_map]
  rfl

theorem hits_group (name : Text) (p : Pattern) (c : Cursor) :
    (group (some name) p).hits c = p.hits (c.enter name) := rfl

def find? (p : Pattern) (c : Cursor) (k : Cursor → Option α) : Option α :=
  p.findWay? ⟨c, .none⟩ fun w => k w.cursor

theorem find?_eq_findSome? (p : Pattern) (c : Cursor) (k : Cursor → Option α) :
    p.find? c k = (p.hits c).findSome? k := by
  rw [find?, findWay?_eq_findSome?, hits, List.findSome?_map]
  rfl

@[simp] theorem find?_empty (c : Cursor) (k : Cursor → Option α) : empty.find? c k = k c := rfl

@[simp] theorem find?_one_nil (cls : CharSet) (place : Nat) (names : List Text)
    (k : Cursor → Option α) : (one cls).find? ⟨place, [], names⟩ k = none := rfl

@[simp] theorem find?_one_cons (cls : CharSet) (place : Nat) (x : Char) (s : Text)
    (names : List Text) (k : Cursor → Option α) :
    (one cls).find? ⟨place, x :: s, names⟩ k =
      if cls.has x then k ⟨place + 1, s, names⟩ else none := rfl

@[simp] theorem find?_seq (p q : Pattern) (c : Cursor) (k : Cursor → Option α) :
    (seq p q).find? c k = p.find? c fun d => q.find? d k := by
  simp only [find?, findWay?, Way.across, Marks.right, Marks.kept_none]
  rfl

@[simp] theorem find?_alt (p q : Pattern) (c : Cursor) (k : Cursor → Option α) :
    (alt p q).find? c k = (p.find? c k).or (q.find? c k) := by
  change (match p.find? c k with | some a => some a | none => q.find? c k) = _
  cases p.find? c k <;> rfl

@[simp] theorem find?_group (name : Text) (p : Pattern) (c : Cursor) (k : Cursor → Option α) :
    (group (some name) p).find? c k = p.find? (c.enter name) k := rfl

def match? (p : Pattern) (c : Cursor) : Option Cursor := p.find? c some

theorem match?_eq_head? (p : Pattern) (c : Cursor) : p.match? c = (p.hits c).head? := by
  rw [match?, find?_eq_findSome?]
  cases p.hits c <;> rfl

def matchesEmpty (p : Pattern) : Bool := (p.match? ⟨0, [], []⟩).isSome

def never : Pattern := one .empty

theorem hits_never (c : Cursor) : never.hits c = [] := by
  rw [hits, never, ways]
  split
  · rfl
  · rw [if_neg (by simp [CharSet.has])]
    rfl

def literal : Text → Pattern
  | [] => empty
  | c :: s => seq (one (.single c)) (literal s)

def opt (greedy : Bool) (p : Pattern) : Pattern := if greedy then alt p empty else alt empty p

def mayBeEmpty : Pattern → Bool
  | empty | star .. | start | stop => true
  | one _ => false
  | seq p q => p.mayBeEmpty && q.mayBeEmpty
  | alt p q => p.mayBeEmpty || q.mayBeEmpty
  | plus _ p | group _ p => p.mayBeEmpty

/-- Any number of rounds. Where a round may read nothing, none at all is a choice of its own. -/
def many (greedy : Bool) (p : Pattern) : Pattern :=
  if p.mayBeEmpty then opt greedy (plus greedy p) else star greedy p

def names : Pattern → List Text
  | empty | one _ | start | stop => []
  | seq p q | alt p q => p.names ++ q.names
  | star _ p | plus _ p | group none p => p.names
  | group (some name) p => name :: p.names

end Pattern

structure Hit where
  before : Text
  text : Text
  rest : Text
  names : List Text
deriving DecidableEq, Repr

namespace Pattern

def search? (p : Pattern) (place : Nat) (s : Text) : Option Hit :=
  match p.match? ⟨place, s, []⟩ with
  | some d => some ⟨[], s.take (d.place - place), d.rest, d.names⟩
  | none =>
    match s with
    | [] => none
    | c :: s => (p.search? (place + 1) s).map fun hit => { hit with before := c :: hit.before }

end Pattern

end Curly

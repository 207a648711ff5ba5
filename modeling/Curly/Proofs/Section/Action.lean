import Curly.Proofs.Acceptance
import Curly.Proofs.Path.Expression
import Curly.Proofs.Script.Building

namespace Curly

open Script

inductive Action where
  | opening (name : Text) (inverted : Bool)
  | closing (name : Text)
  | here
  | lookup (name : Text) (segments : List Text)
deriving DecidableEq, Repr

namespace Action

/-- The content that asks for an action. Segments behind the first are names. -/
inductive IsWritten : Action → Text → Prop
  | opening {name : Text} : Path.isWord name = true → IsWritten (opening name false) ('#' :: name)
  | inverted {name : Text} : Path.isWord name = true → IsWritten (opening name true) ('^' :: name)
  | closing {name : Text} : Path.isWord name = true → IsWritten (closing name) ('/' :: name)
  | here : IsWritten here ['.']
  | lookup {name : Text} {segments : List Text} :
      name ≠ [] → Path.isWord name = true → (∀ w ∈ segments, Piece.IsName w) →
        IsWritten (lookup name segments) (name ++ Path.dotted segments)

def meaning : Action → Meaning
  | opening name inverted => if inverted then .inverted name else .opening name
  | closing name => .closing name
  | here => .current
  | lookup name segments => .output (Path.guardedSegments (Path.rootLookup name) segments)

/-- The open sections behind the action, the innermost first, with whether they are inverted. -/
def step (opened : List (Text × Bool)) : Action → List (Text × Bool)
  | opening name inverted => (name, inverted) :: opened
  | closing _ => opened.tail
  | here | lookup _ _ => opened

def sectionTag? (offset : Nat) : Action → Option SectionTag
  | opening name _ => some (.opening name offset)
  | closing name => some (.closing name)
  | here | lookup _ _ => none

end Action

namespace Tag

def isVerbatim (t : Tag Mark) : Bool := t.opening = .verbatimOpen

/-- What a plain tag does, or that it is silent. -/
inductive Does (t : Tag Mark) : Option Action → Prop
  | comment : t.opening = .commentOpen → Does t none
  | blankRun : t.opening = .runOpen → Text.trim t.content = [] → Does t none
  | action {a : Action} :
      t.interpolates = true → a.IsWritten (Text.trim t.content) → Does t (some a)

theorem Does.isWritten {t : Tag Mark} {a : Action} (h : t.Does (some a)) :
    t.interpolates = true ∧ a.IsWritten (Text.trim t.content) := by
  cases h with
  | action hi hw => exact ⟨hi, hw⟩

/-- A tag of the plain language without a fault of its own. -/
structure IsPlain (t : Tag Mark) : Prop where
  proper : t.IsProper
  does : ∃ a, t.Does a

end Tag

namespace Path

theorem splitOn_dotted {name : Text} {segments : List Text} (hn : '.' ∉ name)
    (hs : ∀ w ∈ segments, '.' ∉ w) :
    Text.splitOn '.' (name ++ dotted segments) = name :: segments := by
  induction segments generalizing name with
  | nil =>
    rw [dotted, List.flatMap_nil, List.append_nil]
    exact Text.splitOn_of_not_mem hn
  | cons segment segments ih =>
    have ih := ih (hs segment (List.mem_cons_self ..)) fun w hw => hs w (List.mem_cons_of_mem _ hw)
    have htext : dotted (segment :: segments) = '.' :: (segment ++ dotted segments) := by
      simp [dotted]
    rw [htext, Text.splitOn_append hn, ih]

theorem not_mem_of_isWord {w : Text} (h : isWord w = true) {c : Char}
    (hc : Lexeme.isWordRest c = false) : c ∉ w :=
  fun hm => Piece.ne_of_isWordRest (List.all_eq_true.mp h c hm) hc rfl

theorem meaning?_dotted {name : Text} {segments : List Text} (hne : name ≠ [])
    (hw : isWord name = true) (hs : ∀ w ∈ segments, w ≠ [] ∧ isWord w = true) :
    meaning? (name ++ dotted segments) =
      some (.output (guardedSegments (rootLookup name) segments)) := by
  have hdot : Lexeme.isWordRest '.' = false := by decide
  have hsplit := splitOn_dotted (not_mem_of_isWord hw hdot)
    fun w hm => not_mem_of_isWord (hs w hm).2 hdot
  have hpath : isPath (name ++ dotted segments) = true := by
    rw [isPath, hsplit, List.all_eq_true]
    intro w hm
    have hw' : w ≠ [] ∧ isWord w = true := by
      obtain rfl | hm := List.mem_cons.mp hm
      · exact ⟨hne, hw⟩
      · exact hs w hm
    simp [hw']
  have hcurrent : name ++ dotted segments ≠ ['.'] := by
    intro he
    cases name with
    | nil => exact hne rfl
    | cons c name =>
      rw [List.cons_append, List.cons.injEq] at he
      exact not_mem_of_isWord hw hdot (he.1 ▸ List.mem_cons_self ..)
  rw [meaning?, if_neg hcurrent, if_pos hpath, guardedLookup, hsplit]

end Path

namespace RuleTable

theorem apply_stock_word {name content : Text} (hne : name ≠ []) (hw : Path.isWord name = true) :
    stock.apply (name ++ content) = Path.meaning? (name ++ content) := by
  cases name with
  | nil => exact absurd rfl hne
  | cons c name =>
    have hc : c ≠ '#' ∧ c ≠ '^' ∧ c ≠ '/' := by
      refine ⟨?_, ?_, ?_⟩ <;> rintro rfl <;>
        exact Path.not_mem_of_isWord hw (by decide) (List.mem_cons_self ..)
    simp only [apply, stock, StockRule.all, List.map_cons, List.map_nil, List.findSome?_cons,
      List.findSome?_nil, StockRule.apply, StockRule.markedWord, List.cons_append, hc,
      false_and, if_false, Option.map_none]
    cases Path.meaning? (c :: (name ++ content)) <;> rfl

theorem apply_stock {a : Action} {content : Text} (h : a.IsWritten content) :
    stock.apply content = some a.meaning := by
  cases h with
  | opening hw | inverted hw | closing hw =>
    simp [apply, stock, StockRule.all, StockRule.apply, StockRule.markedWord, hw, Action.meaning]
  | here => rfl
  | lookup hne hw hs =>
    have hwords : ∀ w ∈ _, w ≠ [] ∧ Path.isWord w = true := fun w hm =>
      ⟨(hs w hm).ne_nil, (hs w hm).rest⟩
    rw [apply_stock_word hne hw, Path.meaning?_dotted hne hw hwords]
    rfl

end RuleTable

namespace Tag

theorem does_bracedTag {c : Char} {content : Text} {a : Action} (offset : Nat)
    (ht : Text.trim (c :: content) = c :: content) (ha : a.IsWritten (c :: content)) :
    (Mark.bracedTag c content offset).IsProper ∧
      (Mark.bracedTag c content offset).Does (some a) := by
  rw [← ht] at ha
  refine ⟨⟨rfl, rfl, fun h => ?_, fun _ => ?_⟩, .action rfl ha⟩
  · exact absurd (show Mark.literal .plainOpen = Mark.literal .verbatimOpen from h) (by decide)
  · rw [Mark.bracedTag, ht]
    exact List.cons_ne_nil c content

theorem sectionTag?_of_does {t : Tag Mark} {a : Option Action} (h : t.Does a) :
    t.sectionTag? .stock = a.bind (·.sectionTag? t.position) := by
  cases h with
  | comment ho | blankRun ho => simp [sectionTag?, interpolates, ho]
  | @action a hi hw =>
    rw [sectionTag?, if_pos hi, RuleTable.apply_stock hw]
    cases a with
    | opening name inverted => cases inverted <;> rfl
    | _ => rfl

end Tag

namespace Script.Fragment

open Piece Curly.Script.Expr

def opening (name : Text) (inverted : Bool) : Fragment :=
  statement ((if inverted then "if not ".toList else "if ".toList) ++ Path.rootLookup name)
    (Lexeme.keyword "if" ::
      ((if inverted then [Lexeme.keyword "not"] else []) ++ Path.rootLexemes name))

def ending : Fragment := statement "endif".toList [Lexeme.keyword "endif"]

def here (name : Text) (verbatim : Bool) : Fragment :=
  printed (Path.outputExpr verbatim (Path.rootLookup name))
    (Path.outputLexemes verbatim (Path.rootLexemes name))

def lookup (name : Text) (segments : List Text) (verbatim : Bool) : Fragment :=
  printed (Path.outputExpr verbatim (Path.guardedSegments (Path.rootLookup name) segments))
    (Path.outputLexemes verbatim (Path.guardedLexemes name segments))

def guardExpr (name : Text) (inverted : Bool) : Expr :=
  if inverted then .unary .not (Path.rootExpr name) else Path.rootExpr name

theorem readsUnconditional_guard (name : Text) (inverted : Bool) :
    ReadsUnconditional (Path.rootLevels name)
      ((if inverted then [Lexeme.keyword "not"] else []) ++ Path.rootLexemes name)
      (guardExpr name inverted) := by
  have h := ((Path.readsAccessed_root name).operand (Path.startsOperand_root name)).negation
  cases inverted with
  | false => exact h.unconditional
  | true => exact h.not.unconditional

theorem isRead_opening {name : Text} (hne : name ≠ []) (hw : Path.isWord name = true)
    (inverted : Bool) : (opening name inverted).IsRead := by
  have hif : Spells "if".toList [Lexeme.keyword "if"] := Spells.name (by decide)
  have hnot : Spells "not".toList [Lexeme.keyword "not"] := Spells.name (by decide)
  have hroot := Path.spells_root hne hw
  cases inverted with
  | false => exact .statement (by decide) (by decide) (hif.apart hroot)
  | true => exact .statement (by decide) (by decide) (hif.apart (hnot.apart hroot))

theorem isRead_ending : ending.IsRead :=
  .statement (by decide) (by decide) (Spells.name (by decide))

theorem isRead_here {name : Text} (hne : name ≠ []) (hw : Path.isWord name = true)
    (verbatim : Bool) : (here name verbatim).IsRead :=
  .printed (Path.spells_output (Path.spells_root hne hw) verbatim)

theorem isRead_lookup {name : Text} {segments : List Text} (hne : name ≠ [])
    (hw : Path.isWord name = true) (hs : ∀ w ∈ segments, w ≠ [] ∧ Path.isWord w = true)
    (hr : Path.isReadable segments = true) (verbatim : Bool) :
    (lookup name segments verbatim).IsRead :=
  .printed (Path.spells_output (Path.spells_guardedSegments hne hw hs hr) verbatim)

theorem readsExpr_here (name : Text) (verbatim : Bool) :
    ReadsExpr (Path.rootLevels name + Path.printedLevels verbatim)
      (Path.outputLexemes verbatim (Path.rootLexemes name))
      (Path.printedExpr verbatim (Path.rootExpr name)) :=
  Path.readsExpr_output (Path.readsAccessed_root name) (Path.startsOperand_root name) verbatim

theorem readsExpr_lookup (name : Text) (segments : List Text) (verbatim : Bool) :
    ReadsExpr (Path.guardedLevels name segments + Path.printedLevels verbatim)
      (Path.outputLexemes verbatim (Path.guardedLexemes name segments))
      (Path.printedExpr verbatim (Path.guardedExpr name segments)) :=
  Path.readsExpr_output (Path.readsAccessed_guarded name segments)
    (Path.startsOperand_guarded name segments) verbatim

theorem isSimple_opening (name : Text) (inverted : Bool) : (opening name inverted).IsSimple := by
  refine .opening (readsUnconditional_guard name inverted) ?_
  have h := Path.rootLevels_le name
  simp only [mostLevels]
  omega

theorem isSimple_here (name : Text) (verbatim : Bool) : (here name verbatim).IsSimple := by
  refine .printed (readsExpr_here name verbatim) ?_
  have h := Path.rootLevels_le name
  have h' := Path.printedLevels_le verbatim
  simp only [mostLevels]
  omega

theorem isSimple_lookup (name : Text) (segments : List Text) (verbatim : Bool) :
    (lookup name segments verbatim).IsSimple := by
  refine .printed (readsExpr_lookup name segments verbatim) ?_
  have h := Path.guardedLevels_le name segments
  have h' := Path.printedLevels_le verbatim
  simp only [mostLevels]
  omega

theorem isSimple_ofText (s : Text) : ∀ f ∈ ofText s, f.IsSimple := by
  have hbody (body : Text) : (ofBody body).IsSimple := by
    rw [ofBody]
    split
    · exact .printed (readsExpr_body body) (by decide)
    · exact .raw
  rw [ofText]
  split
  · simp only [List.mem_cons, List.not_mem_nil, or_false, forall_eq_or_imp, forall_eq]
    exact ⟨hbody _, .plain⟩
  · simp only [List.mem_singleton, forall_eq]
    exact .plain

end Script.Fragment

end Curly

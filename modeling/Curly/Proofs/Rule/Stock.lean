import Curly.Proofs.Path.Rendering
import Curly.Proofs.Rule.Insertion

namespace Curly

namespace Path

def IsAsciiWord (s : Text) : Prop :=
  ∀ c ∈ s, 'A' ≤ c ∧ c ≤ 'Z' ∨ 'a' ≤ c ∧ c ≤ 'z' ∨ '0' ≤ c ∧ c ≤ '9' ∨ c = '_'

theorem isWord_iff {s : Text} : isWord s = true ↔ IsAsciiWord s := by
  rw [isWord, List.all_eq_true]
  refine forall₂_congr fun c _ => ?_
  delta isWordChar Char.isAlphanum Char.isAlpha Char.isUpper Char.isLower Char.isDigit
  simp only [Bool.or_eq_true, Bool.and_eq_true, decide_eq_true_eq, or_assoc]
  rfl

theorem join_dot (name : Text) (segments : List Text) :
    Text.join ['.'] (name :: segments) = name ++ dotted segments := by
  induction segments generalizing name with
  | nil => simp [Text.join, dotted]
  | cons segment segments ih =>
    rw [Text.join, ih]
    simp [dotted]

theorem isPath_iff {s : Text} :
    isPath s = true ↔ ∃ segments : List Text, segments ≠ [] ∧
      (∀ w ∈ segments, w ≠ [] ∧ IsAsciiWord w) ∧ s = Text.join ['.'] segments := by
  constructor
  · intro h
    obtain ⟨name, segments, hsplit, -⟩ := exists_splitOn s
    obtain ⟨hs, hne, hw, hwords⟩ := words_of_isPath h hsplit
    refine ⟨name :: segments, List.cons_ne_nil name segments, ?_, by rw [join_dot, hs]⟩
    rw [List.forall_mem_cons]
    exact ⟨⟨hne, isWord_iff.mp hw⟩, fun w hm => ⟨(hwords w hm).1, isWord_iff.mp (hwords w hm).2⟩⟩
  · rintro ⟨segments, hne, hwords, rfl⟩
    obtain ⟨name, segments, rfl⟩ := List.exists_cons_of_ne_nil hne
    have hdot : ∀ w ∈ name :: segments, '.' ∉ w := fun w hm =>
      not_mem_of_isWord (isWord_iff.mpr (hwords w hm).2) (by decide)
    rw [List.forall_mem_cons] at hdot
    rw [isPath, join_dot, splitOn_dotted hdot.1 hdot.2, List.all_eq_true]
    intro w hm
    simp [(hwords w hm).1, isWord_iff.mpr (hwords w hm).2]

end Path

namespace StockRule

open Curly.Path

theorem mem_all (r : StockRule) : r ∈ all := by
  cases r <;> decide

/-- The contents that a stock rule answers, and what it makes of them. -/
inductive Reads : StockRule → Text → Meaning → Prop
  | opening {name : Text} (h : IsAsciiWord name) : Reads opening ('#' :: name) (.opening name)
  | inverted {name : Text} (h : IsAsciiWord name) : Reads inverted ('^' :: name) (.inverted name)
  | closing {name : Text} (h : IsAsciiWord name) : Reads closing ('/' :: name) (.closing name)
  | current : Reads path ['.'] .current
  | lookup {segments : List Text} (hne : segments ≠ [])
      (h : ∀ w ∈ segments, w ≠ [] ∧ IsAsciiWord w) :
      Reads path (Text.join ['.'] segments) (.output (guardedLookup (Text.join ['.'] segments)))

theorem markedWord_eq_some_iff {marker : Char} {content name : Text} :
    markedWord marker content = some name ↔ content = marker :: name ∧ IsAsciiWord name := by
  cases content with
  | nil => simp [markedWord]
  | cons c word =>
    rw [markedWord, ← isWord_iff, List.cons.injEq]
    by_cases h : c = marker ∧ isWord word = true
    · rw [if_pos h, Option.some.injEq]
      exact ⟨fun he => ⟨⟨h.1, he⟩, he ▸ h.2⟩, fun he => he.1.2⟩
    · rw [if_neg h]
      refine iff_of_false (Option.some_ne_none name).symm ?_
      rintro ⟨⟨hc, rfl⟩, hw⟩
      exact h ⟨hc, hw⟩

theorem apply_eq_some_iff {r : StockRule} {content : Text} {m : Meaning} :
    r.apply content = some m ↔ r.Reads content m := by
  cases r with
  | opening | inverted | closing =>
    rw [apply, Option.map_eq_some_iff]
    constructor
    · rintro ⟨name, hname, rfl⟩
      obtain ⟨rfl, hw⟩ := markedWord_eq_some_iff.mp hname
      constructor
      exact hw
    · rintro (hw | hw | hw)
      exact ⟨_, markedWord_eq_some_iff.mpr ⟨rfl, hw⟩, rfl⟩
  | path =>
    rw [apply, meaning?]
    constructor
    · intro h
      split at h
      · next hc =>
        subst hc
        cases h
        exact .current
      · split at h
        · next hp =>
          obtain ⟨segments, hne, hw, rfl⟩ := isPath_iff.mp hp
          cases h
          exact .lookup hne hw
        · cases h
    · intro h
      cases h with
      | current => rfl
      | @lookup segments hne hw =>
        have hp := isPath_iff.mpr ⟨segments, hne, hw, rfl⟩
        have hdot : Text.join ['.'] segments ≠ ['.'] := by
          intro he
          rw [he] at hp
          revert hp
          decide
        rw [if_neg hdot, if_pos hp]

/-- The only rule that may answer a content, by its first character. -/
def ofFirst : Option Char → StockRule
  | some '#' => opening
  | some '^' => inverted
  | some '/' => closing
  | _ => path

theorem Reads.eq_ofFirst {r : StockRule} {content : Text} {m : Meaning} (h : r.Reads content m) :
    r = ofFirst content.head? := by
  cases h with
  | opening | inverted | closing | current => rfl
  | @lookup segments hne hw =>
    obtain ⟨name, segments, rfl⟩ := List.exists_cons_of_ne_nil hne
    obtain ⟨hne, hword⟩ := hw name (List.mem_cons_self ..)
    obtain ⟨c, name, rfl⟩ := List.exists_cons_of_ne_nil hne
    rw [join_dot, List.cons_append, List.head?_cons, ofFirst]
    all_goals
      rintro ⟨⟩
      exact not_mem_of_isWord (isWord_iff.mpr hword) (by decide) (List.mem_cons_self ..)

/-- At most one of the stock rules answers. -/
theorem eq_of_apply {r r' : StockRule} {content : Text} {m m' : Meaning}
    (h : r.apply content = some m) (h' : r'.apply content = some m') : r = r' :=
  (apply_eq_some_iff.mp h).eq_ofFirst.trans (apply_eq_some_iff.mp h').eq_ofFirst.symm

end StockRule

namespace RuleTable

def ofStock (rs : List StockRule) : RuleTable := ⟨rs.map fun r => (r.name, r.apply)⟩

theorem apply_ofStock_eq_some_iff {rs : List StockRule} {content : Text} {m : Meaning} :
    (ofStock rs).apply content = some m ↔ ∃ r ∈ rs, r.apply content = some m := by
  induction rs with
  | nil => simp [ofStock, apply]
  | cons r rs ih =>
    have hcons : (ofStock (r :: rs)).apply content =
        (r.apply content).or ((ofStock rs).apply content) := by
      simp only [ofStock, apply, List.map_cons, List.findSome?_cons]
      cases r.apply content <;> rfl
    rw [hcons, Option.or_eq_some_iff, ih]
    constructor
    · rintro (h | ⟨-, r', hr', h⟩)
      · exact ⟨r, List.mem_cons_self .., h⟩
      · exact ⟨r', List.mem_cons_of_mem _ hr', h⟩
    · rintro ⟨r', hr', h⟩
      cases hr : r.apply content with
      | none =>
        obtain rfl | hr' := List.mem_cons.mp hr'
        · cases hr.symm.trans h
        · exact .inr ⟨rfl, r', hr', h⟩
      | some m' =>
        obtain rfl := StockRule.eq_of_apply hr h
        exact .inl (hr.symm.trans h)

theorem apply_stock_eq_some_iff {content : Text} {m : Meaning} :
    stock.apply content = some m ↔ ∃ r : StockRule, r.apply content = some m := by
  refine apply_ofStock_eq_some_iff.trans (exists_congr fun r => ?_)
  exact and_iff_right (StockRule.mem_all r)

theorem apply_ofStock_of_perm {rs : List StockRule} (h : rs.Perm StockRule.all) (content : Text) :
    (ofStock rs).apply content = stock.apply content := by
  apply Option.ext
  intro m
  rw [show stock = ofStock StockRule.all from rfl, apply_ofStock_eq_some_iff,
    apply_ofStock_eq_some_iff]
  exact exists_congr fun r => and_congr_left fun _ => h.mem_iff

/-- The stock rules answer what their grammars say, and nothing else. No content has two answers, so
the rules can stand in any order. Rules that are added under other names change none of the answers,
and are only asked where all stock rules decline. -/
theorem apply_stock_iff_reads (content : Text) :
    (∀ m, stock.apply content = some m ↔ ∃ r, StockRule.Reads r content m) ∧
    (∀ r m, r.apply content = some m ↔ StockRule.Reads r content m) ∧
    (∀ (r r' : StockRule) m m', r.apply content = some m → r'.apply content = some m' → r = r') ∧
    (∀ rs : List StockRule, rs.Perm StockRule.all →
      (ofStock rs).apply content = stock.apply content) ∧
    ∀ rules, (∀ e ∈ rules, e.1 ∉ stock.names) →
      (∀ m, stock.apply content = some m → (stock.insertAll rules).apply content = some m) ∧
      ∀ name, name ∉ stock.names → (stock.insertAll rules).Asks content name →
        ∀ r : StockRule, r.apply content = none := by
  refine ⟨fun m => ?_, fun r m => StockRule.apply_eq_some_iff,
    fun r r' m m' => StockRule.eq_of_apply, fun rs h => apply_ofStock_of_perm h content,
    fun rules hrules => ⟨fun m hm => ?_, fun name hname ha r => ?_⟩⟩
  · rw [apply_stock_eq_some_iff]
    exact exists_congr fun r => StockRule.apply_eq_some_iff
  · rw [apply_insertAll stock hrules, hm, Option.some_or]
  · exact apply_eq_none_of_asks hrules hname ha _ (List.mem_map.mpr ⟨r, StockRule.mem_all r, rfl⟩)

theorem apply_stock_iff_reads_at_sign :
    let upper := Rule.substituting ['@'] "\x7b\x7d|upper".toList (some <| .output ·)
    let rules := [("upper".toList, upper)]
    ((stock.insertAll rules).apply "a.b".toList =
      some (.output (Path.guardedLookup "a.b".toList))) ∧
    (stock.insertAll rules).apply "@name".toList = some (.output "name|upper".toList) ∧
    (∀ r : StockRule, r.apply "@name".toList = none) ∧
    (ofStock [.path, .closing, .inverted, .opening]).apply "#a".toList =
      some (.opening "a".toList) := by
  intro upper rules
  have hrules : ∀ e ∈ rules, e.1 ∉ stock.names := by decide
  have hpath := (apply_stock_iff_reads "a.b".toList).2.2.2.2 rules hrules
  have hat := (apply_stock_iff_reads "@name".toList).2.2.2.2 rules hrules
  have hsection := (apply_stock_iff_reads "#a".toList).2.2.2.1
    [.path, .closing, .inverted, .opening] (by decide)
  refine ⟨hpath.1 _ rfl, rfl, hat.2 "upper".toList (by decide) ?_, hsection.trans rfl⟩
  exact ⟨stock.entries, _, [], rfl, by decide⟩

end RuleTable

end Curly

import Mathlib.Data.List.Induction
import Mathlib.Data.List.TakeWhile
import Curly.Text.Position

namespace Curly

namespace Text

/-- A text without a line feed, or its first line and the text behind that. -/
@[elab_as_elim]
theorem line_induction {motive : Text → Prop} (last : ∀ l, '\n' ∉ l → motive l)
    (line : ∀ l s, '\n' ∉ l → motive s → motive (l ++ '\n' :: s)) (s : Text) : motive s := by
  by_cases h : '\n' ∈ s
  · obtain ⟨l, s', hs, hl⟩ := List.eq_append_cons_of_mem h
    have hlt : s'.length < s.length := by
      rw [hs, List.length_append, List.length_cons]
      omega
    exact hs ▸ line l s' hl (line_induction last line s')
  · exact last s h
termination_by s.length

def lastLine (s : Text) : Text := (s.reverse.takeWhile (· ≠ '\n')).reverse

theorem lastLine_of_not_mem {l : Text} (h : '\n' ∉ l) : lastLine l = l := by
  have hall : l.reverse.takeWhile (· ≠ '\n') = l.reverse := by
    refine List.takeWhile_eq_self_iff.mpr fun c hc => decide_eq_true ?_
    rintro rfl
    exact h (List.mem_reverse.mp hc)
  rw [lastLine, hall, List.reverse_reverse]

theorem lastLine_append (u v : Text) : lastLine (u ++ '\n' :: v) = lastLine v := by
  rw [lastLine, lastLine, List.reverse_append, List.reverse_cons, List.append_assoc,
    List.singleton_append, List.takeWhile_append]
  split
  · next h =>
    rw [List.takeWhile_cons_of_neg (by simp), List.append_nil,
      (List.takeWhile_prefix _).eq_of_length h]
  · rfl

def behindLines : Nat → Text → Text
  | 0, s => s
  | _ + 1, [] => []
  | n + 1, c :: s => if c = '\n' then behindLines n s else behindLines (n + 1) s

theorem behindLines_append {l : Text} (h : '\n' ∉ l) (n : Nat) (s : Text) :
    behindLines (n + 1) (l ++ '\n' :: s) = behindLines n s := by
  induction l with
  | nil => rw [List.nil_append, behindLines, if_pos rfl]
  | cons c l ih =>
    rw [List.mem_cons, not_or] at h
    rw [List.cons_append, behindLines, if_neg (Ne.symm h.1), ih h.2]

/-- The text from a place on. -/
def behindPosition (s : Text) (p : Position) : Text :=
  (behindLines (p.line - 1) s).drop (p.col - 1)

theorem behindLines_count (u v : Text) :
    behindLines (u.count '\n') (u ++ v) = lastLine u ++ v := by
  induction u using line_induction with
  | last l hl => rw [List.count_eq_zero_of_not_mem hl, lastLine_of_not_mem hl, behindLines]
  | line l s hl ih =>
    have hcount : (l ++ '\n' :: s).count '\n' = s.count '\n' + 1 := by
      rw [List.count_append, List.count_eq_zero_of_not_mem hl, List.count_cons_self, Nat.zero_add]
    rw [hcount, List.append_assoc, List.cons_append, behindLines_append hl, ih, lastLine_append]

theorem behindPosition_ofText (u v : Text) : (u ++ v).behindPosition (.ofText u) = v := by
  have hcol : (Position.ofText u).col - 1 = (lastLine u).length := by
    rw [lastLine, List.length_reverse]
    rfl
  have hline : (Position.ofText u).line - 1 = u.count '\n' := rfl
  rw [behindPosition, hline, hcol, behindLines_count, List.drop_left]

theorem takeBytes?_append (u v : Text) : takeBytes? (bytes u) (u ++ v) = some u := by
  induction u with
  | nil => cases v <;> rfl
  | cons c u ih =>
    have hpos := c.utf8Size_pos
    obtain ⟨n, hn⟩ : ∃ n, bytes (c :: u) = n + 1 := ⟨c.utf8Size + bytes u - 1, by simp; omega⟩
    rw [bytes_cons] at hn
    have hrest : n + 1 - c.utf8Size = bytes u := by omega
    rw [bytes_cons, hn, List.cons_append, takeBytes?, if_pos (by omega), hrest, ih, Option.map_some]

theorem before_append (u v : Text) : (u ++ v).before (bytes u) = u := by
  rw [before, takeBytes?_append, Option.getD_some]

/-- A text falls into these lines. A line ends in CRLF, or in a LF that no CR comes before; the last
one may go on to the end of the text, if it is not empty. -/
inductive HasLines : Text → List Text → Prop
  | nil : HasLines [] []
  | last {l : Text} (hne : l ≠ []) (hl : '\n' ∉ l) : HasLines l [l]
  | line {l ending s : Text} {ls : List Text} (hl : '\n' ∉ l)
      (he : ending = ['\r', '\n'] ∨ ending = ['\n'] ∧ l.getLast? ≠ some '\r')
      (h : HasLines s ls) : HasLines (l ++ (ending ++ s)) (l :: ls)

theorem lines_of_not_mem {l : Text} (h : '\n' ∉ l) : lines l = if l = [] then [] else [l] := by
  rw [lines, splitOn_of_not_mem h]
  by_cases hl : l = [] <;> simp [hl]

theorem lines_append {l : Text} (h : '\n' ∉ l) (s : Text) :
    lines (l ++ '\n' :: s) = dropReturn l :: lines s := by
  obtain ⟨piece, pieces, hs⟩ := List.exists_cons_of_ne_nil (splitOn_ne_nil '\n' s)
  simp [lines, splitOn_append h, hs]

theorem hasLines_lines (s : Text) : HasLines s (lines s) := by
  induction s using line_induction with
  | last l hl =>
    rw [lines_of_not_mem hl]
    split
    · next hnil =>
      rw [hnil]
      exact .nil
    · next hne => exact .last hne hl
  | line l s hl ih =>
    rw [lines_append hl, dropReturn]
    split
    · next hr =>
      obtain ⟨l, rfl⟩ := List.getLast?_eq_some_iff.mp hr
      rw [List.dropLast_concat, List.append_assoc]
      exact @HasLines.line _ ['\r', '\n'] _ _ (mt (List.mem_append_left _) hl) (.inl rfl) ih
    · next hr => exact @HasLines.line _ ['\n'] _ _ hl (.inr ⟨rfl, hr⟩) ih

theorem HasLines.eq_lines {s : Text} {ls : List Text} (h : HasLines s ls) : ls = lines s := by
  induction h with
  | nil => rfl
  | last hne hl => rw [lines_of_not_mem hl, if_neg hne]
  | @line l ending s ls hl he _ ih =>
    obtain rfl | ⟨rfl, hr⟩ := he
    · have hsplit : l ++ (['\r', '\n'] ++ s) = (l ++ ['\r']) ++ '\n' :: s := by simp
      rw [hsplit, lines_append (by simp [hl]), ih]
      simp [dropReturn]
    · rw [List.singleton_append, lines_append hl, dropReturn, if_neg hr, ih]

theorem hasLines_iff {s : Text} {ls : List Text} : HasLines s ls ↔ ls = lines s :=
  ⟨HasLines.eq_lines, fun h => h ▸ hasLines_lines s⟩

theorem exists_lines_eq_cons {p : Text} (hne : p ≠ []) (hp : '\n' ∉ p)
    (hr : p.getLast? ≠ some '\r') (rest : Text) :
    ∃ l ls, lines (p ++ rest) = l :: ls ∧ p <+: l := by
  induction rest using line_induction with
  | last m hm =>
    refine ⟨p ++ m, [], ?_, List.prefix_append p m⟩
    rw [lines_of_not_mem (by simp [hp, hm]), if_neg (by simp [hne])]
  | line m s hm _ =>
    refine ⟨dropReturn (p ++ m), lines s, ?_, ?_⟩
    · rw [← List.append_assoc, lines_append (by simp [hp, hm])]
    · cases m using List.reverseRecOn with
      | nil => simp [dropReturn, hr]
      | append_singleton m c =>
        rw [dropReturn, ← List.append_assoc]
        split
        · simp
        · simp

theorem exists_line {before w : Text} (hne : w ≠ []) (hw : '\n' ∉ w ∧ '\r' ∉ w) (rest : Text) :
    ∃ l, (lines (before ++ (w ++ rest)))[before.count '\n']? = some l ∧
      lastLine before ++ w <+: l := by
  induction before using line_induction with
  | last b hb =>
    have hlast : (b ++ w).getLast? ≠ some '\r' := by
      obtain ⟨c, hc⟩ := Option.isSome_iff_exists.mp (List.getLast?_isSome.mpr hne)
      rw [List.getLast?_append, hc, Option.some_or]
      rintro ⟨⟩
      exact hw.2 (List.mem_of_getLast? hc)
    obtain ⟨l, ls, hl, hp⟩ := exists_lines_eq_cons (List.append_ne_nil_of_right_ne_nil b hne)
      (by simp [hb, hw.1]) hlast rest
    rw [List.append_assoc] at hl
    rw [hl, List.count_eq_zero_of_not_mem hb, lastLine_of_not_mem hb]
    exact ⟨l, rfl, hp⟩
  | line b s hb ih =>
    have hcount : (b ++ '\n' :: s).count '\n' = s.count '\n' + 1 := by
      rw [List.count_append, List.count_eq_zero_of_not_mem hb, List.count_cons_self, Nat.zero_add]
    rw [hcount, List.append_assoc, List.cons_append, lines_append hb, lastLine_append]
    exact ih

end Text

end Curly

import Curly.Proofs.Acceptance
import Curly.Proofs.Delimiter.LineEnd
import Curly.Proofs.Protection
import Curly.Proofs.Script.Truncation

namespace Curly

open Script

/-- A text without its last line ending, LF or CRLF. -/
def Text.chomp (s : Text) : Text :=
  if s.getLast? = some '\n' then Text.dropReturn s.dropLast else s

/-- Whether a tag leaves nothing in the script. -/
def Tag.isSilent (t : Tag Mark) : Bool :=
  (t.opening = .commentOpen || (t.opening = .runOpen && Text.trim t.content = [])) &&
    Draft.spareBrace t = []

namespace Segment

/-- What the script ends with behind the last brace that a tag or a protected text has in it, where
the text before the segment ends with `s`. -/
def plainBehind (s : Text) : Segment Mark → Text
  | .text t _ => if '{' ∈ t then t.drop (Fragment.shielded t).length else s ++ t
  | .tag t => if t.isSilent then s else []

def plainEnd (segs : List (Segment Mark)) : Text := segs.foldl plainBehind []

theorem plainEnd_append (segs : List (Segment Mark)) (seg : Segment Mark) :
    plainEnd (segs ++ [seg]) = plainBehind (plainEnd segs) seg := List.foldl_concat ..

end Segment

namespace Text

theorem dropReturn_concat (s : Text) (c : Char) :
    dropReturn (s ++ [c]) = if c = '\r' then s else s ++ [c] := by
  simp [dropReturn]

theorem exists_chomp (s : Text) :
    ∃ u : Text, (u = [] ∨ u = ['\n'] ∨ u = ['\r', '\n']) ∧ s = chomp s ++ u := by
  induction s using List.reverseRecOn with
  | nil => exact ⟨[], .inl rfl, rfl⟩
  | append_singleton s c _ =>
    by_cases hc : c = '\n'
    · subst hc
      have hchomp : chomp (s ++ ['\n']) = dropReturn s := by simp [chomp]
      rw [hchomp, dropReturn]
      split
      · next hr =>
        obtain ⟨v, rfl⟩ := List.getLast?_eq_some_iff.mp hr
        exact ⟨['\r', '\n'], .inr (.inr rfl), by simp⟩
      · exact ⟨['\n'], .inr (.inl rfl), rfl⟩
    · exact ⟨[], .inl rfl, by simp [chomp, hc]⟩

def EndsInBrace (s : Text) : Prop := s = [] ∨ s.getLast? = some '}'

theorem EndsInBrace.getLast?_ne {s : Text} (h : EndsInBrace s) {c : Char} (hc : c ≠ '}') :
    s.getLast? ≠ some c := by
  obtain rfl | h := h
  · exact nofun
  · rw [h]
    simpa using Ne.symm hc

theorem exists_dropReturn (s : Text) : ∃ u, u.IsLineEnd ∧ s = dropReturn s ++ u := by
  rw [dropReturn]
  split
  · next hr =>
    obtain ⟨v, rfl⟩ := List.getLast?_eq_some_iff.mp hr
    exact ⟨['\r'], by simp [IsLineEnd], by simp⟩
  · exact ⟨[], List.forall_mem_nil _, (List.append_nil s).symm⟩

end Text

namespace Script.Stmt

open Text

variable {front p : Text}

theorem exists_dropLineEnd (s : Text) : ∃ u, u.IsLineEnd ∧ s = dropLineEnd s ++ u := by
  rw [dropLineEnd]
  split
  · next hn =>
    obtain ⟨v, rfl⟩ := List.getLast?_eq_some_iff.mp hn
    obtain ⟨u, hu, hv⟩ := exists_dropReturn v
    refine ⟨u ++ ['\n'], ?_, ?_⟩
    · intro c hc
      obtain hc | hc := List.mem_append.mp hc
      · exact hu c hc
      · exact .inl (List.mem_singleton.mp hc)
    · rw [List.dropLast_concat, ← List.append_assoc, ← hv]
  · exact exists_dropReturn s

theorem dropReturn_append (hf : front.EndsInBrace) (p : Text) :
    dropReturn (front ++ p) = front ++ dropReturn p := by
  induction p using List.reverseRecOn with
  | nil => simp [dropReturn, hf.getLast?_ne]
  | append_singleton p c _ =>
    rw [← List.append_assoc, dropReturn_concat, dropReturn_concat]
    split <;> simp

theorem dropLineEnd_append (hf : front.EndsInBrace) (p : Text) :
    dropLineEnd (front ++ p) = front ++ dropLineEnd p := by
  rw [dropLineEnd, dropLineEnd, ← dropReturn_append hf]
  induction p using List.reverseRecOn with
  | nil => simp [hf.getLast?_ne]
  | append_singleton p c _ =>
    rw [← List.append_assoc, List.getLast?_concat, List.getLast?_concat, List.dropLast_concat,
      List.dropLast_concat, apply_ite (front ++ ·), List.append_assoc]

end Script.Stmt

namespace Source

theorem protectedText_of_mem {s : Text} (h : '{' ∈ s) :
    protectedText s = (Fragment.ofBody (Fragment.shielded s)).source ++
      s.drop (Fragment.shielded s).length := by
  rw [← Fragment.sources_ofText, Fragment.ofText, if_pos h]
  simp [Fragment.sources, Fragment.source]

theorem getLast?_ofBody (body : Text) : (Fragment.ofBody body).source.getLast? = some '}' := by
  unfold Fragment.ofBody
  split
  · exact getLast?_printed _
  · rw [Fragment.source, List.getLast?_append, getLast?_statement, Option.some_or]

theorem shielded_append_feed (s : Text) :
    Fragment.shielded (s ++ ['\n']) = Fragment.shielded s := by
  simp [Fragment.shielded]

theorem protectedText_append_feed (s : Text) :
    protectedText (s ++ ['\n']) = protectedText s ++ ['\n'] := by
  by_cases hs : '{' ∈ s
  · have hle : (Fragment.shielded s).length ≤ s.length := by
      conv => rhs; rw [← (Fragment.shielded_append s).1]
      rw [List.length_append]
      omega
    rw [protectedText_of_mem hs, protectedText_of_mem (List.mem_append_left _ hs),
      shielded_append_feed, List.drop_append_of_le_length hle, List.append_assoc]
  · simp [protectedText, hs]

theorem shielded_append_return (s : Text) :
    Fragment.shielded (s ++ ['\r', '\n']) = s ++ ['\r'] := by
  simp [Fragment.shielded]

theorem protectedText_append_return (s : Text) :
    protectedText (s ++ ['\r', '\n']) = protectedText (s ++ ['\r']) ++ ['\n'] := by
  have h := protectedText_append_feed (s ++ ['\r'])
  rwa [List.append_assoc] at h

end Source

namespace Draft

open Source Text

variable {table : RuleTable} {strict : Bool} {d d' : Draft}

theorem getLast?_write {s : Text} (h : s.getLast? = some '}') (d : Draft) :
    (d.write s).source.getLast? = some '}' := by
  rw [write, List.getLast?_append, h, Option.some_or]

theorem getLast?_addMeaning {m : Meaning} {unescaped : Bool} {offset : Nat}
    (h : d.addMeaning strict m unescaped offset = .ok d') : d'.source.getLast? = some '}' := by
  have houtput (expr : Text) : (output expr unescaped).getLast? = some '}' := by
    unfold output
    split <;> exact getLast?_printed _
  cases m with
  | opening name | inverted name | statement code =>
    cases h
    exact getLast?_write (getLast?_statement _) d
  | closing name =>
    change d.closeSection strict name offset = _ at h
    unfold closeSection at h
    split at h
    · cases h
    · cases h
      exact getLast?_write (getLast?_statement _) d
  | output expr =>
    cases h
    exact getLast?_write (houtput expr) d
  | current =>
    cases h
    exact getLast?_write (houtput _) d

/-- A tag leaves the script as it is or puts a brace at its end. -/
theorem source_addTag {t : Tag Mark} (h : d.addTag table strict t = .ok d') :
    if t.isSilent then d'.source = d.source else d'.source.getLast? = some '}' := by
  obtain ⟨-, d₁, hc, rfl⟩ := addTag_eq_ok_iff.mp h
  by_cases hb : spareBrace t = []
  · have hwrite : (d₁.write (spareBrace t)).source = d₁.source := by
      rw [hb]
      exact List.append_nil _
    rw [hwrite]
    obtain ⟨ho, rfl⟩ | ⟨ho, rfl⟩ | ⟨ho, unescaped, hm⟩ := addContent_eq_ok hc
    · simp [Tag.isSilent, ho, hb]
    · by_cases hcontent : Text.trim t.content = []
      · simp [Tag.isSilent, ho, hb, hcontent]
      · simp [Tag.isSilent, ho, hb, hcontent, getLast?_write (getLast?_statement _)]
    · have hloud : t.isSilent = false := by
        cases hopening : t.opening <;> simp_all [Tag.isSilent, Tag.interpolates]
      rw [hloud]
      exact getLast?_addMeaning hm
  · have hbrace : (spareBrace t).getLast? = some '}' := by
      revert hb
      unfold spareBrace
      split <;> simp
    simpa [Tag.isSilent, hb] using getLast?_write hbrace d₁

theorem source_addSegments {segs : List (Segment Mark)} {front p : Text}
    (h : addSegments table strict d segs = .ok d') (hf : front.EndsInBrace)
    (hd : d.source = front ++ p) :
    ∃ front', front'.EndsInBrace ∧ d'.source = front' ++ segs.foldl Segment.plainBehind p := by
  induction segs generalizing d front p with
  | nil =>
    cases h
    exact ⟨front, hf, hd⟩
  | cons seg segs ih =>
    obtain ⟨d₁, hseg, h⟩ := exists_of_bind_eq_ok h
    -- `front` ends in the last brace so far, and what stands behind it is counted from there.
    have hstep : ∃ front', front'.EndsInBrace ∧
        d₁.source = front' ++ Segment.plainBehind p seg := by
      cases seg with
      | text s offset =>
        cases hseg
        rw [Segment.plainBehind]
        by_cases hs : '{' ∈ s
        · refine ⟨d.source ++ (Fragment.ofBody (Fragment.shielded s)).source, ?_, ?_⟩
          · exact .inr (getLast?_write (getLast?_ofBody _) d)
          · rw [if_pos hs, write, protectedText_of_mem hs, List.append_assoc]
        · refine ⟨front, hf, ?_⟩
          rw [if_neg hs, write, protectedText, if_neg hs, hd, List.append_assoc]
      | tag t =>
        have htag := source_addTag hseg
        rw [Segment.plainBehind]
        split at htag
        · next hs => exact ⟨front, hf, by rw [if_pos hs, htag, hd]⟩
        · next hs => exact ⟨d₁.source, .inr htag, by rw [if_neg hs, List.append_nil]⟩
    obtain ⟨front', hf', hd'⟩ := hstep
    exact ih h hf' hd'

end Draft

namespace Source

open Text

variable {table : RuleTable} {strict : Bool} {s u source : Text} {segs : List (Segment Mark)}

theorem ofSegments_append_text (table : RuleTable) (strict : Bool) (segs : List (Segment Mark))
    (s : Text) (offset : Nat) :
    ofSegments table strict (segs ++ [.text s offset]) =
      (ofSegments table strict segs).map (· ++ protectedText s) := by
  rw [ofSegments, ofSegments, Draft.addSegments_append]
  cases Draft.addSegments table strict {} segs with
  | error c => rfl
  | ok d =>
    change (d.write (protectedText s)).finish strict = (d.finish strict).map _
    obtain ⟨source, _ | ⟨p, sections⟩⟩ := d
    · rfl
    · cases strict <;> rfl

theorem exists_plainEnd (h : ofSegments table strict segs = .ok source) :
    ∃ front, front.EndsInBrace ∧ source = front ++ Segment.plainEnd segs := by
  obtain ⟨d, hadd, hfinish⟩ := exists_of_bind_eq_ok h
  rw [Draft.source_of_finish hfinish]
  exact Draft.source_addSegments (p := []) hadd (.inl rfl) rfl

/-- A line end of the text is one of the script, unless a brace stands in the text before it. -/
theorem exists_ofSegments_of_lineEnd (hu : u.IsLineEnd) (hne : u ≠ [])
    (hs : Mark.table.segments (s ++ u) = .ok segs) (h : ofSegments table strict segs = .ok source) :
    ∃ source', ofTemplate table strict s = .ok source' ∧ (source = source' ++ u ∨
      ∃ front v, source' = front ++ protectedText v ∧ source = front ++ protectedText (v ++ u) ∧
        Segment.plainEnd segs = (v ++ u).drop (Fragment.shielded (v ++ u)).length) := by
  have hbrace : '{' ∉ u := fun hm => by
    have := hu _ hm
    revert this
    decide
  obtain ⟨segs', hs', rfl | ⟨before, v, start, rfl, rfl⟩⟩ :=
    Mark.exists_segments_of_lineEnd hu hne hs
  · rw [ofSegments_append_text, protectedText, if_neg hbrace] at h
    obtain ⟨source', h', rfl⟩ := exists_of_map_eq_ok h
    exact ⟨source', ofTemplate_eq_ok_iff.mpr ⟨segs', hs', h'⟩, .inl rfl⟩
  · rw [ofSegments_append_text] at h
    obtain ⟨front, h', rfl⟩ := exists_of_map_eq_ok h
    refine ⟨front ++ protectedText v, ofTemplate_eq_ok_iff.mpr ⟨_, hs', ?_⟩, ?_⟩
    · rw [ofSegments_append_text, h']
      rfl
    · by_cases hv : '{' ∈ v
      · refine .inr ⟨front, v, rfl, rfl, ?_⟩
        rw [Segment.plainEnd_append, Segment.plainBehind, if_pos (List.mem_append_left u hv)]
      · left
        simp [protectedText, hv, hbrace]

/-- The text without its last line ending has the script without its last one exactly if the two
line endings are the same. -/
theorem ofTemplate_chomp_iff {text front : Text} (hs : Mark.table.segments text = .ok segs)
    (h : ofSegments table strict segs = .ok (front ++ Segment.plainEnd segs))
    (hu : Segment.plainEnd segs = Stmt.dropLineEnd (Segment.plainEnd segs) ++ u) :
    ofTemplate table strict text.chomp =
        .ok (front ++ Stmt.dropLineEnd (Segment.plainEnd segs)) ↔
      text = text.chomp ++ u := by
  obtain ⟨w, hw, htext⟩ := exists_chomp text
  generalize text.chomp = s at htext
  subst htext
  rw [List.append_right_inj]
  have hcancel {source : Text} (hsource : front ++ Segment.plainEnd segs = source ++ w) :
      source = front ++ Stmt.dropLineEnd (Segment.plainEnd segs) ↔ w = u := by
    rw [hu, ← List.append_assoc] at hsource
    constructor
    · rintro rfl
      exact (List.append_cancel_left hsource).symm
    · rintro rfl
      exact (List.append_cancel_right hsource).symm
  by_cases hne : w = []
  · subst hne
    rw [List.append_nil] at hs
    have htemplate := ofTemplate_eq_ok_iff.mpr ⟨segs, hs, h⟩
    rw [htemplate, Except.ok.injEq]
    exact hcancel (List.append_nil _).symm
  · have hend : w.IsLineEnd := by
      obtain rfl | rfl | rfl := hw <;> simp [IsLineEnd]
    obtain ⟨source, htemplate, happend | ⟨before, v, rfl, hsource, hplain⟩⟩ :=
      exists_ofSegments_of_lineEnd hend hne hs h
    · rw [htemplate, Except.ok.injEq]
      exact hcancel happend
    · rw [htemplate, Except.ok.injEq]
      obtain rfl | rfl | rfl := hw
      · exact absurd rfl hne
      · apply hcancel
        rw [hsource, protectedText_append_feed, List.append_assoc]
      · -- The carriage return is protected, so that the script ends in a line feed only.
        have hfeed : Segment.plainEnd segs = ['\n'] := by
          rw [hplain, shielded_append_return]
          simp
        rw [hfeed] at hu hsource ⊢
        obtain rfl : u = ['\n'] := hu.symm
        rw [protectedText_append_return, ← List.append_assoc] at hsource
        obtain rfl := List.append_cancel_right hsource
        refine iff_of_false (fun he => ?_) (by simp)
        have hreturn := List.append_cancel_left (he.trans (List.append_nil _))
        simpa using Part.protectedText_injective hreturn

end Source

namespace Template

open Text Segment

variable {table : RuleTable} {helpers : HelperTable} {name text : Text} {o : Options} {T : Template}

theorem exists_ofScript_protectedText (helpers : HelperTable) (name s : Text)
    (hk : o.keepTrailingNewline = true) :
    ∃ T, ofScript helpers name (Source.protectedText s) o = .ok T ∧
      ∀ data extras, T.render data extras = .ok s := by
  obtain ⟨ss, hread, hsame⟩ :=
    @Source.Part.exists_readAll_protectedText Stmt.maxDepth (by decide) s
  refine ⟨_, ofScript_eq_ok_iff.mpr ⟨ss, hk ▸ hread, rfl⟩, fun data extras => ?_⟩
  have hrun (context : Catalog Value) (call : Text → List Value → Except EvalError Value) :
      Stmt.run context call o.escape ss = .ok s := by
    rw [Stmt.run_of_same hsame, Stmt.run, Stmt.outputs_text s]
    rfl
  simp only [render]
  rw [hrun]
  rfl

def RendersLike (T T' : Template) : Prop :=
  ∀ data extras, T.render data extras = T'.render data extras

/-- A template that is made with a line ending that is not kept leaves out the last one of its
script. That is the last one of the text if what the script ends with, outside of tags and of
protected text, has the same. -/
theorem renders_plainEnd (hk : o.keepTrailingNewline = true)
    (h : compile table helpers name text o = .ok T) :
    ∃ segs front u T' T₂, Mark.table.segments text = .ok segs ∧
      T.source = some (front ++ plainEnd segs) ∧
      plainEnd segs = Stmt.dropLineEnd (plainEnd segs) ++ u ∧
      compile table helpers name text { o with keepTrailingNewline := false } = .ok T' ∧
      ofScript helpers name (front ++ Stmt.dropLineEnd (plainEnd segs)) o = .ok T₂ ∧
      T'.RendersLike T₂ ∧
      (compile table helpers name text.chomp o = .ok T₂ ↔ text = text.chomp ++ u) ∧
      (T.RendersLike T' ∨
        ∀ data extras, T.render data extras = (T'.render data extras).map (· ++ u)) := by
  obtain ⟨source, hsource, h⟩ := compile_eq_ok_iff.mp h
  obtain ⟨statements, hread, rfl⟩ := ofScript_eq_ok_iff.mp h
  obtain ⟨segs, hsegs, hscript⟩ := Source.ofTemplate_eq_ok_iff.mp hsource
  obtain ⟨front, hfront, rfl⟩ := Source.exists_plainEnd hscript
  obtain ⟨u, hu, hplain⟩ := Stmt.exists_dropLineEnd (plainEnd segs)
  have hsplit : front ++ plainEnd segs = front ++ Stmt.dropLineEnd (plainEnd segs) ++ u := by
    rw [List.append_assoc, ← hplain]
  rw [hk, hsplit] at hread
  -- What is read with the line ending is read without it, and puts out the same but for that.
  obtain ⟨ss, hss, hsame⟩ := Stmt.exists_readAll_of_append hu.isBlank hread
  have hdropped : Stmt.readAll Stmt.maxDepth false (front ++ plainEnd segs) = .ok ss := by
    rw [← hss, ← Stmt.dropLineEnd_append hfront]
    rfl
  have hkept : ofScript helpers name (front ++ Stmt.dropLineEnd (plainEnd segs)) o =
      .ok ⟨name, .script (front ++ Stmt.dropLineEnd (plainEnd segs)) o.escape ss, helpers⟩ :=
    ofScript_eq_ok_iff.mpr ⟨ss, hk ▸ hss, rfl⟩
  refine ⟨segs, front, u, ⟨name, .script (front ++ plainEnd segs) o.escape ss, helpers⟩, _, hsegs,
    rfl, hplain, ?_, hkept, fun _ _ => rfl, ?_, ?_⟩
  · exact compile_eq_ok_iff.mpr ⟨_, hsource, ofScript_eq_ok_iff.mpr ⟨ss, hdropped, rfl⟩⟩
  · rw [← Source.ofTemplate_chomp_iff hsegs hscript hplain, compile_eq_ok_iff]
    constructor
    · rintro ⟨source, hs, h⟩
      obtain ⟨ss', -, he⟩ := ofScript_eq_ok_iff.mp h
      cases he
      exact hs
    · intro hs
      exact ⟨_, hs, hkept⟩
  · obtain hsame | hsame := hsame
    · right
      intro data extras
      simp only [render]
      rw [Stmt.run_of_same hsame, Stmt.run_append_text]
      cases Stmt.run _ _ _ ss <;> rfl
    · left
      intro data extras
      simp only [render]
      rw [Stmt.run_of_same hsame]

/-- Behind a brace the carriage return is protected, and only the line feed is left out. -/
theorem renders_plainEnd_return :
    ∃ T T' T₂, compile .stock {} "page".toList ['{', '\r', '\n'] {} = .ok T ∧
      compile .stock {} "page".toList ['{', '\r', '\n'] { keepTrailingNewline := false } = .ok T' ∧
      compile .stock {} "page".toList (chomp ['{', '\r', '\n']) {} = .ok T₂ ∧
      (∀ data extras, T'.render data extras = .ok ['{', '\r']) ∧
      ∀ data extras, T₂.render data extras = .ok ['{'] := by
  have hs : Mark.table.segments ['{', '\r', '\n'] = .ok [.text ['{', '\r', '\n'] 0] :=
    DelimiterTable.segments_of_toOption (by decide +kernel)
  have hs₂ : Mark.table.segments ['{'] = .ok [.text ['{'] 0] :=
    DelimiterTable.segments_of_toOption (by decide +kernel)
  have hfeed : Source.protectedText ['{', '\r', '\n'] =
      Source.protectedText ['{', '\r'] ++ ['\n'] := Source.protectedText_append_return ['{']
  obtain ⟨T, hT, -⟩ :=
    exists_ofScript_protectedText {} "page".toList ['{', '\r', '\n'] (o := {}) rfl
  obtain ⟨T₂, hT₂, hrender₂⟩ := exists_ofScript_protectedText {} "page".toList ['{'] (o := {}) rfl
  have h : compile .stock {} "page".toList ['{', '\r', '\n'] {} = .ok T :=
    compile_eq_ok_iff.mpr ⟨_, Source.ofTemplate_eq_ok_iff.mpr ⟨_, hs, rfl⟩, hT⟩
  have h₂ : compile .stock {} "page".toList ['{'] {} = .ok T₂ :=
    compile_eq_ok_iff.mpr ⟨_, Source.ofTemplate_eq_ok_iff.mpr ⟨_, hs₂, rfl⟩, hT₂⟩
  obtain ⟨segs, front, u, T', T₁, hsegs, hsource, -, hdropped, hkept, hlike, -, -⟩ :=
    renders_plainEnd rfl h
  obtain rfl := Except.ok.inj (hs.symm.trans hsegs)
  have hplain : plainEnd [.text ['{', '\r', '\n'] 0] = ['\n'] := by decide
  have hfront : front = Source.protectedText ['{', '\r'] := by
    obtain ⟨ss, -, rfl⟩ := ofScript_eq_ok_iff.mp hT
    rw [hplain] at hsource
    exact (List.append_cancel_right (hfeed.symm.trans (Option.some.inj hsource))).symm
  obtain ⟨T₃, hT₃, hrender₃⟩ :=
    exists_ofScript_protectedText {} "page".toList ['{', '\r'] (o := {}) rfl
  have hdrop : Stmt.dropLineEnd ['\n'] = [] := by decide
  rw [hplain, hfront, hdrop, List.append_nil, hT₃] at hkept
  obtain rfl := Except.ok.inj hkept
  exact ⟨T, T', T₂, h, hdropped, h₂, fun data extras => (hlike data extras).trans
    (hrender₃ data extras), hrender₂⟩

end Template

end Curly

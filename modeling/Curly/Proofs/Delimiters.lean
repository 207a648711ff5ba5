import Curly.Mark
import Curly.Proofs.Outcome

namespace Curly

/-- The tag runs from an opening delimiter to a closing one, and both are among the tokens. -/
def Tag.IsBetween {κ : Type} (tokens : List (Token κ)) (t : Tag κ) : Prop :=
  .delimiter t.opening .opening t.openText t.offset ∈ tokens ∧
    ∃ offset, .delimiter t.closing .closing t.closeText offset ∈ tokens

namespace DelimiterTable

variable {κ : Type}

theorem exists_of_ofDelimiters {defs : List (Delimiter κ)} {t : DelimiterTable κ}
    (h : ofDelimiters defs = .ok t) :
    ∃ ps, defs.mapM checkedPattern = .ok ps ∧ (choice 0 ps).names.Nodup ∧
      t = ⟨defs, choice 0 ps⟩ := by
  unfold ofDelimiters at h
  split at h
  · cases h
  · obtain ⟨ps, hm, h⟩ := exists_of_bind_eq_ok h
    dsimp only at h
    split at h
    · next hn =>
      cases h
      exact ⟨ps, hm, hn, rfl⟩
    · cases h

theorem defs_of_ofDelimiters {defs : List (Delimiter κ)} {t : DelimiterTable κ}
    (h : ofDelimiters defs = .ok t) : t.defs = defs := by
  obtain ⟨ps, -, -, rfl⟩ := exists_of_ofDelimiters h
  rfl

/-- Whether a token carries the kind and the role of one of the definitions. -/
def IsDefined (t : DelimiterTable κ) : Token κ → Prop
  | .text _ _ => True
  | .delimiter kind role _ _ => ∃ d ∈ t.defs, d.kind = kind ∧ d.role = role

theorem mem_defs_of_find? {t : DelimiterTable κ} {place : Nat} {s : Text} {d : Delimiter κ}
    {hit : Hit} (h : t.find? place s = some (d, hit)) : d ∈ t.defs := by
  simp only [find?, Option.bind_eq_bind, Option.bind_eq_some_iff, Option.some.injEq,
    Prod.mk.injEq, defOf?, Option.map_eq_some_iff] at h
  obtain ⟨_, -, _, ⟨⟨e, i⟩, he, rfl⟩, rfl, -⟩ := h
  exact (List.mem_zipIdx (List.mem_of_find?_eq_some he)).2.2 ▸ List.getElem_mem _

theorem isDefined_of_mem_tokensFrom (t : DelimiterTable κ) (place offset : Nat) (s : Text) :
    ∀ token ∈ t.tokensFrom place offset s, t.IsDefined token := by
  fun_induction tokensFrom t place offset s with
  | case1 => simp
  | case2 => simp [IsDefined]
  | case3 place offset s _ d hit hf _ start found hb ih =>
    intro token hm
    obtain rfl | hm := List.mem_cons.mp hm
    · exact ⟨d, mem_defs_of_find? hf, rfl, rfl⟩
    · exact ih token hm
  | case4 place offset s _ d hit hf _ start found hb ih =>
    intro token hm
    obtain rfl | hm := List.mem_cons.mp hm
    · trivial
    · obtain rfl | hm := List.mem_cons.mp hm
      · exact ⟨d, mem_defs_of_find? hf, rfl, rfl⟩
      · exact ih token hm
  | case5 => simp [IsDefined]

theorem tokensFrom_eq {t : DelimiterTable κ} {place offset : Nat} {s : Text} {d : Delimiter κ}
    {hit : Hit} (h : t.find? place s = some (d, hit)) (hlt : hit.rest.length < s.length) :
    t.tokensFrom place offset s =
      (if hit.before = [] then [] else [.text hit.before offset]) ++
        .delimiter d.kind d.role hit.text (offset + Text.bytes hit.before) ::
          t.tokensFrom (place + hit.before.length + hit.text.length)
            (offset + Text.bytes hit.before + Text.bytes hit.text) hit.rest := by
  have hs : s ≠ [] := List.length_pos_iff.mp (Nat.zero_lt_of_lt hlt)
  rw [tokensFrom, if_neg hs, h]
  simp only [if_pos hlt]
  by_cases hb : hit.before = []
  · simp [hb]
  · simp [hb]

theorem mem_addText {s : Text} {offset : Nat} {done : List (Segment κ)} {tag : Tag κ}
    (h : .tag tag ∈ Segment.addText s offset done) : .tag tag ∈ done := by
  unfold Segment.addText at h
  split at h
  · simpa using h
  · split at h
    · exact h
    · simpa using h

theorem isBetween_of_mem_pairFrom {input : Text} {all tokens : List (Token κ)}
    {done segs : List (Segment κ)} {waiting : Option (OpenTag κ)}
    (ht : ∀ token ∈ tokens, token ∈ all) (hd : ∀ tag, .tag tag ∈ done → tag.IsBetween all)
    (hw : ∀ o, waiting = some o → .delimiter o.kind .opening o.openText o.offset ∈ all)
    (h : pairFrom input done waiting tokens = .ok segs) :
    ∀ tag, .tag tag ∈ segs → tag.IsBetween all := by
  induction tokens generalizing done waiting with
  | nil =>
    cases waiting with
    | none =>
      simp only [pairFrom, Except.ok.injEq] at h
      intro tag hm
      exact hd tag (by simpa [← h] using hm)
    | some o => simp [pairFrom] at h
  | cons token tokens ih =>
    have ht' := fun token hm => ht token (List.mem_cons_of_mem _ hm)
    have htoken := ht token (List.mem_cons_self ..)
    cases token with
    | text s offset =>
      cases waiting with
      | none => exact ih ht' (fun tag hm => hd tag (mem_addText hm)) (by simp) h
      | some o =>
        refine ih ht' hd ?_ h
        rintro _ ⟨⟩
        exact hw o rfl
    | delimiter kind role s offset =>
      cases role with
      | opening =>
        cases waiting with
        | none =>
          refine ih ht' hd ?_ h
          rintro _ ⟨⟩
          exact htoken
        | some o => simp [pairFrom] at h
      | closing =>
        cases waiting with
        | none => exact ih ht' (fun tag hm => hd tag (mem_addText hm)) (by simp) h
        | some o =>
          refine ih ht' (fun tag hm => ?_) (by simp) h
          obtain he | hm := List.mem_cons.mp hm
          · cases he
            exact ⟨hw o rfl, offset, htoken⟩
          · exact hd tag hm

theorem isBetween_of_mem_segments {t : DelimiterTable κ} {s : Text} {segs : List (Segment κ)}
    (h : t.segments s = .ok segs) {tag : Tag κ} (hm : .tag tag ∈ segs) :
    tag.IsBetween (t.tokens s) :=
  isBetween_of_mem_pairFrom (fun _ hm => hm) (by simp) (by simp) h tag hm

theorem segments_of_toOption {t : DelimiterTable κ} {s : Text} {segs : List (Segment κ)}
    (h : (t.segments s).toOption = some segs) : t.segments s = .ok segs := by
  cases hs : t.segments s with
  | error e =>
    rw [hs] at h
    cases h
  | ok segs' =>
    rw [hs] at h
    rw [Option.some.inj h]

theorem find?_of_match? {t : DelimiterTable κ} {place : Nat} {w rest : Text} {names : List Text}
    {d : Delimiter κ}
    (hm : t.pattern.match? ⟨place, w ++ rest, []⟩ = some ⟨place + w.length, rest, names⟩)
    (hd : t.defOf? names = some d) :
    t.find? place (w ++ rest) = some (d, ⟨[], w, rest, names⟩) := by
  simp [find?, Pattern.search?.eq_def, hm, hd]

theorem search?_append {p : Pattern} {quiet : Char → Prop}
    (hq : ∀ (place : Nat) (c : Char) (s : Text), quiet c → p.match? ⟨place, c :: s, []⟩ = none)
    (place : Nat) (w s : Text) (hw : ∀ c ∈ w, quiet c) :
    p.search? place (w ++ s) = (p.search? (place + w.length) s).map fun hit =>
      { hit with before := w ++ hit.before } := by
  induction w generalizing place with
  | nil => simp
  | cons c w ih =>
    have hc := hq place c (w ++ s) (hw c (List.mem_cons_self ..))
    have hlen : place + (c :: w).length = place + 1 + w.length := by
      simp only [List.length_cons]
      omega
    rw [List.cons_append, Pattern.search?, hc, hlen]
    simp only
    rw [ih (place + 1) fun d hd => hw d (List.mem_cons_of_mem _ hd), Option.map_map]
    rfl

theorem find?_append {t : DelimiterTable κ} {quiet : Char → Prop}
    (hq : ∀ (place : Nat) (c : Char) (s : Text), quiet c →
      t.pattern.match? ⟨place, c :: s, []⟩ = none)
    (place : Nat) (w s : Text) (hw : ∀ c ∈ w, quiet c) :
    t.find? place (w ++ s) = (t.find? (place + w.length) s).map fun (d, hit) =>
      (d, { hit with before := w ++ hit.before }) := by
  simp only [find?, search?_append hq place w s hw]
  cases t.pattern.search? (place + w.length) s with
  | none => rfl
  | some hit => cases hd : t.defOf? hit.names <;> simp [hd]

end DelimiterTable

namespace Mark

def pattern : Mark → Pattern
  | verbatimOpen =>
    .seq (.one (.single '{')) (.seq (.one (.single '{'))
      (.one (.union (.union .empty (.single '{')) (.single '&'))))
  | commentOpen =>
    let bang : Pattern :=
      .seq (.one (.single '{')) (.seq (.one (.single '{')) (.one (.single '!')))
    .alt (.seq (.one (.single '\n')) (.seq (.star true (.one .blank)) bang)) bang
  | m => .literal m.literal

theorem defs_table : table.defs = delimiters :=
  DelimiterTable.defs_of_ofDelimiters ofDelimiters_delimiters

theorem pattern_table :
    table.pattern = DelimiterTable.choice 0 (delimiters.map fun d => d.kind.pattern) := by
  decide +kernel

theorem role_of_mem_delimiters {d : Delimiter Mark} (h : d ∈ delimiters) :
    d.role = d.kind.role := by
  rw [delimiters, List.mem_map] at h
  obtain ⟨m, -, rfl⟩ := h
  rfl

theorem role_of_mem_tokens {s w : Text} {m : Mark} {role : Role} {offset : Nat}
    (h : .delimiter m role w offset ∈ table.tokens s) : m.role = role := by
  obtain ⟨d, hd, rfl, rfl⟩ := DelimiterTable.isDefined_of_mem_tokensFrom table 0 0 s _ h
  exact (role_of_mem_delimiters (defs_table ▸ hd)).symm

theorem role_of_mem_segments {s : Text} {segs : List (Segment Mark)}
    (h : table.segments s = .ok segs) {t : Tag Mark} (hm : .tag t ∈ segs) :
    t.opening.role = .opening ∧ t.closing.role = .closing := by
  obtain ⟨ho, _, hc⟩ := DelimiterTable.isBetween_of_mem_segments h hm
  exact ⟨role_of_mem_tokens ho, role_of_mem_tokens hc⟩

/-- A character that no delimiter starts with. -/
def IsQuiet (c : Char) : Prop := c ∉ ['{', '}', '$', '\n']

instance (c : Char) : Decidable (IsQuiet c) :=
  inferInstanceAs (Decidable (c ∉ ['{', '}', '$', '\n']))

theorem match?_of_isQuiet (place : Nat) (c : Char) (s : Text) (h : IsQuiet c) :
    table.pattern.match? ⟨place, c :: s, []⟩ = none := by
  simp only [IsQuiet, List.mem_cons, List.not_mem_nil, or_false, not_or] at h
  simp [pattern_table, delimiters, delimiter, pattern, literal, Pattern.match?,
    DelimiterTable.choice, Pattern.literal, Cursor.enter, h, Pattern.never, CharSet.has]

theorem find?_plainOpen (place : Nat) {c : Char} (s : Text)
    (h : c ∉ ['$', '{', '&', '!', '~']) :
    table.find? place (literal plainOpen ++ c :: s) =
      some (plainOpen.delimiter,
        ⟨[], literal plainOpen, c :: s, [DelimiterTable.groupName 5]⟩) := by
  simp only [List.mem_cons, List.not_mem_nil, or_false, not_or] at h
  refine DelimiterTable.find?_of_match? ?_ ?_
  · simp [pattern_table, delimiters, delimiter, pattern, literal, Pattern.match?,
      DelimiterTable.choice, Pattern.literal, Cursor.enter, h, CharSet.has]
  · rw [DelimiterTable.defOf?, defs_table]
    decide

theorem find?_close (place : Nat) {s : Text} (h : s.head? ≠ some '}') :
    table.find? place (literal close ++ s) =
      some (close.delimiter, ⟨[], literal close, s, [DelimiterTable.groupName 7]⟩) := by
  refine DelimiterTable.find?_of_match? ?_ ?_
  · cases s with
    | nil =>
      simp [pattern_table, delimiters, delimiter, pattern, literal, Pattern.match?,
        DelimiterTable.choice, Pattern.literal, Cursor.enter]
    | cons c s =>
      have hc : c ≠ '}' := by simpa using h
      simp [pattern_table, delimiters, delimiter, pattern, literal, Pattern.match?,
        DelimiterTable.choice, Pattern.literal, Cursor.enter, hc]
  · rw [DelimiterTable.defOf?, defs_table]
    decide

theorem find?_verbatimOpen (place : Nat) (s : Text) :
    table.find? place (literal verbatimOpen ++ s) =
      some (verbatimOpen.delimiter,
        ⟨[], literal verbatimOpen, s, [DelimiterTable.groupName 2]⟩) := by
  refine DelimiterTable.find?_of_match? ?_ ?_
  · simp [pattern_table, delimiters, delimiter, pattern, literal, Pattern.match?,
      DelimiterTable.choice, Pattern.literal, Cursor.enter, CharSet.has]
  · rw [DelimiterTable.defOf?, defs_table]
    decide

theorem find?_ampersand (place : Nat) (s : Text) :
    table.find? place ('{' :: '{' :: '&' :: s) =
      some (verbatimOpen.delimiter, ⟨[], ['{', '{', '&'], s, [DelimiterTable.groupName 2]⟩) := by
  refine DelimiterTable.find?_of_match? (w := ['{', '{', '&']) ?_ ?_
  · simp [pattern_table, delimiters, delimiter, pattern, literal, Pattern.match?,
      DelimiterTable.choice, Pattern.literal, Cursor.enter, CharSet.has]
  · rw [DelimiterTable.defOf?, defs_table]
    decide

theorem find?_tripleClose (place : Nat) (s : Text) :
    table.find? place (literal tripleClose ++ s) =
      some (tripleClose.delimiter,
        ⟨[], literal tripleClose, s, [DelimiterTable.groupName 6]⟩) := by
  refine DelimiterTable.find?_of_match? ?_ ?_
  · simp [pattern_table, delimiters, delimiter, pattern, literal, Pattern.match?,
      DelimiterTable.choice, Pattern.literal, Cursor.enter]
  · rw [DelimiterTable.defOf?, defs_table]
    decide

/-- Text without the first characters of delimiters is one token before the next delimiter. -/
theorem tokensFrom_quiet {place offset : Nat} {w u s : Text} {m : Mark} {names : List Text}
    (hw : w ≠ []) (hq : ∀ d ∈ w, IsQuiet d)
    (hu : ∀ place, table.find? place (u ++ s) = some (m.delimiter, ⟨[], u, s, names⟩))
    (hne : u ≠ []) :
    table.tokensFrom place offset (w ++ (u ++ s)) =
      .text w offset :: table.tokensFrom (place + w.length) (offset + Text.bytes w) (u ++ s) := by
  have hfound : table.find? place (w ++ (u ++ s)) = some (m.delimiter, ⟨w, u, s, names⟩) := by
    have h := DelimiterTable.find?_append match?_of_isQuiet place w (u ++ s) hq
    rw [hu] at h
    simpa using h
  have hlen := List.length_pos_iff.mpr hne
  rw [DelimiterTable.tokensFrom_eq hfound (by simp; omega),
    DelimiterTable.tokensFrom_eq (hu _) (by simp; omega)]
  simp [hw]

theorem tokensFrom_delimiter {place offset : Nat} {u s : Text} {m : Mark} {names : List Text}
    (hu : table.find? place (u ++ s) = some (m.delimiter, ⟨[], u, s, names⟩)) (hne : u ≠ []) :
    table.tokensFrom place offset (u ++ s) =
      .delimiter m m.role u offset ::
        table.tokensFrom (place + u.length) (offset + Text.bytes u) s := by
  have hlen := List.length_pos_iff.mpr hne
  rw [DelimiterTable.tokensFrom_eq hu (by simp; omega)]
  simp [delimiter]

def braced (c : Char) (content : Text) : Text := literal plainOpen ++ c :: content ++ literal close

theorem braced_append (c : Char) (content s : Text) :
    braced c content ++ s = literal plainOpen ++ (c :: content ++ (literal close ++ s)) := by
  simp [braced]

theorem find?_braced (place : Nat) {c : Char} (content s : Text)
    (hc : c ∉ ['$', '{', '&', '!', '~']) :
    table.find? place (literal plainOpen ++ (c :: content ++ (literal close ++ s))) =
      some (plainOpen.delimiter, ⟨[], literal plainOpen, c :: content ++ (literal close ++ s),
        [DelimiterTable.groupName 5]⟩) :=
  find?_plainOpen place _ hc

theorem tokensFrom_braced (place offset : Nat) {c : Char} {content s : Text}
    (hc : c ∉ ['$', '{', '&', '!', '~']) (hq : ∀ d ∈ c :: content, IsQuiet d)
    (hs : s.head? ≠ some '}') :
    ∃ offset', table.tokensFrom place offset (braced c content ++ s) =
      .delimiter .plainOpen .opening (literal plainOpen) offset ::
        .text (c :: content) (offset + 2) ::
          .delimiter .close .closing (literal close) offset' ::
            table.tokensFrom (place + (braced c content).length)
              (offset + Text.bytes (braced c content)) s := by
  have hplace : place + (literal plainOpen).length + (c :: content).length +
      (literal close).length = place + (braced c content).length := by
    simp only [braced, List.length_append]
    omega
  have hoffset : offset + Text.bytes (literal plainOpen) + Text.bytes (c :: content) +
      Text.bytes (literal close) = offset + Text.bytes (braced c content) := by
    simp only [braced, Text.bytes_append]
    omega
  rw [braced_append, tokensFrom_delimiter (find?_braced place content s hc) (List.cons_ne_nil _ _),
    tokensFrom_quiet (List.cons_ne_nil c content) hq (fun _ => find?_close _ hs)
      (List.cons_ne_nil _ _),
    tokensFrom_delimiter (find?_close _ hs) (List.cons_ne_nil _ _), hplace, hoffset]
  exact ⟨_, rfl⟩

def bracedTag (c : Char) (content : Text) (offset : Nat) : Tag Mark where
  opening := .plainOpen
  openText := literal plainOpen
  content := c :: content
  closing := .close
  closeText := literal close
  offset := offset

theorem pairFrom_braced (input : Text) (done : List (Segment Mark)) (place offset : Nat) {c : Char}
    {content s : Text} (hc : c ∉ ['$', '{', '&', '!', '~']) (hq : ∀ d ∈ c :: content, IsQuiet d)
    (hs : s.head? ≠ some '}') :
    DelimiterTable.pairFrom input done none
        (table.tokensFrom place offset (braced c content ++ s)) =
      DelimiterTable.pairFrom input (.tag (bracedTag c content offset) :: done) none
        (table.tokensFrom (place + (braced c content).length)
          (offset + Text.bytes (braced c content)) s) := by
  obtain ⟨offset', h⟩ := tokensFrom_braced place offset hc hq hs
  rw [h]
  rfl

theorem pairFrom_quiet (input : Text) (done : List (Segment Mark)) (place offset : Nat) {w : Text}
    {c : Char} {content s : Text} (hw : w ≠ []) (hwq : ∀ d ∈ w, IsQuiet d)
    (hc : c ∉ ['$', '{', '&', '!', '~']) :
    DelimiterTable.pairFrom input done none
        (table.tokensFrom place offset (w ++ (braced c content ++ s))) =
      DelimiterTable.pairFrom input (Segment.addText w offset done) none
        (table.tokensFrom (place + w.length) (offset + Text.bytes w) (braced c content ++ s)) := by
  rw [braced_append, tokensFrom_quiet hw hwq (fun place => find?_braced place content s hc)
    (List.cons_ne_nil _ _)]
  rfl

/-- Quiet content between an opening and a closing delimiter is one tag. -/
theorem segments_enclosed {m m' : Mark} {u v content : Text} {names names' : List Text}
    (hm : m.role = .opening) (hm' : m'.role = .closing) (hu : u ≠ []) (hv : v ≠ [])
    (hopen : table.find? 0 (u ++ (content ++ v)) =
      some (m.delimiter, ⟨[], u, content ++ v, names⟩))
    (hclose : ∀ place, table.find? place (v ++ []) = some (m'.delimiter, ⟨[], v, [], names'⟩))
    (hne : content ≠ []) (hq : ∀ d ∈ content, IsQuiet d) :
    table.segments (u ++ (content ++ v)) = .ok [.tag ⟨m, u, content, m', v, 0⟩] := by
  have htokens : table.tokens (u ++ (content ++ v)) =
      [.delimiter m .opening u 0, .text content (0 + Text.bytes u),
        .delimiter m' .closing v (0 + Text.bytes u + Text.bytes content)] := by
    have hcontent (place offset : Nat) := @tokensFrom_quiet place offset _ _ _ _ _ hne hq hclose hv
    have hlast (place offset : Nat) := @tokensFrom_delimiter place offset _ _ _ _ (hclose place) hv
    simp only [List.append_nil] at hcontent hlast
    rw [DelimiterTable.tokens, tokensFrom_delimiter hopen hu, hm, hcontent, hlast, hm',
      DelimiterTable.tokensFrom, if_pos rfl]
  rw [DelimiterTable.segments, htokens]
  rfl

def tripled (content : Text) : Text := literal verbatimOpen ++ (content ++ literal tripleClose)

def tripledTag (content : Text) : Tag Mark where
  opening := .verbatimOpen
  openText := literal verbatimOpen
  content := content
  closing := .tripleClose
  closeText := literal tripleClose
  offset := 0

theorem segments_tripled {content : Text} (hne : content ≠ []) (hq : ∀ d ∈ content, IsQuiet d) :
    table.segments (tripled content) = .ok [.tag (tripledTag content)] :=
  segments_enclosed rfl rfl (List.cons_ne_nil _ _) (List.cons_ne_nil _ _)
    (find?_verbatimOpen 0 _) (fun place => find?_tripleClose place []) hne hq

def bracedTags : (offset : Nat) → List (Char × Text) → List (Tag Mark)
  | _, [] => []
  | offset, (c, content) :: rest =>
    bracedTag c content offset :: bracedTags (offset + Text.bytes (braced c content)) rest

theorem bracedTags_append (offset : Nat) (before behind : List (Char × Text)) :
    ∃ offset', bracedTags offset (before ++ behind) =
      bracedTags offset before ++ bracedTags offset' behind := by
  induction before generalizing offset with
  | nil => exact ⟨offset, rfl⟩
  | cons p before ih =>
    obtain ⟨offset', h⟩ := ih (offset + Text.bytes (braced p.1 p.2))
    exact ⟨offset', congrArg (bracedTag p.1 p.2 offset :: ·) h⟩

theorem bracedTags_replicate (offset depth : Nat) (c : Char) (content : Text) :
    (bracedTags offset (List.replicate depth (c, content))).length = depth ∧
      ∀ t ∈ bracedTags offset (List.replicate depth (c, content)),
        ∃ offset', t = bracedTag c content offset' := by
  induction depth generalizing offset with
  | zero => exact ⟨rfl, by simp [bracedTags]⟩
  | succ depth ih =>
    obtain ⟨hl, ht⟩ := ih (offset + Text.bytes (braced c content))
    rw [List.replicate_succ, bracedTags]
    refine ⟨by rw [List.length_cons, hl], fun t hm => ?_⟩
    obtain rfl | hm := List.mem_cons.mp hm
    · exact ⟨offset, rfl⟩
    · exact ht t hm

theorem segments_braced {contents : List (Char × Text)}
    (h : ∀ p ∈ contents, p.1 ∉ ['$', '{', '&', '!', '~'] ∧ ∀ d ∈ p.1 :: p.2, IsQuiet d) :
    table.segments (contents.flatMap fun p => braced p.1 p.2) =
      .ok ((bracedTags 0 contents).map .tag) := by
  have hpair (input : Text) (done : List (Segment Mark)) (place offset : Nat) :
      DelimiterTable.pairFrom input done none
          (table.tokensFrom place offset (contents.flatMap fun p => braced p.1 p.2)) =
        .ok (done.reverse ++ (bracedTags offset contents).map .tag) := by
    induction contents generalizing done place offset with
    | nil =>
      rw [List.flatMap_nil, DelimiterTable.tokensFrom, if_pos rfl]
      simp [DelimiterTable.pairFrom, bracedTags]
    | cons p contents ih =>
      obtain ⟨c, content⟩ := p
      obtain ⟨hc, hq⟩ := h _ (List.mem_cons_self ..)
      have hhead : (contents.flatMap fun p => braced p.1 p.2).head? ≠ some '}' := by
        cases contents with
        | nil => simp
        | cons p contents => simp [braced, literal]
      rw [List.flatMap_cons, pairFrom_braced _ _ _ _ hc hq hhead,
        ih fun p hp => h p (List.mem_cons_of_mem _ hp)]
      simp [bracedTags]
  exact hpair _ [] 0 0

end Mark

end Curly

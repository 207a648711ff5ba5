import Curly.Proofs.Delimiter.Tokens

namespace Curly

open Located

namespace Role

/-- The roles without the closing delimiters that are met outside of a tag. -/
def withoutStray : (inside : Bool) → List Role → List Role
  | _, [] => []
  | _, .opening :: rs => .opening :: withoutStray true rs
  | true, .closing :: rs => .closing :: withoutStray false rs
  | false, .closing :: rs => withoutStray false rs

/-- Opening and closing delimiters take turns, and the last one is closing. -/
inductive Alternates : (inside : Bool) → List Role → Prop
  | nil : Alternates false []
  | opening {rs : List Role} (h : Alternates true rs) : Alternates false (.opening :: rs)
  | closing {rs : List Role} (h : Alternates false rs) : Alternates true (.closing :: rs)

theorem alternates_opening {rs : List Role} :
    Alternates false (.opening :: rs) ↔ Alternates true rs :=
  ⟨fun | .opening h => h, .opening⟩

theorem alternates_closing {rs : List Role} :
    Alternates true (.closing :: rs) ↔ Alternates false rs :=
  ⟨fun | .closing h => h, .closing⟩

end Role

namespace Token

variable {κ : Type}

def role? : Token κ → Option Role
  | .text _ _ => none
  | .delimiter _ role _ _ => some role

def roles (tokens : List (Token κ)) : List Role := tokens.filterMap role?

def EndInside (tokens : List (Token κ)) : Prop := (roles tokens).getLast? = some .opening

/-- Some opening delimiter comes while a tag is open. -/
def HaveNested (tokens : List (Token κ)) : Prop :=
  ∃ read kind s offset behind,
    tokens = read ++ .delimiter kind .opening s offset :: behind ∧ EndInside read

theorem roles_concat (tokens : List (Token κ)) (token : Token κ) :
    roles (tokens ++ [token]) = roles tokens ++ token.role?.toList := by
  rw [roles, List.filterMap_append]
  cases h : token.role? <;> simp [roles, h]

end Token

/-- The error is about a delimiter that stands behind `before`: its place is the first character
there that is no blank. -/
def PairingError.IsAt (e : PairingError) (input before delimiter : Text) : Prop :=
  ∃ lead, delimiter = lead ++ e.opening ∧ (∀ c ∈ lead, Text.isBlank c = true) ∧
    (∀ c ∈ e.opening.head?, Text.isBlank c = false) ∧ e.offset = Text.bytes (before ++ lead) ∧
    e.position = .ofOffset input e.offset

theorem PairingError.isAt_ofOpening (cause : Mispairing) (input before delimiter : Text) :
    (ofOpening cause input delimiter (Text.bytes before)).IsAt input before delimiter := by
  refine ⟨delimiter.takeWhile Text.isBlank, (List.takeWhile_append_dropWhile ..).symm,
    fun c hc => List.all_eq_true.mp List.all_takeWhile c hc, fun c hc => ?_, ?_, rfl⟩
  · have hd := List.head?_dropWhile_not Text.isBlank delimiter
    simp only [ofOpening, Text.trimStart] at hc
    rw [Option.mem_def.mp hc] at hd
    simpa using hd
  · rw [Text.bytes_append]
    rfl

namespace Segment

variable {κ : Type}

/-- A piece of the text lies inside a text segment. -/
def Holds (segs : List (Segment κ)) (s : Text) (offset : Nat) : Prop :=
  ∃ u start before behind, .text u start ∈ segs ∧ u = before ++ (s ++ behind) ∧
    offset = start + Text.bytes before

theorem addText_cases {s : Text} (hs : s ≠ []) (offset : Nat) (done : List (Segment κ)) :
    (∃ u start rest, done = .text u start :: rest ∧
        addText s offset done = .text (u ++ s) start :: rest) ∨
      ((∀ x ∈ done.head?, ¬IsText x) ∧ addText s offset done = .text s offset :: done) := by
  cases done with
  | nil => exact .inr ⟨by simp, if_neg hs⟩
  | cons x rest =>
    cases x with
    | text u start => exact .inl ⟨u, start, rest, rfl, rfl⟩
    | tag tag =>
      refine .inr ⟨?_, if_neg hs⟩
      rintro _ ⟨⟩
      exact id

theorem laid_addText {s : Text} (hs : s ≠ []) {offset : Nat} {done : List (Segment κ)}
    (hd : Laid 0 done.reverse) (ho : offset = Text.bytes (sources done.reverse)) :
    Laid 0 (addText s offset done).reverse ∧
      sources (addText s offset done).reverse = sources done.reverse ++ s := by
  obtain ⟨u, start, rest, rfl, he⟩ | ⟨hhead, he⟩ := addText_cases hs offset done
  · rw [he]
    rw [List.reverse_cons] at hd ⊢
    obtain ⟨hrest, -, hstart, hj⟩ := laid_concat.mp hd
    have hne : u ++ s ≠ [] := List.append_ne_nil_of_right_ne_nil u hs
    refine ⟨laid_concat.mpr ⟨hrest, hne, hstart, hj⟩, ?_⟩
    simp [source]
  · rw [he, List.reverse_cons]
    refine ⟨laid_concat.mpr ⟨hd, hs, by rw [Nat.zero_add]; exact ho, fun x hx h => ?_⟩, ?_⟩
    · rw [List.getLast?_reverse] at hx
      exact hhead x hx h.1
    · simp [source]

theorem Holds.cons {segs : List (Segment κ)} {s : Text} {offset : Nat} (h : Holds segs s offset)
    (x : Segment κ) : Holds (x :: segs) s offset := by
  obtain ⟨u, start, before, behind, hm, hu, ho⟩ := h
  exact ⟨u, start, before, behind, List.mem_cons_of_mem x hm, hu, ho⟩

theorem Holds.addText {segs : List (Segment κ)} {s v : Text} {offset place : Nat}
    (h : Holds segs s offset) (hv : v ≠ []) : Holds (addText v place segs) s offset := by
  obtain ⟨w, start, rest, rfl, he⟩ | ⟨-, he⟩ := addText_cases hv place segs
  · rw [he]
    obtain ⟨u, o, before, behind, hm, hu, ho⟩ := h
    obtain hm | hm := List.mem_cons.mp hm
    · obtain ⟨rfl, rfl⟩ := Segment.text.inj hm
      refine ⟨u ++ v, o, before, behind ++ v, List.mem_cons_self .., ?_, ho⟩
      rw [hu, List.append_assoc, List.append_assoc]
    · exact ⟨u, o, before, behind, List.mem_cons_of_mem _ hm, hu, ho⟩
  · rw [he]
    exact h.cons _

theorem holds_addText {done : List (Segment κ)} {s : Text} (hs : s ≠ []) {offset : Nat}
    (hd : Laid 0 done.reverse) (ho : offset = Text.bytes (sources done.reverse)) :
    Holds (addText s offset done) s offset := by
  obtain ⟨u, start, rest, rfl, he⟩ | ⟨-, he⟩ := addText_cases hs offset done
  · have hstart : start = 0 + Text.bytes (sources rest.reverse) := by
      rw [List.reverse_cons] at hd
      exact (laid_concat.mp hd).2.2.1
    refine he ▸ ⟨u ++ s, start, u, [], List.mem_cons_self .., by rw [List.append_nil], ?_⟩
    rw [ho, hstart, List.reverse_cons, sources_append, Text.bytes_append, Nat.zero_add]
    simp [source]
  · exact he ▸ ⟨s, offset, [], [], List.mem_cons_self .., by simp, rfl⟩

end Segment

/-- How far pairing has come: the segments so far, last first, and the tag that is open. -/
structure Pairing (κ : Type) where
  done : List (Segment κ)
  waiting : Option (OpenTag κ)

namespace Pairing

variable {κ : Type}

def start : Pairing κ := ⟨[], none⟩

def step (input : Text) : Pairing κ → Token κ → Except PairingError (Pairing κ)
  | ⟨done, none⟩, .text s offset => .ok ⟨Segment.addText s offset done, none⟩
  | ⟨done, some w⟩, .text s _ => .ok ⟨done, some (w.add s)⟩
  | ⟨done, none⟩, .delimiter kind .opening s offset => .ok ⟨done, some ⟨kind, s, offset, []⟩⟩
  | ⟨_, some _⟩, .delimiter _ .opening s offset => .error (.ofOpening .nested input s offset)
  | ⟨done, none⟩, .delimiter _ .closing s offset => .ok ⟨Segment.addText s offset done, none⟩
  | ⟨done, some w⟩, .delimiter kind .closing s _ => .ok ⟨.tag (w.close kind s) :: done, none⟩

def finish (input : Text) : Pairing κ → Except PairingError (List (Segment κ))
  | ⟨done, none⟩ => .ok done.reverse
  | ⟨_, some w⟩ => .error (.ofOpening .unclosed input w.openText w.offset)

inductive Reads (input : Text) : List (Token κ) → Pairing κ → Prop
  | start : Reads input [] start
  | step {read : List (Token κ)} {q q' : Pairing κ} {token : Token κ} (h : Reads input read q)
      (hs : q.step input token = .ok q') : Reads input (read ++ [token]) q'

theorem pairFrom_cons (input : Text) (q : Pairing κ) (token : Token κ) (tokens : List (Token κ)) :
    DelimiterTable.pairFrom input q.done q.waiting (token :: tokens) =
      (q.step input token).bind fun q => DelimiterTable.pairFrom input q.done q.waiting tokens := by
  obtain ⟨done, waiting⟩ := q
  cases token with
  | text s offset => cases waiting <;> rfl
  | delimiter kind role s offset => cases role <;> cases waiting <;> rfl

/-- Pairing reads all tokens or stops at one of them. -/
theorem reads_or_error {input : Text} {read : List (Token κ)} {q : Pairing κ}
    (h : Reads input read q) (tokens : List (Token κ)) :
    (∃ q', Reads input (read ++ tokens) q' ∧
        DelimiterTable.pairFrom input q.done q.waiting tokens = q'.finish input) ∨
      ∃ before token behind q' e, tokens = before ++ token :: behind ∧
        Reads input (read ++ before) q' ∧ q'.step input token = .error e ∧
        DelimiterTable.pairFrom input q.done q.waiting tokens = .error e := by
  induction tokens generalizing read q with
  | nil =>
    refine .inl ⟨q, by rwa [List.append_nil], ?_⟩
    obtain ⟨done, waiting⟩ := q
    cases waiting <;> rfl
  | cons token tokens ih =>
    rw [pairFrom_cons]
    cases hs : q.step input token with
    | error e =>
      exact .inr ⟨[], token, tokens, q, e, rfl, by rwa [List.append_nil], hs, rfl⟩
    | ok q' =>
      obtain ⟨q'', hr, hp⟩ | ⟨before, next, behind, q'', e, rfl, hr, he, hp⟩ := ih (h.step hs)
      · exact .inl ⟨q'', by rwa [List.append_assoc] at hr, hp⟩
      · exact .inr ⟨token :: before, next, behind, q'', e, rfl, by rwa [List.append_assoc] at hr,
          he, hp⟩

theorem reads_concat {input : Text} {read : List (Token κ)} {token : Token κ} {q : Pairing κ}
    (h : Reads input (read ++ [token]) q) :
    ∃ q', Reads input read q' ∧ q'.step input token = .ok q := by
  generalize hl : read ++ [token] = l at h
  cases h with
  | start => simp at hl
  | step h hs =>
    obtain ⟨rfl, ⟨⟩⟩ := List.append_inj' hl rfl
    exact ⟨_, h, hs⟩

theorem Reads.before {input : Text} {a b : List (Token κ)} {q : Pairing κ}
    (h : Reads input (a ++ b) q) : ∃ q', Reads input a q' := by
  induction b using List.reverseRecOn generalizing q with
  | nil => exact ⟨q, by rwa [List.append_nil] at h⟩
  | append_singleton b token ih =>
    rw [← List.append_assoc] at h
    obtain ⟨q', h', -⟩ := reads_concat h
    exact ih h'

theorem step_opening {input : Text} {q q' : Pairing κ} {kind : κ} {s : Text} {place : Nat}
    (h : q.step input (.delimiter kind .opening s place) = .ok q') : q.waiting = none := by
  obtain ⟨done, _ | w⟩ := q
  · rfl
  · cases h

theorem step_error {input : Text} {q : Pairing κ} {token : Token κ} {e : PairingError}
    (h : q.step input token = .error e) :
    q.waiting ≠ none ∧ ∃ kind s place, token = .delimiter kind .opening s place ∧
      e = .ofOpening .nested input s place := by
  obtain ⟨done, waiting⟩ := q
  cases token with
  | text s place => cases waiting <;> cases h
  | delimiter kind role s place =>
    cases role with
    | closing => cases waiting <;> cases h
    | opening =>
      cases waiting with
      | none => cases h
      | some w =>
        cases h
        exact ⟨by simp, kind, s, place, rfl, rfl⟩

theorem holds_step {input : Text} {q q' : Pairing κ} {token : Token κ}
    (h : q.step input token = .ok q') (hne : source token ≠ []) {s : Text} {place : Nat}
    (hs : Segment.Holds q.done s place) : Segment.Holds q'.done s place := by
  obtain ⟨done, waiting⟩ := q
  cases token with
  | text u o =>
    cases waiting with
    | none =>
      cases h
      exact hs.addText hne
    | some w =>
      cases h
      exact hs
  | delimiter kind role u o =>
    cases role with
    | opening =>
      cases waiting with
      | none =>
        cases h
        exact hs
      | some w => cases h
    | closing =>
      cases waiting with
      | none =>
        cases h
        exact hs.addText hne
      | some w =>
        cases h
        exact hs.cons _

theorem finish_ok {input : Text} {q : Pairing κ} {segs : List (Segment κ)}
    (h : q.finish input = .ok segs) : q.waiting = none ∧ segs = q.done.reverse := by
  obtain ⟨done, _ | w⟩ := q
  · cases h
    exact ⟨rfl, rfl⟩
  · cases h

theorem finish_error {input : Text} {q : Pairing κ} {e : PairingError}
    (h : q.finish input = .error e) :
    ∃ w, q.waiting = some w ∧ e = .ofOpening .unclosed input w.openText w.offset := by
  obtain ⟨done, _ | w⟩ := q
  · cases h
  · cases h
    exact ⟨w, rfl, rfl⟩

theorem isOk_pairFrom (input : Text) (done : List (Segment κ)) (waiting : Option (OpenTag κ))
    (tokens : List (Token κ)) :
    (∃ segs, DelimiterTable.pairFrom input done waiting tokens = .ok segs) ↔
      Role.Alternates waiting.isSome (Role.withoutStray waiting.isSome (Token.roles tokens)) := by
  induction tokens generalizing done waiting with
  | nil =>
    cases waiting with
    | none => exact iff_of_true ⟨_, rfl⟩ .nil
    | some w => exact iff_of_false (by rintro ⟨_, ⟨⟩⟩) (by rintro ⟨⟩)
  | cons token tokens ih =>
    cases token with
    | text s place => cases waiting <;> exact ih _ _
    | delimiter kind role s place =>
      cases role with
      | opening =>
        cases waiting with
        | none => exact (ih _ _).trans Role.alternates_opening.symm
        | some w => exact iff_of_false (by rintro ⟨_, ⟨⟩⟩) (by rintro ⟨⟩)
      | closing =>
        cases waiting with
        | none => exact ih _ _
        | some w => exact (ih _ _).trans Role.alternates_closing.symm

end Pairing

def OpenTag.source {κ : Type} (w : OpenTag κ) : Text := w.openText ++ w.content

def OpenTag.IsWaiting {κ : Type} (w : OpenTag κ) (read : List (Token κ)) : Prop :=
  ∃ before texts, read = before ++ .delimiter w.kind .opening w.openText w.offset :: texts ∧
    Token.roles texts = [] ∧ w.content = sources texts

theorem OpenTag.IsWaiting.endInside {κ : Type} {w : OpenTag κ} {read : List (Token κ)}
    (h : w.IsWaiting read) : Token.EndInside read := by
  obtain ⟨before, texts, rfl, hr, -⟩ := h
  rw [Token.roles] at hr
  simp [Token.EndInside, Token.roles, hr, Token.role?]

namespace DelimiterTable

variable {κ : Type} {defs : List (Delimiter κ)} {t : DelimiterTable κ}

/-- The tag stands in the text at its offset. It runs from the delimiter of an opening definition to
that of a closing one, and no definition matches anywhere in its content. -/
structure IsTagIn (defs : List (Delimiter κ)) (input : Text) (tag : Tag κ) : Prop where
  opening : ∃ d ∈ defs, d.kind = tag.opening ∧ d.role = .opening
  closing : ∃ d ∈ defs, d.kind = tag.closing ∧ d.role = .closing
  quiet : ∃ before behind, input = before ++ (tag.source ++ behind) ∧
    tag.offset = Text.bytes before ∧
      ∀ d ∈ defs, ∀ p, d.pattern? = some p →
        p.Passes (before.length + tag.openText.length) tag.content (tag.closeText ++ behind)

theorem separates_append {place : Nat} {a b : List (Token κ)} (h : t.Separates place (a ++ b)) :
    t.Separates (place + (sources a).length) b := by
  induction a generalizing place with
  | nil => exact h
  | cons token a ih =>
    have hb := ih h.2
    rwa [Nat.add_assoc, ← List.length_append] at hb

theorem passes_of_texts {place : Nat} {texts rest : List (Token κ)}
    (h : t.Separates place (texts ++ rest)) (ht : Token.roles texts = []) :
    t.pattern.Passes place (sources texts) (sources rest) := by
  induction texts generalizing place with
  | nil => exact .nil _ place _
  | cons token texts ih =>
    cases token with
    | text s offset =>
      have hs : t.pattern.Passes place s (sources (texts ++ rest)) := h.1 trivial
      rw [sources_append] at hs
      exact .append hs (ih h.2 ht)
    | delimiter kind role s offset => cases ht

/-- What holds when the tokens of `input` have been read up to a place. -/
structure Follows (defs : List (Delimiter κ)) (input : Text) (read : List (Token κ))
    (q : Pairing κ) : Prop where
  laid : Laid 0 q.done.reverse
  whole : sources q.done.reverse ++ q.waiting.elim [] OpenTag.source = sources read
  tags : ∀ tag, .tag tag ∈ q.done → IsTagIn defs input tag
  closed : q.waiting = none → ¬Token.EndInside read
  waiting : ∀ w, q.waiting = some w → w.IsWaiting read

theorem Follows.start (defs : List (Delimiter κ)) (input : Text) :
    Follows defs input [] .start where
  laid := .nil 0
  whole := rfl
  tags := by simp [Pairing.start]
  closed := by simp [Token.EndInside, Token.roles]
  waiting := by simp [Pairing.start]

theorem Follows.addText {input : Text} {read : List (Token κ)} {done : List (Segment κ)}
    (hq : Follows defs input read ⟨done, none⟩) {token : Token κ} (hne : source token ≠ [])
    (ho : offset token = Text.bytes (sources read)) (hr : token.role? ≠ some .opening) :
    Follows defs input (read ++ [token])
      ⟨Segment.addText (source token) (offset token) done, none⟩ := by
  have hread : sources done.reverse = sources read := (List.append_nil _).symm.trans hq.whole
  obtain ⟨hl, hs⟩ := Segment.laid_addText hne hq.laid (ho.trans (congrArg Text.bytes hread.symm))
  refine ⟨hl, ?_, fun tag hm => hq.tags tag (mem_addText hm), fun _ => ?_, by simp⟩
  · simp [hs, hread]
  · unfold Token.EndInside
    rw [Token.roles_concat]
    cases h : token.role? with
    | none =>
      rw [Option.toList_none, List.append_nil]
      exact hq.closed rfl
    | some role =>
      rw [Option.toList_some, List.getLast?_concat]
      exact h ▸ hr

theorem isTagIn_close (h : ofDelimiters defs = .ok t) {input : Text} {read rest : List (Token κ)}
    {kind : κ} {s : Text} {place : Nat}
    (ht : t.tokens input = read ++ .delimiter kind .closing s place :: rest) {w : OpenTag κ}
    (hw : w.IsWaiting read) : IsTagIn defs input (w.close kind s) := by
  obtain ⟨before, texts, rfl, hr, hc⟩ := hw
  rw [List.append_assoc, List.cons_append] at ht
  have hcovers := covers_tokens h input
  have hs : t.Separates 0 (t.tokens input) := separates_tokensFrom h 0 0 input
  rw [ht] at hs
  have hp := passes_of_texts (separates_append hs).2 hr
  rw [← hc, Nat.zero_add] at hp
  have hopen : .delimiter w.kind .opening w.openText w.offset ∈ t.tokens input := by simp [ht]
  have hclose : .delimiter kind .closing s place ∈ t.tokens input := by simp [ht]
  refine ⟨exists_def_of_mem_tokens h hopen, exists_def_of_mem_tokens h hclose, sources before,
    sources rest, ?_, ?_, ?_⟩
  · rw [← hcovers.whole, ht]
    simp [source, Tag.source, OpenTag.close, hc]
  · exact (hcovers.placed before _ _ ht).trans (Nat.zero_add _)
  · intro d hd p hdp
    exact passes_of_table h hp hd hdp

theorem Follows.offset_waiting (h : ofDelimiters defs = .ok t) {input : Text}
    {read rest : List (Token κ)} (ht : t.tokens input = read ++ rest) {done : List (Segment κ)}
    {w : OpenTag κ} (hq : Follows defs input read ⟨done, some w⟩) :
    w.openText ≠ [] ∧ w.offset = Text.bytes (sources done.reverse) := by
  obtain ⟨before, texts, rfl, -, hc⟩ := hq.waiting w rfl
  rw [List.append_assoc, List.cons_append] at ht
  have hcovers := covers_tokens h input
  have hplaced := hcovers.placed before _ _ ht
  have hmem := ht ▸ List.mem_append_right before (List.mem_cons_self ..)
  have hsame : sources done.reverse = sources before := by
    have hwhole := hq.whole
    rw [sources_append, sources_cons] at hwhole
    refine List.append_cancel_right (hwhole.trans ?_)
    rw [Option.elim, OpenTag.source, hc]
    rfl
  exact ⟨hcovers.nonempty _ hmem, by rw [hsame, ← Nat.zero_add (Text.bytes _)]; exact hplaced⟩

theorem Follows.addContent {input : Text} {read : List (Token κ)} {done : List (Segment κ)}
    {w : OpenTag κ} (hq : Follows defs input read ⟨done, some w⟩) (s : Text) (place : Nat) :
    Follows defs input (read ++ [.text s place]) ⟨done, some (w.add s)⟩ := by
  obtain ⟨before, texts, hread, hr, hc⟩ := hq.waiting w rfl
  refine ⟨hq.laid, ?_, hq.tags, by simp, ?_⟩
  · have hw := hq.whole
    simp only [Option.elim, OpenTag.source, OpenTag.add] at hw ⊢
    rw [sources_append, ← hw]
    simp [source]
  · rintro _ ⟨⟩
    refine ⟨before, texts ++ [.text s place], ?_, ?_, ?_⟩
    · rw [hread, List.append_assoc]
      rfl
    · rw [Token.roles_concat, hr]
      rfl
    · rw [sources_append, ← hc]
      simp [OpenTag.add, source]

theorem Follows.openTag {input : Text} {read : List (Token κ)} {done : List (Segment κ)}
    (hq : Follows defs input read ⟨done, none⟩) (kind : κ) (s : Text) (place : Nat) :
    Follows defs input (read ++ [.delimiter kind .opening s place])
      ⟨done, some ⟨kind, s, place, []⟩⟩ := by
  refine ⟨hq.laid, ?_, hq.tags, by simp, ?_⟩
  · have hw := hq.whole
    simp only [Option.elim, OpenTag.source, List.append_nil] at hw ⊢
    rw [sources_append, ← hw]
    simp [source]
  · rintro _ ⟨⟩
    exact ⟨read, [], rfl, rfl, rfl⟩

theorem Follows.closeTag (h : ofDelimiters defs = .ok t) {input : Text}
    {read rest : List (Token κ)} {kind : κ} {s : Text} {place : Nat}
    (ht : t.tokens input = read ++ .delimiter kind .closing s place :: rest)
    {done : List (Segment κ)} {w : OpenTag κ} (hq : Follows defs input read ⟨done, some w⟩) :
    Follows defs input (read ++ [.delimiter kind .closing s place])
      ⟨.tag (w.close kind s) :: done, none⟩ := by
  obtain ⟨hopen, hoffset⟩ := hq.offset_waiting h ht
  have hsource : source (.tag (w.close kind s) : Segment κ) ≠ [] :=
    List.append_ne_nil_of_left_ne_nil hopen _
  refine ⟨?_, ?_, fun tag hm => ?_, fun _ => ?_, by simp⟩
  · rw [List.reverse_cons]
    exact laid_concat.mpr ⟨hq.laid, hsource, hoffset.trans (Nat.zero_add _).symm,
      fun x _ hx => hx.2⟩
  · have hw := hq.whole
    simp only [Option.elim, OpenTag.source, List.append_nil, List.reverse_cons] at hw ⊢
    rw [sources_append, sources_append, ← hw]
    simp [source, Tag.source, OpenTag.close]
  · obtain he | hm := List.mem_cons.mp hm
    · cases he
      exact isTagIn_close h ht (hq.waiting w rfl)
    · exact hq.tags tag hm
  · simp [Token.EndInside, Token.roles_concat, Token.role?]

theorem Follows.step (h : ofDelimiters defs = .ok t) {input : Text} {read rest : List (Token κ)}
    {token : Token κ} (ht : t.tokens input = read ++ token :: rest) {q q' : Pairing κ}
    (hq : Follows defs input read q) (hs : q.step input token = .ok q') :
    Follows defs input (read ++ [token]) q' := by
  have hcovers := covers_tokens h input
  have hmem : token ∈ t.tokens input := ht ▸ List.mem_append_right read (List.mem_cons_self ..)
  have hne : source token ≠ [] := hcovers.nonempty token hmem
  have ho : offset token = Text.bytes (sources read) := by
    rw [hcovers.placed read token rest ht, Nat.zero_add]
  obtain ⟨done, waiting⟩ := q
  cases token with
  | text s place =>
    cases waiting with
    | none =>
      cases hs
      exact hq.addText hne ho (by simp [Token.role?])
    | some w =>
      cases hs
      exact hq.addContent s place
  | delimiter kind role s place =>
    cases role with
    | opening =>
      cases waiting with
      | none =>
        cases hs
        exact hq.openTag kind s place
      | some w => cases hs
    | closing =>
      cases waiting with
      | none =>
        cases hs
        exact hq.addText hne ho (by simp [Token.role?])
      | some w =>
        cases hs
        exact hq.closeTag h ht

theorem Follows.of_reads (h : ofDelimiters defs = .ok t) {input : Text}
    {read rest : List (Token κ)} (ht : t.tokens input = read ++ rest) {q : Pairing κ}
    (hr : q.Reads input read) : Follows defs input read q := by
  induction hr generalizing rest with
  | start => exact .start defs input
  | step hr hs ih =>
    rw [List.append_assoc, List.singleton_append] at ht
    exact (ih ht).step h ht hs

theorem Follows.waiting_eq_none {input : Text} {read : List (Token κ)} {q : Pairing κ}
    (hq : Follows defs input read q) : q.waiting = none ↔ ¬Token.EndInside read := by
  refine ⟨hq.closed, fun hr => ?_⟩
  cases hw : q.waiting with
  | none => rfl
  | some w => exact absurd (hq.waiting w hw).endInside hr

/-- A closing delimiter that has been met outside of a tag lies in a text from then on. -/
theorem holds_of_reads (h : ofDelimiters defs = .ok t) {input : Text}
    {read later rest : List (Token κ)} {kind : κ} {s : Text} {place : Nat}
    (ht : t.tokens input = read ++ .delimiter kind .closing s place :: (later ++ rest))
    (hread : ¬Token.EndInside read) {q : Pairing κ}
    (hr : q.Reads input (read ++ .delimiter kind .closing s place :: later)) :
    Segment.Holds q.done s place := by
  have hcovers := covers_tokens h input
  induction later using List.reverseRecOn generalizing rest q with
  | nil =>
    obtain ⟨⟨done, waiting⟩, hr', hs⟩ := Pairing.reads_concat hr
    have hq := Follows.of_reads h ht hr'
    obtain rfl : waiting = none := hq.waiting_eq_none.mpr hread
    cases hs
    have hsources : sources done.reverse = sources read := (List.append_nil _).symm.trans hq.whole
    have hne : s ≠ [] := hcovers.nonempty (.delimiter kind .closing s place) (by simp [ht])
    have hplaced : place = 0 + Text.bytes (sources read) := hcovers.placed read _ _ ht
    exact Segment.holds_addText hne hq.laid (by rw [hplaced, hsources, Nat.zero_add])
  | append_singleton later token ih =>
    rw [← List.cons_append, ← List.append_assoc] at hr
    obtain ⟨q', hr', hs⟩ := Pairing.reads_concat hr
    have hne : source token ≠ [] := hcovers.nonempty token (by simp [ht])
    exact Pairing.holds_step hs hne (@ih (token :: rest) (by simp [ht]) _ hr')

theorem not_haveNested_of_reads (h : ofDelimiters defs = .ok t) {input : Text}
    {read rest : List (Token κ)} (ht : t.tokens input = read ++ rest) {q : Pairing κ}
    (hr : q.Reads input read) : ¬Token.HaveNested read := by
  rintro ⟨before, kind, s, place, behind, rfl, hin⟩
  rw [List.append_cons] at hr
  obtain ⟨q', hr'⟩ := hr.before
  obtain ⟨q'', hr'', hs⟩ := Pairing.reads_concat hr'
  rw [List.append_assoc] at ht
  exact (Follows.of_reads h ht hr'').waiting_eq_none.mp (Pairing.step_opening hs) hin

theorem isAt_of_tokens (h : ofDelimiters defs = .ok t) {input : Text}
    {read behind : List (Token κ)} {kind : κ} {role : Role} {s : Text} {place : Nat}
    (ht : t.tokens input = read ++ .delimiter kind role s place :: behind) (cause : Mispairing) :
    (PairingError.ofOpening cause input s place).IsAt input (sources read) s := by
  have hplaced : place = 0 + Text.bytes (sources read) := (covers_tokens h input).placed read _ _ ht
  rw [hplaced, Nat.zero_add]
  exact PairingError.isAt_ofOpening cause input (sources read) s

/-- Pairing fails at the first opening delimiter inside of a tag or, if there is none, at the last
opening delimiter. -/
theorem exists_opening_of_error (h : ofDelimiters defs = .ok t) {input : Text} {e : PairingError}
    (he : t.segments input = .error e) :
    ∃ cause read kind s place behind,
      t.tokens input = read ++ .delimiter kind .opening s place :: behind ∧
        e = .ofOpening cause input s place ∧
          (cause = .nested ∧ Token.EndInside read ∧ ¬Token.HaveNested read ∨
            cause = .unclosed ∧ ¬Token.HaveNested (t.tokens input) ∧ Token.roles behind = []) := by
  have hrun := Pairing.reads_or_error (@Pairing.Reads.start _ input) (t.tokens input)
  rw [List.nil_append] at hrun
  obtain ⟨q, hr, hp⟩ | ⟨read, token, behind, q, e', ht, hr, hs, hp⟩ := hrun
  · have hall := (List.append_nil (t.tokens input)).symm
    obtain ⟨w, hw, rfl⟩ := Pairing.finish_error (hp.symm.trans he)
    obtain ⟨read, texts, ht, htexts, -⟩ := (Follows.of_reads h hall hr).waiting w hw
    exact ⟨.unclosed, read, w.kind, w.openText, w.offset, texts, ht, rfl,
      .inr ⟨rfl, not_haveNested_of_reads h hall hr, htexts⟩⟩
  · obtain rfl : e' = e := Except.error.inj (hp.symm.trans he)
    obtain ⟨hw, kind, s, place, rfl, rfl⟩ := Pairing.step_error hs
    have hin : Token.EndInside read :=
      not_not.mp (mt (Follows.of_reads h ht hr).waiting_eq_none.mpr hw)
    exact ⟨.nested, read, kind, s, place, behind, ht, rfl,
      .inl ⟨rfl, hin, not_haveNested_of_reads h ht hr⟩⟩

/-- A text falls into segments if its delimiters take turns, the stray closing ones aside. The
segments are the whole text, and the content of a tag has no delimiter. Otherwise the error shows
the first opening delimiter inside of a tag or, if there is none, the last opening delimiter. -/
theorem segments_iff_alternates (h : ofDelimiters defs = .ok t) (input : Text) :
    ((∃ segs, t.segments input = .ok segs) ↔
      Role.Alternates false (Role.withoutStray false (Token.roles (t.tokens input)))) ∧
    (∀ segs, t.segments input = .ok segs →
      Covers input segs ∧ (∀ tag, .tag tag ∈ segs → IsTagIn defs input tag) ∧
        ∀ read kind s place behind,
          t.tokens input = read ++ .delimiter kind .closing s place :: behind →
            ¬Token.EndInside read → Segment.Holds segs s place) ∧
    ∀ e, t.segments input = .error e →
      ∃ read kind s place behind,
        t.tokens input = read ++ .delimiter kind .opening s place :: behind ∧
          e.IsAt input (sources read) s ∧
            (e.cause = .nested ∧ Token.EndInside read ∧ ¬Token.HaveNested read ∨
              e.cause = .unclosed ∧ ¬Token.HaveNested (t.tokens input) ∧
                Token.roles behind = []) := by
  have hall := (List.append_nil (t.tokens input)).symm
  have hrun := Pairing.reads_or_error (@Pairing.Reads.start _ input) (t.tokens input)
  rw [List.nil_append] at hrun
  refine ⟨Pairing.isOk_pairFrom input [] none (t.tokens input), fun segs hsegs => ?_,
    fun e he => ?_⟩
  · obtain ⟨q, hr, hp⟩ | ⟨_, _, _, _, _, _, _, _, hp⟩ := hrun
    · have hq := Follows.of_reads h hall hr
      obtain ⟨hw, rfl⟩ := Pairing.finish_ok (hp.symm.trans hsegs)
      have hwhole := hq.whole
      rw [hw, Option.elim, List.append_nil, (covers_tokens h input).whole] at hwhole
      refine ⟨⟨hq.laid, hwhole⟩, fun tag hm => hq.tags tag (List.mem_reverse.mp hm), ?_⟩
      intro read kind s place behind ht hread
      rw [ht] at hr
      have hplace :
          t.tokens input = read ++ .delimiter kind .closing s place :: (behind ++ []) := by
        rwa [List.append_nil]
      obtain ⟨u, start, before, rest, hm, hu⟩ := holds_of_reads h hplace hread hr
      exact ⟨u, start, before, rest, List.mem_reverse.mpr hm, hu⟩
    · cases hsegs.symm.trans hp
  · obtain ⟨cause, read, kind, s, place, behind, ht, rfl, hcause⟩ := exists_opening_of_error h he
    exact ⟨read, kind, s, place, behind, ht, isAt_of_tokens h ht cause, hcause⟩

def contestedSegments : List (Segment Nat) :=
  [.tag ⟨0, "##".toList, ['x'], 3, "-%>".toList, 0⟩, .text ['é'] 6,
    .tag ⟨1, "<%".toList, "=y".toList, 3, "%>".toList, 8⟩, .text "--%>##".toList 14]

theorem segments_iff_alternates_contested :
    ofDelimiters competing = .ok competingTable ∧
      competingTable.segments contested = .ok contestedSegments ∧
      Role.Alternates false (Role.withoutStray false (Token.roles contestedTokens)) ∧
      Covers contested contestedSegments ∧
      (∀ tag, .tag tag ∈ contestedSegments → IsTagIn competing contested tag) ∧
      Segment.Holds contestedSegments "--%>".toList 14 ∧
      ∃ e, competingTable.segments "##x<%y%>".toList = .error e ∧
        ¬Role.Alternates false
          (Role.withoutStray false (Token.roles (competingTable.tokens "##x<%y%>".toList))) ∧
        ∃ read kind s place behind,
          competingTable.tokens "##x<%y%>".toList =
              read ++ .delimiter kind .opening s place :: behind ∧
            e.IsAt "##x<%y%>".toList (sources read) s ∧
              (e.cause = .nested ∧ Token.EndInside read ∧ ¬Token.HaveNested read ∨
                e.cause = .unclosed ∧
                  ¬Token.HaveNested (competingTable.tokens "##x<%y%>".toList) ∧
                  Token.roles behind = []) := by
  obtain ⟨hok, hsegs, -⟩ := segments_iff_alternates ofDelimiters_competing contested
  obtain ⟨hok', -, herror⟩ := segments_iff_alternates ofDelimiters_competing "##x<%y%>".toList
  rw [tokens_contested] at hok hsegs
  have hs : competingTable.segments contested = .ok contestedSegments := by decide +kernel
  have he : competingTable.segments "##x<%y%>".toList =
      .error ⟨.nested, "<%".toList, 3, ⟨1, 4⟩⟩ := by decide +kernel
  obtain ⟨hcovers, htags, hstray⟩ := hsegs _ hs
  have houtside : ¬Token.EndInside (contestedTokens.take 7) := by
    unfold Token.EndInside
    decide
  refine ⟨ofDelimiters_competing, hs, hok.mp ⟨_, hs⟩, hcovers, htags,
    hstray _ _ _ _ _ rfl houtside, _, he, ?_, herror _ he⟩
  rw [← hok', he]
  rintro ⟨_, ⟨⟩⟩

end DelimiterTable

end Curly

import Curly.Proofs.Delimiter.Pairing
import Curly.Proofs.Delimiter.Reading

namespace Curly

open Located

def mapBoth {ε ε' α α' : Type} (f : ε → ε') (g : α → α') : Except ε α → Except ε' α'
  | .ok a => .ok (g a)
  | .error e => .error (f e)

def Cursor.extend (c : Cursor) (u : Text) : Cursor := { c with rest := c.rest ++ u }

def Cursor.shift (n : Nat) (c : Cursor) : Cursor := { c with place := c.place + n }

def Hit.extend (hit : Hit) (u : Text) : Hit := { hit with rest := hit.rest ++ u }

namespace Pattern

/-- The match at the start of `v` does not depend on whether `u` follows. -/
def Ignores (p : Pattern) (v u : Text) : Prop :=
  ∀ place, p.match? ⟨place, v ++ u, []⟩ = (p.match? ⟨place, v, []⟩).map (·.extend u)

/-- Matches do not depend on how much comes before. -/
def IsLocal (p : Pattern) : Prop :=
  ∀ n place s, p.match? ⟨place + n, s, []⟩ = (p.match? ⟨place, s, []⟩).map (·.shift n)

variable {p : Pattern} {place : Nat} {s u : Text} {hit : Hit}

theorem search?_of_isFirst (h : p.IsFirst place s hit) : p.search? place s = some hit := by
  obtain ⟨hwhole, hhere, hearlier⟩ := h
  obtain ⟨before, text, rest, names⟩ := hit
  induction before generalizing place s with
  | nil =>
    simp only [List.nil_append, List.length_nil, Nat.add_zero] at hwhole hhere
    rw [hwhole, search?.eq_def, hhere]
    simp
  | cons c before ih =>
    have hc := hearlier [] (c :: before) rfl (List.cons_ne_nil c before)
    rw [hwhole, List.cons_append, search?]
    rw [List.length_nil, Nat.add_zero, List.cons_append] at hc
    rw [hc]
    have hlen : place + (c :: before).length = place + 1 + before.length := by
      rw [List.length_cons, Nat.add_assoc, Nat.add_comm 1]
    simp only [hlen] at hhere
    have hrest : p.Passes (place + 1) before (text ++ rest) := by
      intro v w hv hw
      have hp := hearlier (c :: v) w (congrArg (c :: ·) hv) hw
      rwa [List.length_cons, Nat.add_comm v.length, ← Nat.add_assoc] at hp
    simp only [ih rfl hhere hrest, Option.map_some]

theorem search?_of_passes (h : p.Passes place s [])
    (hend : p.match? ⟨place + s.length, [], []⟩ = none) : p.search? place s = none := by
  cases hs : p.search? place s with
  | none => rfl
  | some hit =>
    obtain ⟨hwhole, hhere, -⟩ := isFirst_of_search? hs
    by_cases hr : hit.text ++ hit.rest = []
    · rw [hr, List.append_nil] at hwhole
      rw [hr, ← hwhole, hend] at hhere
      cases hhere
    · have hnone := h _ _ hwhole hr
      rw [List.append_nil, hhere] at hnone
      cases hnone

theorem Passes.extend {rest : Text} (h : p.Passes place s rest)
    (hi : ∀ v, rest <:+ v → p.Ignores v u) : p.Passes place s (rest ++ u) := by
  intro v w hv hw
  rw [← List.append_assoc, hi _ (List.suffix_append w rest), h v w hv hw]
  rfl

theorem IsFirst.extend (h : p.IsFirst place s hit)
    (hi : ∀ v, hit.text ++ hit.rest <:+ v → p.Ignores v u) :
    p.IsFirst place (s ++ u) (hit.extend u) where
  whole := by
    rw [h.whole]
    simp [Hit.extend]
  here := by
    have hhere := hi _ (List.suffix_refl _) (place + hit.before.length)
    rw [h.here, List.append_assoc] at hhere
    exact hhere
  earlier := by
    have hearlier := h.earlier.extend hi
    rwa [List.append_assoc] at hearlier

theorem search?_shift (hl : p.IsLocal) (n place : Nat) (s : Text) :
    p.search? (place + n) s = p.search? place s := by
  induction s generalizing place with
  | nil =>
    rw [search?, search?, hl]
    cases p.match? ⟨place, [], []⟩ with
    | none => rfl
    | some d => simp [Cursor.shift]
  | cons c s ih =>
    have hnext : place + n + 1 = place + 1 + n := Nat.add_right_comm place n 1
    rw [search?, search?, hl, hnext, ih]
    cases p.match? ⟨place, c :: s, []⟩ with
    | none => rfl
    | some d =>
      have hlen : (d.shift n).place - (place + n) = d.place - place :=
        Nat.add_sub_add_right d.place n place
      simp only [Option.map_some, hlen]
      rfl

end Pattern

namespace Token

variable {κ : Type}

def shift (n : Nat) : Token κ → Token κ
  | .text s offset => .text s (offset + n)
  | .delimiter kind role s offset => .delimiter kind role s (offset + n)

theorem map_shift_ofText (n : Nat) (s : Text) (offset : Nat) :
    (ofText s offset).map (shift (κ := κ) n) = ofText s (offset + n) := by
  unfold ofText
  split <;> rfl

theorem suffix_of_getLast? {tokens : List (Token κ)} {token : Token κ}
    (h : tokens.getLast? = some token) : source token <:+ sources tokens := by
  obtain ⟨before, rfl⟩ := List.getLast?_eq_some_iff.mp h
  rw [sources_append]
  exact ⟨sources before, by simp⟩

end Token

namespace DelimiterTable

open Pattern

variable {κ : Type} {defs : List (Delimiter κ)} {t : DelimiterTable κ}

theorem getLast?_ofText_append (s : Text) (offset : Nat) (token : Token κ)
    (tokens : List (Token κ)) :
    (Token.ofText s offset ++ token :: tokens).getLast? = some (tokens.getLast?.getD token) := by
  rw [List.getLast?_append_of_ne_nil _ (List.cons_ne_nil token tokens), List.getLast?_cons]

/-- Behind a text that ends in a delimiter, tokens start anew. -/
theorem tokensFrom_append (h : ofDelimiters defs = .ok t) {u w : Text}
    (hi : ∀ v, w <:+ v → t.pattern.Ignores v u) {kind : κ} {role : Role} {o : Nat}
    (place offset : Nat) (s : Text)
    (hlast : (t.tokensFrom place offset s).getLast? = some (.delimiter kind role w o)) :
    t.tokensFrom place offset (s ++ u) = t.tokensFrom place offset s ++
      t.tokensFrom (place + s.length) (offset + Text.bytes s) u := by
  induction place, offset, s using tokensFrom_induction h with
  | empty place offset => cases hlast
  | rest place offset s hs hsearch => cases hlast
  | found place offset s hit d tokens hsearch hne hd hmem htokens ih =>
    have hfirst := isFirst_of_search? hsearch
    have hplace : place + hit.before.length + hit.text.length + hit.rest.length =
        place + s.length := by
      rw [hfirst.whole, List.length_append, List.length_append]
      omega
    have hoffset : offset + Text.bytes hit.before + Text.bytes hit.text + Text.bytes hit.rest =
        offset + Text.bytes s := by
      rw [hfirst.whole, Text.bytes_append, Text.bytes_append]
      omega
    have hsources : sources tokens = hit.rest := htokens ▸ sources_tokensFrom h _ _ hit.rest
    rw [getLast?_ofText_append, Option.some.injEq] at hlast
    have hrest : w <:+ hit.text ++ hit.rest ∧
        t.tokensFrom (place + hit.before.length + hit.text.length)
          (offset + Text.bytes hit.before + Text.bytes hit.text) (hit.rest ++ u) =
            tokens ++ t.tokensFrom (place + s.length) (offset + Text.bytes s) u := by
      rw [← hplace, ← hoffset]
      -- The last delimiter is the one found here, or the last one of what follows it.
      cases htail : tokens.getLast? with
      | none =>
        rw [htail] at hlast
        obtain rfl := List.getLast?_eq_none_iff.mp htail
        obtain ⟨-, -, rfl, -⟩ := Token.delimiter.inj hlast
        rw [← hsources]
        exact ⟨by simp, rfl⟩
      | some token =>
        rw [htail] at hlast
        obtain rfl : token = .delimiter kind role w o := hlast
        have hsuffix := Token.suffix_of_getLast? htail
        rw [hsources] at hsuffix
        exact ⟨hsuffix.trans (List.suffix_append ..), ih htail⟩
    have hsearch' := search?_of_isFirst (hfirst.extend fun v hv => hi v (hrest.1.trans hv))
    rw [tokensFrom_of_search? h hsearch' hd, List.append_assoc, List.cons_append, ← hrest.2]
    rfl

theorem tokensFrom_shift (h : ofDelimiters defs = .ok t) (hl : t.pattern.IsLocal)
    (n m place offset : Nat) (s : Text) :
    t.tokensFrom (place + n) (offset + m) s =
      (t.tokensFrom place offset s).map (Token.shift m) := by
  induction place, offset, s using tokensFrom_induction h with
  | empty place offset =>
    rw [tokensFrom, if_pos rfl]
    rfl
  | rest place offset s hs hsearch =>
    rw [tokensFrom_of_search?_eq_none ((search?_shift hl n place s).trans hsearch), Token.ofText,
      if_neg hs]
    rfl
  | found place offset s hit d tokens hsearch hne hd hmem htokens ih =>
    have hplace : place + n + hit.before.length + hit.text.length =
        place + hit.before.length + hit.text.length + n := by omega
    have hoffset : offset + m + Text.bytes hit.before + Text.bytes hit.text =
        offset + Text.bytes hit.before + Text.bytes hit.text + m := by omega
    rw [tokensFrom_of_search? h ((search?_shift hl n place s).trans hsearch) hd, hplace, hoffset,
      ih, List.map_append, List.map_cons, Token.map_shift_ofText, Token.ofHit, Token.ofHit,
      Token.shift, Nat.add_right_comm]

end DelimiterTable

def Tag.shift {κ : Type} (n : Nat) (t : Tag κ) : Tag κ := { t with offset := t.offset + n }

def OpenTag.shift {κ : Type} (n : Nat) (w : OpenTag κ) : OpenTag κ :=
  { w with offset := w.offset + n }

def Segment.shift {κ : Type} (n : Nat) : Segment κ → Segment κ
  | .text s offset => .text s (offset + n)
  | .tag t => .tag (t.shift n)

def PairingError.shift (input : Text) (n : Nat) (e : PairingError) : PairingError :=
  { e with offset := e.offset + n, position := .ofOffset input (e.offset + n) }

theorem PairingError.shift_ofOpening (input input' : Text) (n : Nat) (cause : Mispairing)
    (openText : Text) (offset : Nat) :
    (ofOpening cause input openText offset).shift input' n =
      ofOpening cause input' openText (offset + n) := by
  simp only [ofOpening, shift, Nat.add_right_comm]

namespace Segment

variable {κ : Type}

theorem addText_nil (s : Text) (offset : Nat) :
    addText s offset ([] : List (Segment κ)) = if s = [] then [] else [.text s offset] := rfl

theorem addText_tag (s : Text) (offset : Nat) (t : Tag κ) (done : List (Segment κ)) :
    addText s offset (.tag t :: done) =
      if s = [] then .tag t :: done else .text s offset :: .tag t :: done := rfl

theorem map_shift_addText (n : Nat) (s : Text) (offset : Nat) (done : List (Segment κ)) :
    (addText s offset done).map (shift n) = addText s (offset + n) (done.map (shift n)) := by
  cases done with
  | nil =>
    rw [List.map_nil, addText_nil, addText_nil, apply_ite (List.map _)]
    rfl
  | cons x done =>
    cases x with
    | text u start => rfl
    | tag t =>
      rw [List.map_cons, shift, addText_tag, addText_tag, apply_ite (List.map _)]
      rfl

theorem addText_append (s : Text) (offset : Nat) (t : Tag κ) (done behind : List (Segment κ)) :
    addText s offset (done ++ .tag t :: behind) = addText s offset done ++ .tag t :: behind := by
  cases done with
  | nil =>
    rw [List.nil_append, addText_nil, addText_tag]
    split <;> rfl
  | cons x done =>
    cases x with
    | text u start => rfl
    | tag t =>
      rw [List.cons_append, addText_tag, addText_tag]
      split <;> rfl

end Segment

namespace Pairing

variable {κ : Type}

def shift (n : Nat) (q : Pairing κ) : Pairing κ :=
  ⟨q.done.map (Segment.shift n), q.waiting.map (OpenTag.shift n)⟩

def behind (done : List (Segment κ)) (q : Pairing κ) : Pairing κ :=
  { q with done := q.done ++ done }

theorem step_shift (input input' : Text) (n : Nat) (q : Pairing κ) (token : Token κ) :
    (q.shift n).step input' (token.shift n) =
      mapBoth (PairingError.shift input' n) (shift n) (q.step input token) := by
  obtain ⟨done, _ | w⟩ := q
  · cases token with
    | text s offset =>
      simp only [shift, step, Token.shift, mapBoth, Segment.map_shift_addText, Option.map_none]
    | delimiter kind role s offset =>
      cases role with
      | opening => rfl
      | closing =>
        simp only [shift, step, Token.shift, mapBoth, Segment.map_shift_addText, Option.map_none]
  · cases token with
    | text s offset => rfl
    | delimiter kind role s offset =>
      cases role with
      | opening =>
        simp only [shift, step, Token.shift, mapBoth, PairingError.shift_ofOpening,
          Option.map_some]
      | closing => rfl

theorem pairFrom_shift (input input' : Text) (n : Nat) (q : Pairing κ) (tokens : List (Token κ)) :
    DelimiterTable.pairFrom input' (q.shift n).done (q.shift n).waiting
        (tokens.map (Token.shift n)) =
      mapBoth (PairingError.shift input' n) (List.map (Segment.shift n))
        (DelimiterTable.pairFrom input q.done q.waiting tokens) := by
  induction tokens generalizing q with
  | nil =>
    obtain ⟨done, _ | w⟩ := q
    · simp [shift, DelimiterTable.pairFrom, mapBoth]
    · simp [shift, DelimiterTable.pairFrom, mapBoth, PairingError.shift_ofOpening, OpenTag.shift]
  | cons token tokens ih =>
    rw [List.map_cons, pairFrom_cons, pairFrom_cons, step_shift input]
    cases q.step input token with
    | error e => rfl
    | ok q' => exact ih q'

theorem step_behind {t : Tag κ} (input : Text) (done : List (Segment κ)) (q : Pairing κ)
    (token : Token κ) :
    (q.behind (.tag t :: done)).step input token =
      mapBoth id (behind (.tag t :: done)) (q.step input token) := by
  obtain ⟨before, _ | w⟩ := q
  · cases token with
    | text s offset => simp only [behind, step, mapBoth, Segment.addText_append]
    | delimiter kind role s offset =>
      cases role with
      | opening => rfl
      | closing => simp only [behind, step, mapBoth, Segment.addText_append]
  · cases token with
    | text s offset => rfl
    | delimiter kind role s offset => cases role <;> rfl

theorem pairFrom_behind {t : Tag κ} (input : Text) (done : List (Segment κ)) (q : Pairing κ)
    (tokens : List (Token κ)) :
    DelimiterTable.pairFrom input (q.behind (.tag t :: done)).done
        (q.behind (.tag t :: done)).waiting tokens =
      mapBoth id ((.tag t :: done).reverse ++ ·)
        (DelimiterTable.pairFrom input q.done q.waiting tokens) := by
  induction tokens generalizing q with
  | nil => obtain ⟨before, _ | w⟩ := q <;> simp [behind, DelimiterTable.pairFrom, mapBoth]
  | cons token tokens ih =>
    rw [pairFrom_cons, pairFrom_cons, step_behind]
    cases q.step input token with
    | error e => rfl
    | ok q' => exact ih q'

theorem step_eq_ok {input : Text} {q q' : Pairing κ} {token : Token κ}
    (h : q.step input token = .ok q') (input' : Text) : q.step input' token = .ok q' := by
  obtain ⟨done, _ | w⟩ := q
  · cases token with
    | text s offset => exact h
    | delimiter kind role s offset => cases role <;> exact h
  · cases token with
    | text s offset => exact h
    | delimiter kind role s offset =>
      cases role with
      | opening => cases h
      | closing => exact h

theorem pairFrom_append {input : Text} {q : Pairing κ} {tokens : List (Token κ)}
    {segs : List (Segment κ)}
    (h : DelimiterTable.pairFrom input q.done q.waiting tokens = .ok segs) (input' : Text)
    (tokens' : List (Token κ)) :
    DelimiterTable.pairFrom input' q.done q.waiting (tokens ++ tokens') =
      DelimiterTable.pairFrom input' segs.reverse none tokens' := by
  induction tokens generalizing q with
  | nil =>
    obtain ⟨done, _ | w⟩ := q
    · cases h
      rw [List.reverse_reverse]
      rfl
    · cases h
  | cons token tokens ih =>
    rw [pairFrom_cons] at h
    obtain ⟨q', hs, h⟩ := exists_of_bind_eq_ok h
    rw [List.cons_append, pairFrom_cons, step_eq_ok hs input']
    exact ih h

theorem getLast?_of_pairFrom {input : Text} {tokens : List (Token κ)} {segs : List (Segment κ)}
    (hne : ∀ token ∈ tokens, source token ≠ [])
    (h : DelimiterTable.pairFrom input [] none tokens = .ok segs) {t : Tag κ}
    (hlast : segs.getLast? = some (.tag t)) :
    ∃ offset, tokens.getLast? = some (.delimiter t.closing .closing t.closeText offset) := by
  obtain ⟨q, hr, hq⟩ | ⟨_, _, _, _, _, _, _, _, hq⟩ :=
    reads_or_error (@Reads.start κ input) tokens
  · rw [List.nil_append] at hr
    obtain ⟨hw, rfl⟩ := finish_ok (hq.symm.trans h)
    rw [List.getLast?_reverse] at hlast
    induction tokens using List.reverseRecOn with
    | nil =>
      have hnil : q.done = [] := List.reverse_eq_nil_iff.mp (Except.ok.inj h).symm
      rw [hnil] at hlast
      cases hlast
    | append_singleton read token _ =>
      rw [List.getLast?_concat]
      obtain ⟨⟨done, waiting⟩, -, hs⟩ := reads_concat hr
      -- Text comes last where it is added.
      have htext {s : Text} (hs : s ≠ []) (offset : Nat) :
          (Segment.addText s offset done).head? ≠ some (.tag t) := by
        obtain ⟨_, _, _, _, he⟩ | ⟨-, he⟩ := Segment.addText_cases hs offset done <;> simp [he]
      have hne := hne token (List.mem_append_right read (List.mem_singleton_self token))
      cases token with
      | text s offset =>
        cases waiting with
        | none =>
          cases hs
          exact absurd hlast (htext hne offset)
        | some w =>
          cases hs
          cases hw
      | delimiter kind role s offset =>
        cases role with
        | opening =>
          cases waiting with
          | none =>
            cases hs
            cases hw
          | some w => cases hs
        | closing =>
          cases waiting with
          | none =>
            cases hs
            exact absurd hlast (htext hne offset)
          | some w =>
            cases hs
            obtain rfl := Segment.tag.inj (Option.some.inj hlast)
            exact ⟨offset, rfl⟩
  · cases hq.symm.trans h

end Pairing

namespace DelimiterTable

variable {κ : Type} {defs : List (Delimiter κ)} {t : DelimiterTable κ}

theorem segments_append (h : ofDelimiters defs = .ok t) (hl : t.pattern.IsLocal) {s u : Text}
    {segs : List (Segment κ)} (hs : t.segments s = .ok segs) {tag : Tag κ}
    (hlast : segs.getLast? = some (.tag tag))
    (hi : ∀ v, tag.closeText <:+ v → t.pattern.Ignores v u) :
    t.segments (s ++ u) =
      mapBoth (PairingError.shift (s ++ u) (Text.bytes s))
        (segs ++ ·.map (Segment.shift (Text.bytes s))) (t.segments u) := by
  obtain ⟨o, ho⟩ := Pairing.getLast?_of_pairFrom (covers_tokens h s).nonempty hs hlast
  have htokens := tokensFrom_append h hi 0 0 s ho
  have hshift := tokensFrom_shift h hl s.length (Text.bytes s) 0 0 u
  obtain ⟨before, rfl⟩ := List.getLast?_eq_some_iff.mp hlast
  have hafter := Pairing.pairFrom_append (q := .start) hs (s ++ u)
    ((t.tokens u).map (Token.shift (Text.bytes s)))
  have hbehind := Pairing.pairFrom_behind (t := tag) (s ++ u) before.reverse .start
    ((t.tokens u).map (Token.shift (Text.bytes s)))
  have hpair := Pairing.pairFrom_shift u (s ++ u) (Text.bytes s) .start (t.tokens u)
  have hstart : (Pairing.start (κ := κ)).shift (Text.bytes s) = .start := rfl
  rw [hstart] at hpair
  rw [segments, tokens, htokens, hshift]
  apply hafter.trans
  rw [List.reverse_concat]
  apply hbehind.trans
  rw [hpair, List.reverse_cons, List.reverse_reverse]
  change mapBoth id _ (mapBoth _ _ (t.segments u)) = _
  cases t.segments u <;> rfl

end DelimiterTable

namespace Mark

theorem isLocal_table : table.pattern.IsLocal := by
  intro n place s
  rw [match?_table, match?_table, Option.map_map]
  congr 1
  funext ⟨m, w⟩
  simp [Cursor.shift, Nat.add_right_comm]

theorem ignores_of_at? {v u : Text} (h : at? (v ++ u) = at? v) : table.pattern.Ignores v u := by
  intro place
  rw [match?_table, match?_table, h, Option.map_map]
  cases hm : at? v with
  | none => rfl
  | some p =>
    obtain ⟨m, w⟩ := p
    have hle := (isPrefix_of_at? hm).length_le
    simp [Cursor.extend, List.drop_append_of_le_length hle]

theorem defOf?_table (m : Mark) :
    table.defOf? [DelimiterTable.groupName (all.idxOf m)] = some m.delimiter := by
  rw [DelimiterTable.defOf?, defs_table]
  cases m <;> decide

theorem at?_of_tokensFrom {m : Mark} {role : Role} {w : Text} {o : Nat}
    {behind : List (Token Mark)} (place offset : Nat) (s : Text) (read : List (Token Mark))
    (h : table.tokensFrom place offset s = read ++ .delimiter m role w o :: behind) :
    at? (w ++ sources behind) = some (m, w) := by
  induction place, offset, s using DelimiterTable.tokensFrom_induction ofDelimiters_delimiters
    generalizing read with
  | empty place offset => simp at h
  | rest place offset s hs hsearch =>
    cases read with
    | nil => cases h
    | cons token read => simp at h
  | found place offset s hit d tokens hsearch hne hd hmem htokens ih =>
    have hhit (read : List (Token Mark))
        (h : Token.ofHit d hit offset :: tokens = read ++ .delimiter m role w o :: behind) :
        at? (w ++ sources behind) = some (m, w) := by
      cases read with
      | cons token read => exact ih read (List.cons.inj h).2
      | nil =>
        have hhere := (Pattern.isFirst_of_search? hsearch).here
        rw [match?_table] at hhere
        obtain ⟨⟨n, v⟩, hv, he⟩ := Option.map_eq_some_iff.mp hhere
        obtain ⟨hplace, -, hnames⟩ := Cursor.mk.inj he
        rw [← hnames, defOf?_table] at hd
        obtain rfl := Option.some.inj hd
        have htext : v = hit.text := by
          have htake := List.prefix_iff_eq_take.mp (isPrefix_of_at? hv)
          rwa [Nat.add_left_cancel hplace, List.take_left] at htake
        obtain ⟨htoken, rfl⟩ := List.cons.inj h
        obtain ⟨rfl, -, rfl, -⟩ := Token.delimiter.inj htoken
        rw [htokens, DelimiterTable.sources_tokensFrom ofDelimiters_delimiters]
        exact htext ▸ hv
    -- The text before the delimiter is a token of its own unless it is empty.
    obtain ⟨-, he⟩ | ⟨-, he⟩ :=
      Token.ofText_append hit.before offset (Token.ofHit d hit offset :: tokens)
    · exact hhit read (he ▸ h)
    · rw [he] at h
      cases read with
      | nil => cases h
      | cons token read => exact hhit read (List.cons.inj h).2

theorem exists_read?_of_mem_tokens {m : Mark} {role : Role} {s w : Text} {o : Nat}
    (h : .delimiter m role w o ∈ table.tokens s) : ∃ v, m.read? v = some w := by
  obtain ⟨read, behind, ht⟩ := List.append_of_mem h
  exact ⟨_, read?_of_at? (at?_of_tokensFrom 0 0 s read ht)⟩

theorem eq_literal_of_closing {m : Mark} {s w : Text} {o : Nat}
    (h : .delimiter m .closing w o ∈ table.tokens s) : w = m.literal := by
  obtain ⟨v, hv⟩ := exists_read?_of_mem_tokens h
  have hm := role_of_mem_tokens h
  refine read?_eq_literal ?_ hv
  cases m with
  | reservedClose | tripleClose | close => rfl
  | _ => cases hm

theorem closeText_eq {s : Text} {segs : List (Segment Mark)} (h : table.segments s = .ok segs)
    {t : Tag Mark} (ht : .tag t ∈ segs) : t.closeText = t.closing.literal := by
  obtain ⟨-, o, ho⟩ := DelimiterTable.isBetween_of_mem_segments h ht
  exact eq_literal_of_closing ho

/-- Behind a tag, the segments of a text start anew. -/
theorem segments_append {s u : Text} {segs : List (Segment Mark)}
    (h : table.segments s = .ok segs) {t : Tag Mark} (hlast : segs.getLast? = some (.tag t))
    (hu : ¬(t.closing = .close ∧ u.head? = some '}')) :
    table.segments (s ++ u) =
      mapBoth (PairingError.shift (s ++ u) (Text.bytes s))
        (segs ++ ·.map (Segment.shift (Text.bytes s))) (table.segments u) := by
  have hlast' := List.mem_of_getLast? hlast
  have hrole := (role_of_mem_segments h hlast').2
  have htext := closeText_eq h hlast'
  apply DelimiterTable.segments_append ofDelimiters_delimiters isLocal_table h hlast
  intro v hv
  exact ignores_of_at? (at?_append_closing hrole (htext ▸ hv) hu)

end Mark

end Curly

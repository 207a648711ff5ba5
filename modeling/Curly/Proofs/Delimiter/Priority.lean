import Curly.Proofs.Delimiter.Tokens

namespace Curly

/-- What a definition reads at a place of a text, on its own. -/
def Delimiter.reads? {κ : Type} (d : Delimiter κ) (input : Text) (place : Nat) : Option Text :=
  d.pattern?.bind fun p =>
    (p.match? ⟨place, input.drop place, []⟩).map fun e => (input.drop place).take (e.place - place)

/-- The first definition of a table that reads anything at a place. -/
def Delimiter.firstAt? {κ : Type} (defs : List (Delimiter κ)) (input : Text) (place : Nat) :
    Option (Delimiter κ) :=
  defs.find? fun d => (d.reads? input place).isSome

theorem Delimiter.reads?_eq_none_iff {κ : Type} {d : Delimiter κ} {input : Text} {place : Nat} :
    d.reads? input place = none ↔
      ∀ p, d.pattern? = some p → p.match? ⟨place, input.drop place, []⟩ = none := by
  simp [reads?, Option.bind_eq_none_iff]

namespace Token

variable {κ : Type}

def isDelimiter : Token κ → Bool
  | .text _ _ => false
  | .delimiter _ _ _ _ => true

def firstDelimiter? (tokens : List (Token κ)) : Option (Token κ) := tokens.find? isDelimiter

theorem firstDelimiter?_ofText (s : Text) (offset : Nat) (tokens : List (Token κ)) :
    firstDelimiter? (ofText s offset ++ tokens) = firstDelimiter? tokens := by
  unfold ofText
  split <;> rfl

end Token

def Tokenizer.IsAt {κ : Type} (input : Text) (k : Tokenizer κ) : Prop :=
  ∃ read, input = read ++ k.rest ∧ k.place = read.length ∧ k.offset = Text.bytes read

namespace DelimiterTable

open Pattern

variable {κ : Type}

/-- The states that the iterator over tokens goes through. -/
inductive Reaches (t : DelimiterTable κ) (k : Tokenizer κ) : Tokenizer κ → Prop
  | start : Reaches t k k
  | step {k' k'' : Tokenizer κ} {token : Token κ} (hr : Reaches t k k')
      (h : t.next? k' = some (token, k'')) : Reaches t k k''

/-- From `start` on, the first place where a definition reads anything is `place`, and of the
definitions that read anything there `d` is the first one. It reads `w`. -/
structure Wins (defs : List (Delimiter κ)) (input : Text) (start : Nat) (d : Delimiter κ)
    (place : Nat) (w : Text) : Prop where
  behind : start ≤ place
  quiet : ∀ q, start ≤ q → q < place → ∀ e ∈ defs, e.reads? input q = none
  first : Delimiter.firstAt? defs input place = some d
  reads : d.reads? input place = some w

namespace Wins

variable {defs : List (Delimiter κ)} {input : Text} {start : Nat} {d d' : Delimiter κ}
  {place place' : Nat} {w w' : Text}

theorem mem (h : Wins defs input start d place w) : d ∈ defs := List.mem_of_find?_eq_some h.first

theorem reads?_ne_none (h : Wins defs input start d place w) : d.reads? input place ≠ none := by
  rw [h.reads]
  exact Option.some_ne_none w

theorem le (h : Wins defs input start d place w) (h' : Wins defs input start d' place' w') :
    place ≤ place' := by
  by_contra hlt
  exact h'.reads?_ne_none (h.quiet place' h'.behind (Nat.lt_of_not_le hlt) d' h'.mem)

theorem unique (h : Wins defs input start d place w) (h' : Wins defs input start d' place' w') :
    d = d' ∧ place = place' ∧ w = w' := by
  obtain rfl := Nat.le_antisymm (h.le h') (h'.le h)
  obtain rfl := Option.some.inj (h.first.symm.trans h'.first)
  exact ⟨rfl, rfl, Option.some.inj (h.reads.symm.trans h'.reads)⟩

end Wins

/-- At one place, a choice asks its patterns one after the other. -/
theorem match?_choice_cons (index place : Nat) (p : Pattern) (ps : List Pattern) (s : Text) :
    (choice index (p :: ps)).match? ⟨place, s, []⟩ =
      ((p.match? ⟨place, s, []⟩).map (·.behind [groupName index])).or
        ((choice (index + 1) ps).match? ⟨place, s, []⟩) := by
  have hgroup : p.hits (Cursor.enter ⟨place, s, []⟩ (groupName index)) =
      (p.hits ⟨place, s, []⟩).map (·.behind [groupName index]) :=
    hits_behind p [groupName index] ⟨place, s, []⟩
  rw [match?_eq_head?, match?_eq_head?, match?_eq_head?, choice, hits_alt, hits_group,
    hgroup, List.head?_append, List.head?_map]

theorem match?_choice_nil (index place : Nat) (s : Text) :
    (choice index []).match? ⟨place, s, []⟩ = none := by
  rw [match?_eq_head?, choice, hits_never, List.head?_nil]

/-- Where a choice matches, the first definition that reads anything there is the one whose group
was entered, and it reads the same. -/
theorem firstAt?_of_match?_choice {defs : List (Delimiter κ)} {ps : List Pattern}
    (hps : List.Forall₂ IsChecked defs ps) {index : Nat} (hn : (choice index ps).names.Nodup)
    {input : Text} {place : Nat} {e : Cursor}
    (h : (choice index ps).match? ⟨place, input.drop place, []⟩ = some e) :
    ∃ d, Delimiter.firstAt? defs input place = some d ∧
      d.reads? input place = some ((input.drop place).take (e.place - place)) ∧
        ((defs.zipIdx index).find? fun (_, i) => groupName i ∈ e.names).map (·.1) = some d := by
  induction hps generalizing index with
  | nil =>
    rw [match?_choice_nil] at h
    cases h
  | @cons d p defs ps hd _ ih =>
    rw [match?_choice_cons] at h
    rw [choice, names, names, List.cons_append, List.nodup_cons] at hn
    cases hp : p.match? ⟨place, input.drop place, []⟩ with
    | some e' =>
      rw [hp] at h
      obtain rfl := Option.some.inj h
      have hr : d.reads? input place = some ((input.drop place).take (e'.place - place)) := by
        simp [Delimiter.reads?, hd.1, hp]
      refine ⟨d, List.find?_cons_of_pos (by simp [hr]), hr, ?_⟩
      rw [List.zipIdx_cons, List.find?_cons_of_pos (by simp [Cursor.behind]), Option.map_some]
    | none =>
      rw [hp] at h
      obtain ⟨he, -⟩ := leads_of_match? h
      -- The match entered a group of a later definition, and no two groups have one name.
      have hentered : groupName index ∉ e.names := by
        intro hm
        exact hn.1 (List.mem_append_right _ (names_of_mem_hits _ he hm))
      have hr : d.reads? input place = none := by simp [Delimiter.reads?, hd.1, hp]
      obtain ⟨d', hfirst, hreads, hfound⟩ := ih (List.nodup_append.mp hn.2).2.1 h
      refine ⟨d', ?_, hreads, ?_⟩
      · rw [Delimiter.firstAt?, List.find?_cons_of_neg (by simp [hr])]
        exact hfirst
      · rw [List.zipIdx_cons, List.find?_cons_of_neg (by simp [hentered])]
        exact hfound

variable {defs : List (Delimiter κ)} {t : DelimiterTable κ}

theorem firstAt?_of_match? (h : ofDelimiters defs = .ok t) {input : Text} {place : Nat} {e : Cursor}
    (hm : t.pattern.match? ⟨place, input.drop place, []⟩ = some e) :
    ∃ d, Delimiter.firstAt? defs input place = some d ∧
      d.reads? input place = some ((input.drop place).take (e.place - place)) ∧
        t.defOf? e.names = some d := by
  obtain ⟨ps, hps, hn, rfl⟩ := exists_of_ofDelimiters h
  exact firstAt?_of_match?_choice (forall₂_of_mapM hps) hn hm

theorem reads?_eq_none_of_length_le (h : ofDelimiters defs = .ok t) {input : Text} {place : Nat}
    (hlen : input.length ≤ place) {d : Delimiter κ} (hd : d ∈ defs) :
    d.reads? input place = none := by
  obtain ⟨ps, -, hps⟩ := exists_patterns h
  obtain ⟨p, -, -, hp, hempty⟩ := exists_isChecked hps hd
  apply Delimiter.reads?_eq_none_iff.mpr
  rintro q hq
  obtain rfl : p = q := Option.some.inj (hp.symm.trans hq)
  rw [List.drop_eq_nil_of_le hlen]
  cases hm : p.match? ⟨place, [], []⟩ with
  | none => rfl
  | some e =>
    obtain ⟨he, w, hw⟩ := leads_of_match? hm
    have hlt := lt_place_of_mem_hits hempty he
    rw [hw.at_end] at hlt
    exact absurd hlt (Nat.lt_irrefl place)

theorem reads?_eq_none_of_passes (h : ofDelimiters defs = .ok t) {read s rest : Text}
    (hs : t.pattern.Passes read.length s rest) {q : Nat} (hle : read.length ≤ q)
    (hlt : q < read.length + s.length) {d : Delimiter κ} (hd : d ∈ defs) :
    d.reads? (read ++ (s ++ rest)) q = none := by
  apply Delimiter.reads?_eq_none_iff.mpr
  intro p hp
  obtain ⟨n, rfl⟩ := Nat.exists_eq_add_of_le hle
  have hn : n < s.length := Nat.lt_of_add_lt_add_left hlt
  have hdrop : (read ++ (s ++ rest)).drop (read.length + n) = s.drop n ++ rest := by
    rw [← List.drop_drop, List.drop_left, List.drop_append_of_le_length (Nat.le_of_lt hn)]
  have hne : s.drop n ≠ [] := List.ne_nil_of_length_pos (by rw [List.length_drop]; omega)
  have hsplit := (List.take_append_drop n s).symm
  have hquiet := passes_of_table h hs hd hp (s.take n) (s.drop n) hsplit hne
  rwa [List.length_take_of_le (Nat.le_of_lt hn), ← hdrop] at hquiet

theorem firstDelimiter?_tokensFrom (h : ofDelimiters defs = .ok t) (read s : Text) :
    (Token.firstDelimiter? (t.tokensFrom read.length (Text.bytes read) s) = none ∧
      ∀ place, read.length ≤ place → ∀ d ∈ defs, d.reads? (read ++ s) place = none) ∨
    ∃ d place w, Wins defs (read ++ s) read.length d place w ∧
      Token.firstDelimiter? (t.tokensFrom read.length (Text.bytes read) s) =
        some (.delimiter d.kind d.role w (Text.bytes ((read ++ s).take place))) := by
  cases hsearch : t.pattern.search? read.length s with
  | none =>
    left
    refine ⟨?_, fun place hle d hd => ?_⟩
    · rw [tokensFrom_of_search?_eq_none hsearch, Token.ofText]
      split <;> rfl
    · obtain hlt | hlen := Nat.lt_or_ge place (read ++ s).length
      · have hp := reads?_eq_none_of_passes h (passes_of_search?_eq_none hsearch) hle
          (List.length_append ▸ hlt) hd
        rwa [List.append_nil] at hp
      · exact reads?_eq_none_of_length_le h hlen hd
  | some hit =>
    right
    obtain ⟨hwhole, hhere, hearlier⟩ := isFirst_of_search? hsearch
    obtain ⟨-, d, hd, -⟩ := find?_of_search? h hsearch
    let place := read.length + hit.before.length
    have hsplit : read ++ s = (read ++ hit.before) ++ (hit.text ++ hit.rest) := by
      rw [List.append_assoc, ← hwhole]
    have hdrop : (read ++ s).drop place = hit.text ++ hit.rest := by
      rw [hsplit, List.drop_left' List.length_append]
    have htake : (read ++ s).take place = read ++ hit.before := by
      rw [hsplit, List.take_left' List.length_append]
    obtain ⟨d', hfirst, hreads, hd'⟩ := firstAt?_of_match? h (hdrop ▸ hhere)
    obtain rfl : d = d' := Option.some.inj (hd.symm.trans hd')
    rw [Nat.add_sub_cancel_left, hdrop, List.take_left] at hreads
    refine ⟨d, place, hit.text, ⟨Nat.le_add_right .., ?_, hfirst, hreads⟩, ?_⟩
    · intro q hle hlt e he
      rw [hwhole]
      exact reads?_eq_none_of_passes h hearlier hle hlt he
    · rw [htake, Text.bytes_append, tokensFrom_of_search? h hsearch hd]
      exact Token.firstDelimiter?_ofText hit.before _ _

theorem isAt_of_next? {input : Text} {k k' : Tokenizer κ} {token : Token κ} (hk : k.IsAt input)
    (h : t.next? k = some (token, k')) : k'.IsAt input := by
  obtain ⟨read, hwhole, hplace, hoffset⟩ := hk
  unfold DelimiterTable.next? at h
  split at h
  · cases h
    exact ⟨read, hwhole, hplace, hoffset⟩
  · split at h
    · cases h
    · split at h
      · cases h
        refine ⟨input, (List.append_nil input).symm, ?_, ?_⟩
        · rw [hwhole, List.length_append, ← hplace]
          rfl
        · rw [hwhole, Text.bytes_append, ← hoffset]
          rfl
      · next hit hsearch =>
        have hs := (isFirst_of_search? hsearch).whole
        have hbehind : (k.behind hit).IsAt input := by
          refine ⟨read ++ (hit.before ++ hit.text), ?_, ?_, ?_⟩
          · simp [hwhole, hs, Tokenizer.behind]
          · simp [Tokenizer.behind, hplace, Nat.add_assoc]
          · simp [Tokenizer.behind, hoffset, Nat.add_assoc]
        obtain ⟨d, hd, h⟩ := Option.bind_eq_some_iff.mp h
        split at h <;> cases h
        · exact hbehind
        · exact hbehind

theorem Reaches.isAt {input : Text} {k : Tokenizer κ} (hr : t.Reaches (.start input) k) :
    k.IsAt input := by
  induction hr with
  | start => exact ⟨[], rfl, rfl, rfl⟩
  | step _ h ih => exact isAt_of_next? ih h

/-- Wherever the iterator searches on, the next delimiter is the one that wins from there on: it
starts at the first place where any definition reads something, it has the kind and the role of the
first definition that does, and its text is what this definition reads there on its own. There is no
further delimiter if no definition reads anything from there on. -/
theorem firstDelimiter?_iff_wins (h : ofDelimiters defs = .ok t) {input : Text} {k : Tokenizer κ}
    (hr : t.Reaches (.start input) k) (hk : k.pending = none) :
    ∃ tokens, t.Yields k tokens ∧
      (∀ token, Token.firstDelimiter? tokens = some token ↔
        ∃ d place w, Wins defs input k.place d place w ∧
          token = .delimiter d.kind d.role w (Text.bytes (input.take place))) ∧
      (Token.firstDelimiter? tokens = none ↔
        ∀ place, k.place ≤ place → ∀ d ∈ defs, d.reads? input place = none) := by
  obtain ⟨read, rfl, hplace, hoffset⟩ := hr.isAt
  obtain ⟨place, offset, s, pending⟩ := k
  obtain rfl : pending = none := hk
  obtain rfl : place = read.length := hplace
  obtain rfl : offset = Text.bytes read := hoffset
  refine ⟨_, yields_tokensFrom h _ _ s, ?_⟩
  obtain ⟨hnone, hquiet⟩ | ⟨d, place, w, hwins, hsome⟩ := firstDelimiter?_tokensFrom h read s
  · rw [hnone]
    refine ⟨fun token => ⟨fun h => absurd h (Option.some_ne_none token).symm, ?_⟩,
      iff_of_true rfl hquiet⟩
    rintro ⟨d, place, w, hwins, -⟩
    exact absurd (hquiet place hwins.behind d hwins.mem) hwins.reads?_ne_none
  · rw [hsome]
    refine ⟨fun token => ⟨?_, ?_⟩, iff_of_false (Option.some_ne_none _) fun hquiet => ?_⟩
    · rintro ⟨⟩
      exact ⟨d, place, w, hwins, rfl⟩
    · rintro ⟨d', place', w', hwins', rfl⟩
      obtain ⟨rfl, rfl, rfl⟩ := hwins.unique hwins'
      rfl
    · exact hwins.reads?_ne_none (hquiet place hwins.behind d hwins.mem)

/-- Behind the first tag two definitions read something at the same place. The earlier one wins,
though it reads less. -/
theorem firstDelimiter?_iff_wins_contested :
    let k : Tokenizer Nat := ⟨6, 6, "é<%=y%>--%>##".toList, none⟩
    ofDelimiters competing = .ok competingTable ∧ competingTable.Reaches (.start contested) k ∧
      k.pending = none ∧
      ∃ tokens, competingTable.Yields k tokens ∧
        Token.firstDelimiter? tokens = some (.delimiter 1 .opening "<%".toList 8) ∧
        (∀ token, Token.firstDelimiter? tokens = some token ↔
          ∃ d place w, Wins competing contested 6 d place w ∧
            token = .delimiter d.kind d.role w (Text.bytes (contested.take place))) ∧
        (Token.firstDelimiter? tokens = none ↔
          ∀ place, 6 ≤ place → ∀ d ∈ competing, d.reads? contested place = none) := by
  intro k
  have hopening : competingTable.next? (.start contested) =
      some (.delimiter 0 .opening "##".toList 0, ⟨2, 2, "x-%>é<%=y%>--%>##".toList, none⟩) := by
    decide +kernel
  have htext : competingTable.next? ⟨2, 2, "x-%>é<%=y%>--%>##".toList, none⟩ =
      some (.text ['x'] 2, k.keep (.delimiter 3 .closing "-%>".toList 3)) := by decide +kernel
  have hclosing : competingTable.next? (k.keep (.delimiter 3 .closing "-%>".toList 3)) =
      some (.delimiter 3 .closing "-%>".toList 3, k) := rfl
  have hr : competingTable.Reaches (.start contested) k :=
    .step (.step (.step .start hopening) htext) hclosing
  obtain ⟨tokens, hyields, hsome, hnone⟩ := firstDelimiter?_iff_wins ofDelimiters_competing hr rfl
  refine ⟨ofDelimiters_competing, hr, rfl, tokens, hyields, ?_, hsome, hnone⟩
  have hwins : Wins competing contested 6 ⟨1, "<%".toList, .opening, some "<(%|%=)".toList⟩ 7
      "<%".toList := by
    refine ⟨by decide, fun q hle hlt => ?_, by decide +kernel, by decide +kernel⟩
    obtain rfl : q = 6 := Nat.le_antisymm (Nat.le_of_lt_succ hlt) hle
    decide +kernel
  exact (hsome _).mpr ⟨_, _, _, hwins, rfl⟩

end DelimiterTable

end Curly

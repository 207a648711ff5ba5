import Curly.Proofs.Delimiter.Layout
import Curly.Proofs.Delimiter.Search

namespace Curly

open Located

namespace Token

variable {κ : Type}

def ofText (s : Text) (offset : Nat) : List (Token κ) := if s = [] then [] else [.text s offset]

def ofHit (d : Delimiter κ) (hit : Hit) (offset : Nat) : Token κ :=
  .delimiter d.kind d.role hit.text (offset + Text.bytes hit.before)

theorem ofText_append (s : Text) (offset : Nat) (tokens : List (Token κ)) :
    (s = [] ∧ ofText s offset ++ tokens = tokens) ∨
      (s ≠ [] ∧ ofText s offset ++ tokens = .text s offset :: tokens) := by
  unfold ofText
  split
  · next hs => exact .inl ⟨hs, rfl⟩
  · next hs => exact .inr ⟨hs, rfl⟩

end Token

/-- Where the iterator over the tokens of a text stands: how much it has left behind, what is to be
read, and the delimiter that it has found but not given yet. -/
structure Tokenizer (κ : Type) where
  place : Nat
  offset : Nat
  rest : Text
  pending : Option (Token κ) := none
deriving DecidableEq

namespace Tokenizer

variable {κ : Type}

def start (s : Text) : Tokenizer κ := ⟨0, 0, s, none⟩

def behind (k : Tokenizer κ) (hit : Hit) : Tokenizer κ where
  place := k.place + hit.before.length + hit.text.length
  offset := k.offset + Text.bytes hit.before + Text.bytes hit.text
  rest := hit.rest

def finished (k : Tokenizer κ) : Tokenizer κ where
  place := k.place + k.rest.length
  offset := k.offset + Text.bytes k.rest
  rest := []

def keep (k : Tokenizer κ) (token : Token κ) : Tokenizer κ := { k with pending := some token }

end Tokenizer

namespace DelimiterTable

variable {κ : Type}

/-- One step of the iterator. It would also stop at a match that belongs to no definition. -/
def next? (t : DelimiterTable κ) (k : Tokenizer κ) : Option (Token κ × Tokenizer κ) :=
  match k.pending with
  | some token => some (token, { k with pending := none })
  | none =>
    if k.rest = [] then none
    else
      match t.pattern.search? k.place k.rest with
      | none => some (.text k.rest k.offset, k.finished)
      | some hit => do
        let d ← t.defOf? hit.names
        let found := Token.ofHit d hit k.offset
        if hit.before = [] then some (found, k.behind hit)
        else some (.text hit.before k.offset, (k.behind hit).keep found)

/-- The iterator gives these tokens and ends behind the last of them. -/
inductive Yields (t : DelimiterTable κ) : Tokenizer κ → List (Token κ) → Prop
  | done {k : Tokenizer κ} (h : t.next? k = none) : Yields t k []
  | step {k k' : Tokenizer κ} {token : Token κ} {tokens : List (Token κ)}
      (h : t.next? k = some (token, k')) (hs : Yields t k' tokens) : Yields t k (token :: tokens)

theorem Yields.unique {t : DelimiterTable κ} {k : Tokenizer κ} {tokens tokens' : List (Token κ)}
    (h : t.Yields k tokens) (h' : t.Yields k tokens') : tokens = tokens' := by
  induction h generalizing tokens' with
  | done h =>
    cases h' with
    | done => rfl
    | step h' => cases h.symm.trans h'
  | step h _ ih =>
    cases h' with
    | done h' => cases h.symm.trans h'
    | step h' hs' =>
      cases h.symm.trans h'
      rw [ih hs']

variable {defs : List (Delimiter κ)} {t : DelimiterTable κ}

theorem tokensFrom_of_search?_eq_none {place : Nat} {s : Text}
    (h : t.pattern.search? place s = none) (offset : Nat) :
    t.tokensFrom place offset s = Token.ofText s offset := by
  have hfind : t.find? place s = none := by simp [find?, h]
  rw [tokensFrom, hfind, Token.ofText]

theorem length_rest_lt (h : ofDelimiters defs = .ok t) {place : Nat} {s : Text} {hit : Hit}
    (hs : t.pattern.search? place s = some hit) : hit.rest.length < s.length := by
  have hpos := List.length_pos_iff.mpr (find?_of_search? h hs).1
  rw [(Pattern.isFirst_of_search? hs).whole, List.length_append, List.length_append]
  omega

theorem tokensFrom_of_search? (h : ofDelimiters defs = .ok t) {place : Nat} {s : Text} {hit : Hit}
    (hs : t.pattern.search? place s = some hit) {d : Delimiter κ} (hd : t.defOf? hit.names = some d)
    (offset : Nat) :
    t.tokensFrom place offset s = Token.ofText hit.before offset ++ Token.ofHit d hit offset ::
      t.tokensFrom (place + hit.before.length + hit.text.length)
        (offset + Text.bytes hit.before + Text.bytes hit.text) hit.rest := by
  have hfind : t.find? place s = some (d, hit) := by simp [find?, hs, hd]
  exact tokensFrom_eq hfind (length_rest_lt h hs)

/-- The tokens of an accepted table, up to the first delimiter and behind it. Each step leaves less
to read, as no delimiter is empty. -/
@[elab_as_elim]
theorem tokensFrom_induction (h : ofDelimiters defs = .ok t)
    {motive : Nat → Nat → Text → List (Token κ) → Prop}
    (empty : ∀ place offset, motive place offset [] [])
    (rest : ∀ place offset s, s ≠ [] → t.pattern.search? place s = none →
      motive place offset s [.text s offset])
    (found : ∀ place offset s hit d tokens, t.pattern.search? place s = some hit → hit.text ≠ [] →
      t.defOf? hit.names = some d → d ∈ defs →
      tokens = t.tokensFrom (place + hit.before.length + hit.text.length)
        (offset + Text.bytes hit.before + Text.bytes hit.text) hit.rest →
      motive (place + hit.before.length + hit.text.length)
        (offset + Text.bytes hit.before + Text.bytes hit.text) hit.rest tokens →
      motive place offset s (Token.ofText hit.before offset ++ Token.ofHit d hit offset :: tokens))
    (place offset : Nat) (s : Text) : motive place offset s (t.tokensFrom place offset s) := by
  by_cases hs : s = []
  · rw [hs, tokensFrom, if_pos rfl]
    exact empty place offset
  · cases hsearch : t.pattern.search? place s with
    | none =>
      rw [tokensFrom_of_search?_eq_none hsearch, Token.ofText, if_neg hs]
      exact rest place offset s hs hsearch
    | some hit =>
      obtain ⟨hne, d, hd, hfind⟩ := find?_of_search? h hsearch
      have hlt := length_rest_lt h hsearch
      rw [tokensFrom_of_search? h hsearch hd]
      exact found place offset s hit d _ hsearch hne hd
        (defs_of_ofDelimiters h ▸ mem_defs_of_find? hfind) rfl
        (tokensFrom_induction h empty rest found _ _ hit.rest)
termination_by s.length

theorem yields_tokensFrom (h : ofDelimiters defs = .ok t) (place offset : Nat) (s : Text) :
    t.Yields ⟨place, offset, s, none⟩ (t.tokensFrom place offset s) := by
  induction place, offset, s using tokensFrom_induction h with
  | empty place offset => exact .done (by simp [next?])
  | rest place offset s hs hsearch =>
    let k : Tokenizer κ := ⟨place, offset, s, none⟩
    have hstep : t.next? k = some (.text s offset, k.finished) := by simp [k, next?, hs, hsearch]
    exact .step hstep (.done (by simp [next?, Tokenizer.finished]))
  | found place offset s hit d tokens hsearch hne hd _ _ ih =>
    have hs : s ≠ [] := by
      rintro rfl
      have hwhole := (Pattern.isFirst_of_search? hsearch).whole
      exact hne (List.append_eq_nil_iff.mp (List.append_eq_nil_iff.mp hwhole.symm).2).1
    let k : Tokenizer κ := ⟨place, offset, s, none⟩
    obtain ⟨hb, he⟩ | ⟨hb, he⟩ :=
      Token.ofText_append hit.before offset (Token.ofHit d hit offset :: tokens)
    · have hstep : t.next? k = some (Token.ofHit d hit offset, k.behind hit) := by
        simp [k, next?, hs, hsearch, hd, hb]
      rw [he]
      exact .step hstep ih
    · have hstep : t.next? k = some (.text hit.before offset,
          (k.behind hit).keep (Token.ofHit d hit offset)) := by
        simp [k, next?, hs, hsearch, hd, hb]
      have hkept : t.next? ((k.behind hit).keep (Token.ofHit d hit offset)) =
          some (Token.ofHit d hit offset, k.behind hit) := rfl
      rw [he]
      exact .step hstep (.step hkept ih)

theorem sources_tokensFrom (h : ofDelimiters defs = .ok t) (place offset : Nat) (s : Text) :
    sources (t.tokensFrom place offset s) = s := by
  induction place, offset, s using tokensFrom_induction h with
  | empty place offset => rfl
  | rest place offset s hs _ => exact List.append_nil s
  | found place offset s hit d tokens hsearch hne _ _ _ ih =>
    have hd : sources (Token.ofHit d hit offset :: tokens) = hit.text ++ hit.rest :=
      congrArg (hit.text ++ ·) ih
    rw [(Pattern.isFirst_of_search? hsearch).whole]
    obtain ⟨hb, he⟩ | ⟨hb, he⟩ :=
      Token.ofText_append hit.before offset (Token.ofHit d hit offset :: tokens)
    · rw [he, hb, List.nil_append, hd]
    · rw [he, sources_cons, hd]
      rfl

theorem laid_tokensFrom (h : ofDelimiters defs = .ok t) (place offset : Nat) (s : Text) :
    Laid offset (t.tokensFrom place offset s) := by
  induction place, offset, s using tokensFrom_induction h with
  | empty place offset => exact .nil offset
  | rest place offset s hs _ => exact .singleton hs rfl
  | found place offset s hit d tokens hsearch hne _ _ _ ih =>
    have hd : Laid (offset + Text.bytes hit.before) (Token.ofHit d hit offset :: tokens) :=
      laid_cons (x := Token.ofHit d hit offset).mpr ⟨hne, ih, fun _ _ h => h.1⟩
    obtain ⟨hb, he⟩ | ⟨hb, he⟩ :=
      Token.ofText_append hit.before offset (Token.ofHit d hit offset :: tokens)
    · rw [he]
      rwa [hb, Text.bytes_nil, Nat.add_zero] at hd
    · rw [he]
      refine laid_cons (x := (.text hit.before offset : Token κ)).mpr ⟨hb, hd, ?_⟩
      rintro _ ⟨⟩ ⟨-, h⟩
      exact h

/-- No delimiter starts anywhere in the text tokens, which come behind `place` characters. -/
def Separates (t : DelimiterTable κ) : (place : Nat) → List (Token κ) → Prop
  | _, [] => True
  | place, token :: tokens =>
    (IsText token → t.pattern.Passes place (source token) (sources tokens)) ∧
      Separates t (place + (source token).length) tokens

theorem separates_tokensFrom (h : ofDelimiters defs = .ok t) (place offset : Nat) (s : Text) :
    t.Separates place (t.tokensFrom place offset s) := by
  induction place, offset, s using tokensFrom_induction h with
  | empty place offset => trivial
  | rest place offset s hs hsearch =>
    exact ⟨fun _ => Pattern.passes_of_search?_eq_none hsearch, trivial⟩
  | found place offset s hit d tokens hsearch hne _ _ htokens ih =>
    have hd : t.Separates (place + hit.before.length) (Token.ofHit d hit offset :: tokens) :=
      ⟨False.elim, ih⟩
    obtain ⟨hb, he⟩ | ⟨hb, he⟩ :=
      Token.ofText_append hit.before offset (Token.ofHit d hit offset :: tokens)
    · rw [he]
      rwa [hb, List.length_nil, Nat.add_zero] at hd
    · have hsources : sources (Token.ofHit d hit offset :: tokens) = hit.text ++ hit.rest := by
        rw [sources_cons, htokens, sources_tokensFrom h]
        rfl
      rw [he]
      refine ⟨fun _ => ?_, hd⟩
      rw [hsources]
      exact (Pattern.isFirst_of_search? hsearch).earlier

theorem exists_def_of_mem_tokens (h : ofDelimiters defs = .ok t) {s w : Text} {kind : κ}
    {role : Role} {offset : Nat} (hm : .delimiter kind role w offset ∈ t.tokens s) :
    ∃ d ∈ defs, d.kind = kind ∧ d.role = role :=
  defs_of_ofDelimiters h ▸ isDefined_of_mem_tokensFrom t 0 0 s _ hm

theorem covers_tokens (h : ofDelimiters defs = .ok t) (s : Text) : Covers s (t.tokens s) where
  toLaid := laid_tokensFrom h 0 0 s
  whole := sources_tokensFrom h 0 0 s

/-- With a table that is accepted, the iterator over the tokens of a text ends. Its tokens are the
whole text, each of them carries what a definition says, and no match anywhere is empty. -/
theorem yields_iff_tokens (h : ofDelimiters defs = .ok t) (s : Text) :
    (∀ tokens, t.Yields (.start s) tokens ↔ tokens = t.tokens s) ∧ Covers s (t.tokens s) ∧
      (∀ kind role w offset, .delimiter kind role w offset ∈ t.tokens s →
        ∃ d ∈ defs, d.kind = kind ∧ d.role = role) ∧
      (∀ c e, t.pattern.match? c = some e → c.place < e.place) ∧
      ∀ d ∈ defs, ∃ p, d.pattern? = some p ∧
        ∀ c e, p.match? c = some e → c.place < e.place := by
  refine ⟨fun tokens => ⟨fun hy => hy.unique (yields_tokensFrom h 0 0 s), ?_⟩, covers_tokens h s,
    fun _ _ _ _ => exists_def_of_mem_tokens h, fun c e hm => (lt_place_of_match? h hm).1, ?_⟩
  · rintro rfl
    exact yields_tokensFrom h 0 0 s
  · intro d hd
    obtain ⟨ps, -, hps⟩ := exists_patterns h
    obtain ⟨p, -, -, hp⟩ := exists_isChecked hps hd
    exact ⟨p, hp.1, fun c e hm => Pattern.lt_place_of_mem_hits hp.2 (Pattern.leads_of_match? hm).1⟩

/-- Delimiters in competition: the first one only starts a text, the second one reads less than the
third and comes before it, and the last one begins with any number of dashes. -/
def competing : List (Delimiter Nat) :=
  [⟨0, ['#'], .opening, some "^#+".toList⟩, ⟨1, "<%".toList, .opening, some "<(%|%=)".toList⟩,
    ⟨2, "<%=".toList, .opening, none⟩, ⟨3, "%>".toList, .closing, some "-*%>".toList⟩]

def competingTable : DelimiterTable Nat := ⟨competing, choice 0 (competing.filterMap (·.pattern?))⟩

theorem ofDelimiters_competing : ofDelimiters competing = .ok competingTable := by
  have hpatterns : competing.mapM checkedPattern = .ok (competing.filterMap (·.pattern?)) := by
    decide +kernel
  have hnames : (choice 0 (competing.filterMap (·.pattern?))).names.Nodup := by decide +kernel
  rw [ofDelimiters, if_neg (by simp [competing]), hpatterns]
  exact if_pos hnames

def contested : Text := "##x-%>é<%=y%>--%>##".toList

def contestedTokens : List (Token Nat) :=
  [.delimiter 0 .opening "##".toList 0, .text ['x'] 2, .delimiter 3 .closing "-%>".toList 3,
    .text ['é'] 6, .delimiter 1 .opening "<%".toList 8, .text "=y".toList 10,
    .delimiter 3 .closing "%>".toList 12, .delimiter 3 .closing "--%>".toList 14,
    .text "##".toList 18]

theorem tokens_contested : competingTable.tokens contested = contestedTokens := by decide +kernel

theorem yields_iff_tokens_contested :
    ofDelimiters competing = .ok competingTable ∧
      (∀ tokens, competingTable.Yields (.start contested) tokens ↔ tokens = contestedTokens) ∧
      Covers contested contestedTokens ∧
      (∀ kind role w offset, .delimiter kind role w offset ∈ contestedTokens →
        ∃ d ∈ competing, d.kind = kind ∧ d.role = role) ∧
      (∀ c e, competingTable.pattern.match? c = some e → c.place < e.place) ∧
      ∀ d ∈ competing, ∃ p, d.pattern? = some p ∧
        ∀ c e, p.match? c = some e → c.place < e.place := by
  have h := yields_iff_tokens ofDelimiters_competing contested
  rw [tokens_contested] at h
  exact ⟨ofDelimiters_competing, h⟩

end DelimiterTable

end Curly

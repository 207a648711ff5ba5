import Mathlib.Data.List.DropRight
import Curly.Proofs.Delimiter.LineEnd

namespace Curly

open Located

namespace Segment

variable {κ : Type}

/-- The segment stands for these tokens. -/
def IsMadeOf : Segment κ → List (Token κ) → Prop
  | .text s _, run => Role.opening ∉ Token.roles run ∧ s = sources run
  | .tag t, run => ∃ texts place,
      run = .delimiter t.opening .opening t.openText t.offset ::
        (texts ++ [.delimiter t.closing .closing t.closeText place]) ∧
      Token.roles texts = [] ∧ t.content = sources texts

theorem IsMadeOf.source_eq {x : Segment κ} {run : List (Token κ)} (h : x.IsMadeOf run) :
    source x = sources run := by
  cases x with
  | text s offset => exact h.2
  | tag t =>
    obtain ⟨texts, place, rfl, -, hc⟩ := h
    simp [source, Tag.source, hc]

inductive AreMadeOf : List (Segment κ) → List (Token κ) → Prop
  | nil : AreMadeOf [] []
  | cons {x : Segment κ} {segs : List (Segment κ)} {run tokens : List (Token κ)}
      (h : x.IsMadeOf run) (hs : AreMadeOf segs tokens) : AreMadeOf (x :: segs) (run ++ tokens)

theorem areMadeOf_cons {x : Segment κ} {segs : List (Segment κ)} {tokens : List (Token κ)} :
    AreMadeOf (x :: segs) tokens ↔
      ∃ run rest, tokens = run ++ rest ∧ x.IsMadeOf run ∧ AreMadeOf segs rest := by
  constructor
  · rintro (_ | ⟨h, hs⟩)
    exact ⟨_, _, rfl, h, hs⟩
  · rintro ⟨run, rest, rfl, h, hs⟩
    exact .cons h hs

theorem areMadeOf_append {segs segs' : List (Segment κ)} {tokens : List (Token κ)} :
    AreMadeOf (segs ++ segs') tokens ↔
      ∃ read rest, tokens = read ++ rest ∧ AreMadeOf segs read ∧ AreMadeOf segs' rest := by
  induction segs generalizing tokens with
  | nil =>
    constructor
    · intro h
      exact ⟨[], tokens, rfl, .nil, h⟩
    · rintro ⟨read, rest, rfl, ⟨⟩, h⟩
      exact h
  | cons x segs ih =>
    rw [List.cons_append, areMadeOf_cons]
    constructor
    · rintro ⟨run, rest, rfl, h, hs⟩
      obtain ⟨read, rest, rfl, hsegs, hsegs'⟩ := ih.mp hs
      exact ⟨run ++ read, rest, (List.append_assoc ..).symm, .cons h hsegs, hsegs'⟩
    · rintro ⟨read, rest, rfl, hsegs, hsegs'⟩
      obtain ⟨run, read, rfl, h, hs⟩ := areMadeOf_cons.mp hsegs
      exact ⟨run, read ++ rest, List.append_assoc .., h, ih.mpr ⟨read, rest, rfl, hs, hsegs'⟩⟩

theorem areMadeOf_concat {x : Segment κ} {segs : List (Segment κ)} {tokens : List (Token κ)} :
    AreMadeOf (segs ++ [x]) tokens ↔
      ∃ read run, tokens = read ++ run ∧ AreMadeOf segs read ∧ x.IsMadeOf run := by
  rw [areMadeOf_append]
  constructor
  · rintro ⟨read, rest, rfl, hsegs, hx⟩
    obtain ⟨run, _, rfl, h, ⟨⟩⟩ := areMadeOf_cons.mp hx
    exact ⟨read, run, by rw [List.append_nil], hsegs, h⟩
  · rintro ⟨read, run, rfl, hsegs, h⟩
    exact ⟨read, run, rfl, hsegs, List.append_nil run ▸ .cons h .nil⟩

theorem AreMadeOf.sources_eq {segs : List (Segment κ)} {tokens : List (Token κ)}
    (h : AreMadeOf segs tokens) : sources segs = sources tokens := by
  induction h with
  | nil => rfl
  | cons h _ ih => rw [sources_cons, sources_append, h.source_eq, ih]

theorem AreMadeOf.addText {done : List (Segment κ)} {read : List (Token κ)}
    (h : AreMadeOf done.reverse read) {token : Token κ} (hne : source token ≠ [])
    (hr : token.role? ≠ some .opening) (place : Nat) :
    AreMadeOf (addText (source token) place done).reverse (read ++ [token]) := by
  have hroles {run : List (Token κ)} (hrun : Role.opening ∉ Token.roles run) :
      Role.opening ∉ Token.roles (run ++ [token]) := by
    rw [Token.roles_concat, List.mem_append]
    rintro (hm | hm)
    · exact hrun hm
    · exact hr (Option.mem_toList.mp hm)
  obtain ⟨u, start, rest, rfl, he⟩ | ⟨-, he⟩ := addText_cases hne place done
  · rw [List.reverse_cons] at h
    obtain ⟨read, run, rfl, hrest, hrun, rfl⟩ := areMadeOf_concat.mp h
    rw [he, List.reverse_cons]
    exact areMadeOf_concat.mpr
      ⟨read, run ++ [token], List.append_assoc .., hrest, hroles hrun, by simp⟩
  · rw [he, List.reverse_cons]
    exact areMadeOf_concat.mpr ⟨read, [token], rfl, h, @hroles [] (by simp [Token.roles]), by simp⟩

end Segment

def OpenTag.IsMadeOf {κ : Type} (w : OpenTag κ) (run : List (Token κ)) : Prop :=
  ∃ texts, run = .delimiter w.kind .opening w.openText w.offset :: texts ∧
    Token.roles texts = [] ∧ w.content = sources texts

namespace Pairing

variable {κ : Type}

def IsMadeOf (q : Pairing κ) (read : List (Token κ)) : Prop :=
  ∃ before run, read = before ++ run ∧ Segment.AreMadeOf q.done.reverse before ∧
    match q.waiting with
    | none => run = []
    | some w => w.IsMadeOf run

theorem IsMadeOf.step {input : Text} {q q' : Pairing κ} {read : List (Token κ)} {token : Token κ}
    (h : q.IsMadeOf read) (hne : source token ≠ []) (hs : q.step input token = .ok q') :
    q'.IsMadeOf (read ++ [token]) := by
  obtain ⟨done, _ | w⟩ := q
  · obtain ⟨read, _, rfl, hdone, rfl⟩ := h
    rw [List.append_nil]
    cases token with
    | text s place =>
      cases hs
      exact ⟨_, [], (List.append_nil _).symm, hdone.addText hne (by simp [Token.role?]) place, rfl⟩
    | delimiter kind role s place =>
      cases role with
      | opening =>
        cases hs
        exact ⟨read, _, rfl, hdone, [], rfl, rfl, rfl⟩
      | closing =>
        cases hs
        exact ⟨_, [], (List.append_nil _).symm, hdone.addText hne (by simp [Token.role?]) place,
          rfl⟩
  · obtain ⟨read, _, rfl, hdone, texts, rfl, hr, hc⟩ := h
    rw [List.append_assoc]
    cases token with
    | text s place =>
      cases hs
      refine ⟨read, _, rfl, hdone, texts ++ [.text s place], rfl, ?_, ?_⟩
      · rw [Token.roles_concat, hr]
        rfl
      · simp [OpenTag.add, hc, source]
    | delimiter kind role s place =>
      cases role with
      | opening => cases hs
      | closing =>
        cases hs
        refine ⟨_, [], (List.append_nil _).symm, ?_, rfl⟩
        rw [List.reverse_cons]
        exact Segment.areMadeOf_concat.mpr ⟨read, _, rfl, hdone, texts, place, rfl, hr, hc⟩

theorem IsMadeOf.of_reads {input : Text} {read : List (Token κ)} {q : Pairing κ}
    (h : q.Reads input read) (hne : ∀ token ∈ read, source token ≠ []) : q.IsMadeOf read := by
  induction h with
  | start => exact ⟨[], [], rfl, .nil, rfl⟩
  | step _ hs ih =>
    exact (ih fun token hm => hne token (List.mem_append_left _ hm)).step
      (hne _ (List.mem_append_right _ (List.mem_singleton_self _))) hs

end Pairing

theorem DelimiterTable.areMadeOf_segments {κ : Type} {defs : List (Delimiter κ)}
    {t : DelimiterTable κ} (h : ofDelimiters defs = .ok t) {s : Text} {segs : List (Segment κ)}
    (hs : t.segments s = .ok segs) : Segment.AreMadeOf segs (t.tokens s) := by
  obtain ⟨q, hr, hp⟩ | ⟨_, _, _, _, _, _, _, _, hp⟩ :=
    Pairing.reads_or_error (@Pairing.Reads.start _ s) (t.tokens s)
  · rw [List.nil_append] at hr
    obtain ⟨hw, rfl⟩ := Pairing.finish_ok (hp.symm.trans hs)
    obtain ⟨before, run, hread, hdone, hrun⟩ :=
      Pairing.IsMadeOf.of_reads hr (covers_tokens h s).nonempty
    rw [hw] at hrun
    obtain rfl : run = [] := hrun
    rwa [hread, List.append_nil]
  · cases hp.symm.trans hs

namespace Mark

theorem read?_ne_none {m : Mark} {w s : Text} (hw : w ∈ m.spellings) (hp : w <+: s) :
    m.read? s ≠ none := by
  have hstart : ∃ c v, w = c :: v ∧ c ≠ '\n' := by
    cases w with
    | nil => cases m <;> simp [spellings, literal] at hw
    | cons c v =>
      refine ⟨c, v, rfl, ?_⟩
      rintro rfl
      exact (not_lineEnd_of_mem_spellings hw).1 (List.mem_cons_self ..)
  obtain ⟨c, v, rfl, hc⟩ := hstart
  obtain ⟨u, rfl⟩ := hp
  rw [List.cons_append, read?_eq_spelled? hc]
  intro h
  have hall := List.find?_eq_none.mp h _ hw
  simp at hall

theorem not_isPrefix_of_at? {s : Text} (h : at? s = none) {m : Mark} {w : Text}
    (hw : w ∈ m.spellings) : ¬w <+: s := by
  intro hp
  have hm := List.findSome?_eq_none_iff.mp h m (by cases m <;> decide)
  exact read?_ne_none hw hp (Option.map_eq_none_iff.mp hm)

/-- A mark reads only where no mark before it is spelled. -/
theorem not_isPrefix_of_idxOf_lt {s w : Text} {m : Mark} (h : at? s = some (m, w)) {m' : Mark}
    (hlt : all.idxOf m' < all.idxOf m) {w' : Text} (hw : w' ∈ m'.spellings) : ¬w' <+: s := by
  intro hp
  obtain ⟨before, m₀, behind, hall, hm₀, hbefore⟩ := List.findSome?_eq_some_iff.mp h
  obtain ⟨_, _, he⟩ := Option.map_eq_some_iff.mp hm₀
  obtain rfl := congrArg Prod.fst he
  have hmem : m' ∈ before := by
    by_contra hmem
    rw [hall, List.idxOf_append, if_neg hmem, List.idxOf_append] at hlt
    split at hlt
    · next h =>
      have := List.idxOf_lt_length_iff.mpr h
      omega
    · rw [List.idxOf_cons_self] at hlt
      omega
  exact read?_ne_none hw hp (Option.map_eq_none_iff.mp (hbefore m' hmem))

/-- No mark reads anything in `s`, where `rest` follows. -/
def Passes (s rest : Text) : Prop := ∀ u v, s = u ++ v → v ≠ [] → at? (v ++ rest) = none

theorem Passes.not_isInfix {s rest : Text} (h : Passes s rest) {m : Mark} {w : Text}
    (hw : w ∈ m.spellings) (hne : w ≠ []) : ¬w <:+: s := by
  rintro ⟨u, v, hs⟩
  have hsplit : s = u ++ (w ++ v) := by rw [← hs, List.append_assoc]
  have hnone := h u (w ++ v) hsplit (List.append_ne_nil_of_left_ne_nil hne v)
  exact not_isPrefix_of_at? hnone hw ((List.prefix_append w v).trans (List.prefix_append _ rest))

theorem passes_of_texts {s : Text} {read texts behind : List (Token Mark)}
    (h : table.tokens s = read ++ (texts ++ behind)) (ht : Token.roles texts = []) :
    Passes (sources texts) (sources behind) := by
  intro u v hv hne
  have hs := DelimiterTable.separates_tokensFrom ofDelimiters_delimiters 0 0 s
  rw [← DelimiterTable.tokens, h] at hs
  have hp := DelimiterTable.passes_of_texts (DelimiterTable.separates_append hs) ht u v hv hne
  rwa [match?_table, Option.map_eq_none_iff] at hp

theorem passes_of_text {s w : Text} {o : Nat} {read behind : List (Token Mark)}
    (h : table.tokens s = read ++ .text w o :: behind) : Passes w (sources behind) := by
  have hp : Passes (w ++ []) (sources behind) := @passes_of_texts s read [.text w o] behind h rfl
  rwa [List.append_nil] at hp

theorem not_braces_of_roles {s : Text} {read run behind : List (Token Mark)}
    (h : table.tokens s = read ++ (run ++ behind)) (hr : Role.opening ∉ Token.roles run) :
    ¬['{', '{'] <:+: sources run := by
  rintro ⟨a, b, hab⟩
  rw [List.append_assoc] at hab
  obtain ⟨before, token, rest, u, v, rfl, ht, -, hv⟩ := exists_of_sources_eq hab.symm
  have hsplit : table.tokens s = (read ++ before) ++ (token :: (rest ++ behind)) := by
    rw [h]
    simp
  cases token with
  | text w o =>
    have hnone := passes_of_text hsplit u _ ht (List.cons_ne_nil _ v)
    rw [sources_append, List.cons_append, ← List.append_assoc v, ← hv] at hnone
    have hopen : plainOpen.literal ∈ plainOpen.spellings := by decide
    exact not_isPrefix_of_at? hnone hopen ⟨_, rfl⟩
  | delimiter m role w o =>
    have hmem : .delimiter m role w o ∈ table.tokens s := by simp [hsplit]
    have hbrace : '{' ∈ w := by simp [show w = _ from ht]
    cases role with
    | opening => exact hr (List.mem_filterMap.mpr ⟨_, List.mem_append_right _ (.head _), rfl⟩)
    | closing =>
      have hm := role_of_mem_tokens hmem
      rw [eq_literal_of_closing hmem] at hbrace
      cases m with
      | reservedClose | tripleClose | close => simp [literal] at hbrace
      | _ => cases hm

/-- What follows two opening braces in the longer delimiters. -/
def openingMarkers : List Char := ['{', '&', '!', '~', '$']

theorem plainOpen_of_at? {s w : Text} (h : at? (w ++ s) = some (plainOpen, w)) :
    w = plainOpen.literal ∧ ∀ c ∈ s.head?, c ∉ openingMarkers := by
  obtain rfl := read?_eq_literal rfl (read?_of_at? h)
  refine ⟨rfl, fun c hc hm => ?_⟩
  have hlonger : ∃ m : Mark,
      all.idxOf m < all.idxOf plainOpen ∧ plainOpen.literal ++ [c] ∈ m.spellings := by
    simp only [openingMarkers, List.mem_cons, List.not_mem_nil, or_false] at hm
    obtain rfl | rfl | rfl | rfl | rfl := hm
    · exact ⟨verbatimOpen, by decide, by decide⟩
    · exact ⟨verbatimOpen, by decide, by decide⟩
    · exact ⟨commentOpen, by decide, by decide⟩
    · exact ⟨runOpen, by decide, by decide⟩
    · exact ⟨reservedOpen, by decide, by decide⟩
  obtain ⟨m, hlt, hw⟩ := hlonger
  obtain ⟨s, rfl⟩ := List.head?_eq_some_iff.mp hc
  exact not_isPrefix_of_idxOf_lt h hlt hw ⟨s, by simp⟩

theorem close_of_at? {s w : Text} (h : at? (w ++ s) = some (close, w)) : s.head? ≠ some '}' := by
  obtain rfl := read?_eq_literal rfl (read?_of_at? h)
  intro hs
  obtain ⟨s, rfl⟩ := List.head?_eq_some_iff.mp hs
  have hlt : all.idxOf tripleClose < all.idxOf close := by decide
  exact not_isPrefix_of_idxOf_lt h hlt (List.mem_singleton_self _) ⟨s, rfl⟩

/-- A character that would make a longer delimiter of two closing braces is not left to what comes
before them. -/
theorem Passes.getLast?_of_braces {s rest : Text} (h : Passes s (['}', '}'] ++ rest)) :
    ∀ c ∈ s.getLast?, c ≠ '$' ∧ c ≠ '}' := by
  intro c hc
  obtain ⟨u, rfl⟩ := List.getLast?_eq_some_iff.mp hc
  have hnone := h u [c] rfl (List.cons_ne_nil c [])
  constructor
  · rintro rfl
    have hw : reservedClose.literal ∈ reservedClose.spellings := by decide
    exact not_isPrefix_of_at? hnone hw ⟨rest, rfl⟩
  · rintro rfl
    have hw : tripleClose.literal ∈ tripleClose.spellings := by decide
    exact not_isPrefix_of_at? hnone hw ⟨rest, rfl⟩

theorem commentOpen_of_at? {s w : Text} (h : at? s = some (commentOpen, w)) :
    ∃ lead, w = lead ++ commentOpen.literal ∧ (∀ c ∈ lead, Text.isBlank c = true) ∧
      (lead ≠ [] → lead.head? = some '\n') := by
  obtain ⟨lead, v, hw, hv, hblank, hlead⟩ := exists_lead_of_read? (read?_of_at? h)
  obtain rfl := List.mem_singleton.mp hv
  exact ⟨lead, hw, hblank, fun hne => (hlead hne).2⟩

theorem at?_newline_ne_none {blanks : Text} (h : ∀ c ∈ blanks, Text.isBlank c = true) (s : Text) :
    at? ('\n' :: (blanks ++ (commentOpen.literal ++ s))) ≠ none := by
  intro hnone
  have hm := List.findSome?_eq_none_iff.mp hnone commentOpen (by decide)
  have hread := Option.map_eq_none_iff.mp hm
  have hdrop : (blanks ++ (commentOpen.literal ++ s)).dropWhile Text.isBlank =
      commentOpen.literal ++ s := by
    rw [List.dropWhile_append_of_pos h]
    exact List.dropWhile_cons_of_neg (by decide)
  rw [read?, hdrop, Option.map_eq_none_iff] at hread
  have hall := List.find?_eq_none.mp hread commentOpen.literal (by decide)
  simp at hall

theorem getLast?_of_mem_tokens {m : Mark} {role : Role} {s w : Text} {o : Nat}
    (h : .delimiter m role w o ∈ table.tokens s) :
    ∃ c, w.getLast? = some c ∧ Text.isBlank c = false := by
  obtain ⟨u, hu⟩ := exists_read?_of_mem_tokens h
  obtain ⟨lead, v, rfl, hv, -, -⟩ := exists_lead_of_read? hu
  have hlast : ∀ m ∈ all, ∀ v ∈ m.spellings, v.getLast?.map Text.isBlank = some false := by decide
  obtain ⟨c, hc, hblank⟩ := Option.map_eq_some_iff.mp (hlast m (by cases m <;> decide) v hv)
  exact ⟨c, by rw [List.getLast?_append, hc, Option.some_or], hblank⟩

/-- No line feed with nothing but blanks behind it comes before the braces of a comment. -/
theorem not_newline_of_comment {s blanks rest a b : Text} {read behind : List (Token Mark)}
    (h : table.tokens s = read ++ behind)
    (hbehind : sources behind = blanks ++ (commentOpen.literal ++ rest))
    (hblanks : ∀ c ∈ blanks, Text.isBlank c = true) (hread : sources read = a ++ '\n' :: b)
    (hb : ∀ c ∈ b, Text.isBlank c = true) : False := by
  obtain ⟨before, token, more, u, v, rfl, ht, -, rfl⟩ := exists_of_sources_eq hread
  obtain ⟨hv, hmore⟩ := List.forall_mem_append.mp hb
  rw [List.append_assoc, List.cons_append] at h
  cases token with
  | text w o =>
    have hnone := passes_of_text h u _ ht (List.cons_ne_nil _ v)
    rw [sources_append, hbehind, List.cons_append, ← List.append_assoc v,
      ← List.append_assoc] at hnone
    exact at?_newline_ne_none (List.forall_mem_append.mpr ⟨hb, hblanks⟩) rest hnone
  | delimiter m role w o =>
    have hmem : .delimiter m role w o ∈ table.tokens s := by simp [h]
    obtain ⟨c, hlast, hc⟩ := getLast?_of_mem_tokens hmem
    rw [show w = _ from ht, List.getLast?_append_of_ne_nil _ (List.cons_ne_nil _ v)] at hlast
    obtain rfl | hm := List.mem_cons.mp (List.mem_of_getLast? hlast)
    · cases hc
    · cases hc.symm.trans (hv c hm)

theorem newline_not_mem_of_comment {s v u w : Text} {role : Role} {o : Nat}
    {read behind : List (Token Mark)}
    (h : table.tokens s = read ++ .delimiter commentOpen role w o :: behind)
    (hread : sources read = v ++ u) : '\n' ∉ u.rtakeWhile Text.isBlank := by
  intro hm
  obtain ⟨lead, hlead, hblank, -⟩ := commentOpen_of_at? (at?_of_tokensFrom 0 0 s read h)
  have hbehind : sources (.delimiter commentOpen role w o :: behind) =
      lead ++ (commentOpen.literal ++ sources behind) := by
    rw [sources_cons, show Located.source _ = w from rfl, hlead, List.append_assoc]
  obtain ⟨a, b, hab⟩ := List.append_of_mem hm
  have hb : ∀ c ∈ b, Text.isBlank c = true := fun c hc =>
    List.mem_rtakeWhile_imp (hab ▸ List.mem_append_right a (List.mem_cons_of_mem _ hc))
  have hsplit : sources read = (v ++ (u.rdropWhile Text.isBlank ++ a)) ++ '\n' :: b := by
    rw [hread, List.append_assoc, List.append_assoc, ← hab, List.rdropWhile_append_rtakeWhile]
  exact not_newline_of_comment h hbehind hblank hsplit hb

/-- The blanks before the braces of a comment, from the first line feed on, where the text before
them has no blank line at its end. -/
theorem dropWhile_rtakeWhile_append {u lead : Text} (hu : '\n' ∉ u.rtakeWhile Text.isBlank)
    (hlead : ∀ c ∈ lead, Text.isBlank c = true) (hhead : lead ≠ [] → lead.head? = some '\n') :
    ((u ++ lead).rtakeWhile Text.isBlank).dropWhile (· ≠ '\n') = lead := by
  have htake : (u ++ lead).rtakeWhile Text.isBlank = u.rtakeWhile Text.isBlank ++ lead := by
    rw [List.rtakeWhile, List.reverse_append, List.takeWhile_append_of_pos (by simpa using hlead),
      List.reverse_append, List.reverse_reverse, List.rtakeWhile]
  rw [htake, List.dropWhile_append_of_pos]
  · cases lead with
    | nil => rfl
    | cons c lead =>
      obtain rfl := Option.some.inj (hhead (List.cons_ne_nil c lead))
      exact List.dropWhile_cons_of_neg (by simp)
  · intro c hc
    simp only [ne_eq, decide_not, Bool.not_eq_true', decide_eq_false_iff_not]
    rintro rfl
    exact hu hc

theorem tokens_of_tag {s : Text} {before behind : List (Segment Mark)} {t : Tag Mark}
    (h : table.segments s = .ok (before ++ .tag t :: behind)) :
    ∃ read texts place rest,
      table.tokens s = read ++ .delimiter t.opening .opening t.openText t.offset ::
        (texts ++ .delimiter t.closing .closing t.closeText place :: rest) ∧
      Token.roles texts = [] ∧ t.content = sources texts ∧
      sources read = sources before ∧ sources rest = sources behind := by
  obtain ⟨read, rest, ht, hbefore, hrest⟩ :=
    Segment.areMadeOf_append.mp (DelimiterTable.areMadeOf_segments ofDelimiters_delimiters h)
  obtain ⟨_, rest, rfl, ⟨texts, place, rfl, hr, hc⟩, hbehind⟩ := Segment.areMadeOf_cons.mp hrest
  refine ⟨read, texts, place, rest, ?_, hr, hc, hbefore.sources_eq.symm, hbehind.sources_eq.symm⟩
  rw [ht]
  simp

theorem not_braces_of_mem_segments {s u : Text} {segs : List (Segment Mark)} {o : Nat}
    (h : table.segments s = .ok segs) (hm : .text u o ∈ segs) : ¬['{', '{'] <:+: u := by
  obtain ⟨before, behind, rfl⟩ := List.append_of_mem hm
  obtain ⟨read, rest, ht, -, hrest⟩ :=
    Segment.areMadeOf_append.mp (DelimiterTable.areMadeOf_segments ofDelimiters_delimiters h)
  obtain ⟨run, rest, rfl, ⟨hr, rfl⟩, -⟩ := Segment.areMadeOf_cons.mp hrest
  exact not_braces_of_roles ht hr

end Mark

/-- What a tag looks like in a template, where `before` and `behind` stand around it. -/
structure Tag.IsShaped (t : Tag Mark) (s before behind : Text) : Prop where
  whole : s = before ++ (t.source ++ behind)
  content : ¬['{', '{'] <:+: t.content ∧ ¬['}', '}'] <:+: t.content
  plainOpen : t.opening = .plainOpen → t.openText = ['{', '{'] ∧
    ∀ c ∈ (t.content ++ (t.closeText ++ behind)).head?, c ∉ Mark.openingMarkers
  close : t.closing = .close → t.closeText = ['}', '}'] ∧ behind.head? ≠ some '}'
  last : t.closing ≠ .reservedClose → ∀ c ∈ t.content.getLast?, c ≠ '$' ∧ c ≠ '}'
  commentOpen : t.opening = .commentOpen → ∃ p,
    s = p ++ (Mark.commentOpen.literal ++ (t.content ++ (t.closeText ++ behind))) ∧
    t.position = Text.bytes p ∧
    t.openText = (p.rtakeWhile Text.isBlank).dropWhile (· ≠ '\n') ++ Mark.commentOpen.literal

namespace Mark

theorem isShaped_of_segments {s : Text} {before behind : List (Segment Mark)} {t : Tag Mark}
    (h : table.segments s = .ok (before ++ .tag t :: behind)) :
    t.IsShaped s (sources before) (sources behind) := by
  obtain ⟨read, texts, place, rest, ht, hr, hc, hread, hrest⟩ := tokens_of_tag h
  have hcovers := DelimiterTable.covers_tokens ofDelimiters_delimiters s
  have hwhole : s = sources before ++ (t.source ++ sources behind) := by
    rw [← hcovers.whole, ht, ← hread, ← hrest]
    simp [Located.source, Tag.source, hc]
  have hopen : at? (t.openText ++ (t.content ++ (t.closeText ++ sources behind))) =
      some (t.opening, t.openText) := by
    have hat := at?_of_tokensFrom 0 0 s read ht
    rw [sources_append, sources_cons, ← hc, hrest] at hat
    exact hat
  -- The closing delimiter is read behind the opening one and the texts in between.
  let opened := read ++ [.delimiter t.opening .opening t.openText t.offset]
  have hcontent : table.tokens s =
      opened ++ (texts ++ .delimiter t.closing .closing t.closeText place :: rest) := by
    rw [ht, List.append_assoc, List.singleton_append]
  have hclose : at? (t.closeText ++ sources behind) = some (t.closing, t.closeText) := by
    rw [← hrest]
    exact at?_of_tokensFrom 0 0 s (opened ++ texts) (by rwa [List.append_assoc])
  have hpasses : Passes t.content (t.closeText ++ sources behind) := by
    rw [hc, ← hrest]
    exact passes_of_texts hcontent hr
  refine ⟨hwhole, ⟨?_, ?_⟩, fun ho => ?_, fun ho => ?_, fun ho => ?_, fun ho => ?_⟩
  · exact hpasses.not_isInfix (m := plainOpen) (by decide) (List.cons_ne_nil _ _)
  · exact hpasses.not_isInfix (m := close) (by decide) (List.cons_ne_nil _ _)
  · rw [ho] at hopen
    exact plainOpen_of_at? hopen
  · rw [ho] at hclose
    exact ⟨read?_eq_literal rfl (read?_of_at? hclose), close_of_at? hclose⟩
  · have hmem : .delimiter t.closing .closing t.closeText place ∈ table.tokens s := by simp [ht]
    have hm := role_of_mem_tokens hmem
    have hbraces : ['}', '}'] <+: t.closeText := by
      rw [eq_literal_of_closing hmem]
      cases hclosing : t.closing with
      | reservedClose => exact absurd hclosing ho
      | tripleClose | close => decide
      | _ => rw [hclosing] at hm; cases hm
    obtain ⟨more, hmore⟩ := hbraces
    rw [← hmore, List.append_assoc] at hpasses
    exact hpasses.getLast?_of_braces
  · rw [ho] at hopen
    obtain ⟨lead, hlead, hblank, hhead⟩ := commentOpen_of_at? hopen
    have hnone : '\n' ∉ (sources read).rtakeWhile Text.isBlank :=
      newline_not_mem_of_comment (v := []) (ho ▸ ht) rfl
    refine ⟨sources read ++ lead, ?_, ?_, ?_⟩
    · rw [hwhole, ← hread, Tag.source, hlead]
      simp
    · have hplaced : t.offset = 0 + Text.bytes (sources read) := hcovers.placed read _ _ ht
      have hindent : Text.indent (lead ++ commentOpen.literal) = Text.bytes lead :=
        IsOpening.indent_eq ⟨hblank, by decide⟩
      rw [Tag.position, hlead, hindent, hplaced, Text.bytes_append, Nat.zero_add]
    · rw [dropWhile_rtakeWhile_append hnone hblank hhead, hlead]

/-- What the segments of a text look like. No text has opening braces in it, and no text before a
comment ends in blank lines. Two opening braces are a delimiter only where no longer one goes on
from them, be there a fault behind it or not. -/
theorem segments_areShaped {s : Text} {segs : List (Segment Mark)}
    (h : table.segments s = .ok segs) :
    (∀ u o, .text u o ∈ segs → ¬['{', '{'] <:+: u) ∧
    (∀ before t behind, segs = before ++ .tag t :: behind →
      t.IsShaped s (sources before) (sources behind)) ∧
    (∀ before u o t behind, segs = before ++ .text u o :: .tag t :: behind →
      t.opening = .commentOpen → '\n' ∉ u.rtakeWhile Text.isBlank) ∧
    ∀ read role w o behind, table.tokens s = read ++ .delimiter .plainOpen role w o :: behind →
      ∀ c ∈ (sources behind).head?, c ∉ openingMarkers := by
  refine ⟨fun u o hm => not_braces_of_mem_segments h hm, ?_, ?_, ?_⟩
  · rintro before t behind rfl
    exact isShaped_of_segments h
  · rintro before u o t behind rfl ho
    rw [List.append_cons] at h
    obtain ⟨read, texts, place, rest, ht, -, -, hread, -⟩ := tokens_of_tag h
    refine newline_not_mem_of_comment (v := sources before) (ho ▸ ht) (hread.trans ?_)
    simp [Located.source]
  · intro read role w o behind ht
    exact (plainOpen_of_at? (at?_of_tokensFrom 0 0 s read ht)).2

theorem segments_areShaped_comment :
    let opening := '\n' :: ' ' :: commentOpen.literal
    let t : Tag Mark := ⟨.commentOpen, opening, ['x'], .close, close.literal, 1⟩
    let s := 'a' :: (opening ++ 'x' :: (close.literal ++ braced 'b' []))
    table.segments s = .ok [.text ['a'] 0, .tag t, .tag (bracedTag 'b' [] 9)] ∧
      ¬['{', '{'] <:+: ['a'] ∧ t.IsShaped s ['a'] (braced 'b' []) ∧
      '\n' ∉ ['a'].rtakeWhile Text.isBlank := by
  intro opening t s
  have hs : table.segments s = .ok [.text ['a'] 0, .tag t, .tag (bracedTag 'b' [] 9)] :=
    DelimiterTable.segments_of_toOption (by decide +kernel)
  obtain ⟨htexts, htags, hcomment, -⟩ := segments_areShaped hs
  exact ⟨hs, htexts _ 0 (List.mem_cons_self ..), htags [_] t _ rfl, hcomment [] _ 0 t _ rfl rfl⟩

end Mark

end Curly

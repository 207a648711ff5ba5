import Curly.Proofs.Script.Alike
import Curly.Proofs.Section.Rendering

namespace Curly

open Script

namespace Source

/-- What is written at once: a copied text, or the inside of a tag. -/
inductive Part where
  | text (s : Text)
  | printed (expr : Text)
  | statement (code : Text)
deriving DecidableEq, Repr

namespace Part

open Script.Piece

def source : Part → Text
  | text s => protectedText s
  | printed expr => Source.printed expr
  | statement code => Source.statement code

def sources (parts : List Part) : Text := parts.flatMap source

/-- A tag is complete if it is read by itself. One that only opens a raw block is not, nor is one
whose string or comment goes on. -/
inductive IsComplete : Part → Prop
  | text (s : Text) : IsComplete (text s)
  | printed {expr : Text} {ps : List Piece} :
      readAll (Source.printed expr) = .ok ps → IsComplete (printed expr)
  | statement {code : Text} {ps : List Piece} :
      readAll (Source.statement code) = .ok ps → IsComplete (statement code)

/-- Takes in a part by itself. A text is put out as it is; if it is printed as a literal, the filter
behind the literal takes two levels. -/
def add (limit : Nat) (b : Builder) : Part → Except Refusal Builder
  | text s => within (Fragment.textLevels s) (limit - b.frames.length) (b.push (.text s))
  | p => (readAll p.source).bind (b.addAll limit)

def addAll (limit : Nat) (b : Builder) (parts : List Part) : Except Refusal Builder :=
  parts.foldlM (add limit) b

/-- The statements of parts of which each one is read by itself. -/
def readEach (limit : Nat) (parts : List Part) : Except Refusal (List Stmt) :=
  (addAll limit {} parts).bind Builder.finish

variable {limit : Nat} {p : Part} {parts : List Part}

theorem addAll_ofText (limit : Nat) (b : Builder) (s : Text) :
    ∃ ss, Stmt.Same [.text s] ss ∧
      b.addAll limit ((Fragment.ofText s).flatMap Fragment.atoms) =
        within (Fragment.textLevels s) (limit - b.frames.length) (b.pushAll ss) := by
  have happend := (Fragment.shielded_append s).1
  unfold Fragment.ofText Fragment.textLevels
  by_cases hb : '{' ∈ s
  · generalize Fragment.shielded s = body at *
    generalize s.drop body.length = tail at *
    -- Text that could end a raw block is printed as a literal, which takes levels.
    by_cases hi : Text.includes body "endraw".toList = true
    · refine ⟨.print (.filter (.const (.plain body)) "safe".toList []) ::
        tail.map fun c => .text [c], ?_, ?_⟩
      · refine .of_outputs (fun _ _ => Stmt.outputs_text s) fun env sc => ?_
        have hbody := @Stmt.outputs_ofBody env sc body
        rw [Stmt.ofBody, if_pos hi] at hbody
        rw [← happend]
        exact hbody.append (Stmt.outputs_letters tail)
      · have hprinted : b.add limit (.printed _) = _ :=
          Builder.add_printed (Fragment.readsExpr_body body)
        simp only [hb, hi, and_self, if_true, Fragment.ofBody, List.flatMap_cons, List.flatMap_nil,
          List.append_nil, Fragment.atoms_plain, Fragment.atoms_printed, Builder.addAll_append,
          Builder.addAll_singleton, hprinted, Builder.pushAll_cons]
        exact within_bind_ok (Builder.addAll_letters limit _ tail)
    · have hraw : letters body ++ letters tail = letters s := by rw [← letters_append, happend]
      refine ⟨_, .letters s, ?_⟩
      simp only [hb, hi, and_false, if_true, if_false, Bool.false_eq_true, Fragment.ofBody,
        List.flatMap_cons, List.flatMap_nil, List.append_nil, Fragment.atoms_plain,
        Fragment.atoms_raw, hraw, Builder.addAll_letters, within_zero]
  · refine ⟨_, .letters s, ?_⟩
    simp only [hb, false_and, if_false, List.flatMap_singleton, Fragment.atoms_plain,
      Builder.addAll_letters, within_zero]

/-- A part that has atoms of its own, and is built by itself as they are. -/
structure Settles (p : Part) (ps : List Piece) : Prop where
  standsAlone : StandsAlone p.source ps
  add : ∀ {limit : Nat} {b b' : Builder}, b.Alike b' →
    Agree Builder.Alike (p.add limit b) (b'.addAll limit ps)

theorem standsAlone_text (s : Text) :
    StandsAlone (text s).source ((Fragment.ofText s).flatMap Fragment.atoms) := by
  rw [source, ← Fragment.sources_ofText]
  exact Fragment.standsAlone_sources (Fragment.isRead_ofText s)

theorem IsComplete.settles (h : p.IsComplete) : ∃ ps, Settles p ps := by
  cases h with
  | text s =>
    refine ⟨_, standsAlone_text s, ?_⟩
    intro limit b b' hb
    obtain ⟨ss, hs, ht⟩ := addAll_ofText limit b' s
    rw [ht, add, hb.depth]
    exact .within (hb.pushAll hs)
  | @printed expr ps hp =>
    refine ⟨atoms ps, .tag (sealed_blank _ '}') rfl hp, ?_⟩
    intro limit b b' hb
    rw [add, source, hp]
    · exact Builder.addAll_atoms hb ps
    · nofun
  | @statement code ps hp =>
    refine ⟨atoms ps, .tag (sealed_blank _ '%') rfl hp, ?_⟩
    intro limit b b' hb
    rw [add, source, hp]
    · exact Builder.addAll_atoms hb ps
    · nofun

theorem exists_settles (h : ∀ p ∈ parts, p.IsComplete) :
    ∃ ps, StandsAlone (sources parts) ps ∧ ∀ {limit : Nat} {b b' : Builder}, b.Alike b' →
      Agree Builder.Alike (addAll limit b parts) (b'.addAll limit ps) := by
  induction parts with
  | nil => exact ⟨[], .nil, fun hb => .ok hb⟩
  | cons p parts ih =>
    rw [List.forall_mem_cons] at h
    obtain ⟨ps, hs, hp⟩ := h.1.settles
    obtain ⟨qs, ht, hparts⟩ := ih h.2
    refine ⟨ps ++ qs, hs.append ht, fun hb => ?_⟩
    rw [Builder.addAll_append]
    exact (hp hb).bind fun _ _ hb => hparts hb

theorem isRead_with : (Fragment.statement "with".toList [.word "with".toList]).IsRead :=
  .statement (by decide) (by decide) (Spells.name (by decide))

theorem isRead_endwith : (Fragment.statement "endwith".toList [.word "endwith".toList]).IsRead :=
  .statement (by decide) (by decide) (Spells.name (by decide))

theorem isComplete_of_isRead {code : Text} {ls : List Lexeme}
    (h : (Fragment.statement code ls).IsRead) : (statement code).IsComplete :=
  .statement (Fragment.readAll_source h)

theorem readAll_of_standsAlone {s : Text} {ps : List Piece} (h : StandsAlone s ps) (limit : Nat) :
    Agree Stmt.Same (Stmt.readAll limit true s)
      ((Builder.addAll limit {} ps).bind Builder.finish) := by
  obtain ⟨qs, hr, rfl⟩ := exists_of_map_eq_ok h.readAtoms_eq
  have hread : Stmt.readAll limit true s =
      (Builder.addAll limit {} qs).bind Builder.finish := by
    rw [Stmt.readAll, if_pos rfl, hr]
    rfl
  rw [hread]
  exact (Builder.addAll_atoms .refl_empty qs).bind fun _ _ hb => hb.finish

/-- Text is copied. Whatever complete parts stand around it, it is read as its own output, and what
the other parts are read as does not depend on it. -/
theorem readAll_parts (limit : Nat) (h : ∀ p ∈ parts, p.IsComplete) :
    Agree Stmt.Same (Stmt.readAll limit true (sources parts)) (readEach limit parts) := by
  obtain ⟨ps, hs, hadd⟩ := exists_settles h
  exact (readAll_of_standsAlone hs limit).same
    ((hadd .refl_empty).bind fun _ _ hb => hb.finish)

theorem readAll_parts_endraw :
    let parts : List Part := [.text ['{', '{'], .statement "with".toList,
      .text (['{', '%'] ++ "endraw%".toList ++ ['}']), .statement "endwith".toList, .text ['\n']]
    (∀ p ∈ parts, p.IsComplete) ∧
      Agree Stmt.Same (Stmt.readAll Stmt.maxDepth true (sources parts))
        (readEach Stmt.maxDepth parts) := by
  intro parts
  have h : ∀ p ∈ parts, p.IsComplete := by
    simp only [parts, List.mem_cons, List.not_mem_nil, or_false, forall_eq_or_imp, forall_eq]
    exact ⟨.text _, isComplete_of_isRead isRead_with, .text _,
      isComplete_of_isRead isRead_endwith, .text _⟩
  exact ⟨h, readAll_parts Stmt.maxDepth h⟩

def inBlocks (n : Nat) (s : Text) : List Part :=
  List.replicate n (.statement "with".toList) ++
    .text s :: List.replicate n (.statement "endwith".toList)

theorem isComplete_inBlocks (n : Nat) (s : Text) : ∀ p ∈ inBlocks n s, p.IsComplete := by
  intro p hp
  simp only [inBlocks, List.mem_append, List.mem_cons, List.mem_replicate] at hp
  obtain ⟨-, rfl⟩ | rfl | ⟨-, rfl⟩ := hp
  · exact isComplete_of_isRead isRead_with
  · exact .text s
  · exact isComplete_of_isRead isRead_endwith

theorem standsAlone_replicate {code : Text} {ls : List Lexeme}
    (h : (Fragment.statement code ls).IsRead) (n : Nat) :
    StandsAlone (sources (List.replicate n (statement code)))
      (List.replicate n (.statement ls)) := by
  induction n with
  | zero => exact .nil
  | succ n ih => exact (Fragment.standsAlone h).append ih

theorem exists_opened {n : Nat} (hn : n ≤ limit) :
    ∃ b, Builder.addAll limit {} (List.replicate n (.statement [.word "with".toList])) = .ok b ∧
      b.frames.length = n ∧ b.ClosesWith "endwith".toList := by
  induction n with
  | zero => exact ⟨{}, rfl, rfl, Builder.closesWith_empty _⟩
  | succ n ih =>
    obtain ⟨b, hb, hlen, hall⟩ := ih (by omega)
    have hadd : b.add limit (.statement [.word "with".toList]) =
        .ok (b.openBlock (.scope [])) := by
      have hc : Builder.isContinuation "with".toList = false := by decide
      rw [Builder.add, hc]
      simp only [Bool.false_eq_true, if_false]
      rw [if_neg (by omega)]
      rfl
    refine ⟨b.openBlock (.scope []), ?_, by simp [hlen], hall.openBlock rfl⟩
    rw [List.replicate_succ', Builder.addAll_append, hb]
    exact (Builder.addAll_singleton ..).trans hadd

theorem exists_closed {b : Builder} {n : Nat} (hn : b.frames.length = n)
    (hb : b.ClosesWith "endwith".toList) :
    ∃ ss, (b.addAll limit (List.replicate n (.statement [.word "endwith".toList]))).bind
      Builder.finish = .ok ss := by
  induction n generalizing b with
  | zero =>
    refine ⟨b.recent.reverse, ?_⟩
    change b.finish = _
    rw [Builder.finish, List.length_eq_zero_iff.mp hn]
    rfl
  | succ n ih =>
    obtain ⟨hzero, -⟩ | ⟨b', hclose, hb', hlen⟩ := hb.closeBlock
    · omega
    · rw [List.replicate_succ, Builder.addAll_cons,
        Builder.add_ending (by decide) (by decide) (by decide), hclose]
      exact ih (by omega) hb'

/-- Blocks take a level each, so that a text in them is refused if it takes more levels than they
leave. -/
theorem readAll_inBlocks {n : Nat} (hn : n ≤ limit) (s : Text) :
    (n + Fragment.textLevels s ≤ limit →
      ∃ ss, Stmt.readAll limit true (sources (inBlocks n s)) = .ok ss) ∧
    (limit < n + Fragment.textLevels s →
      Stmt.readAll limit true (sources (inBlocks n s)) = .error .tooDeep) := by
  have hs : sources (inBlocks n s) = sources (List.replicate n (statement "with".toList)) ++
      ((text s).source ++ sources (List.replicate n (statement "endwith".toList))) := by
    rw [inBlocks, sources, List.flatMap_append]
    rfl
  have halone := (standsAlone_replicate isRead_with n).append
    ((standsAlone_text s).append (standsAlone_replicate isRead_endwith n))
  have hagree := readAll_of_standsAlone halone limit
  -- Behind the opening statements as many blocks are open, all ended by the same word.
  obtain ⟨b, hb, hlen, hall⟩ := exists_opened hn
  obtain ⟨ss, -, htext⟩ := addAll_ofText limit b s
  rw [← hs, Builder.addAll_append, hb] at hagree
  change Agree _ _ (Except.bind (b.addAll limit _) _) at hagree
  rw [Builder.addAll_append, htext, hlen] at hagree
  constructor
  · intro hle
    rw [within, if_pos (by omega)] at hagree
    obtain ⟨ts, hclosed⟩ := @exists_closed limit (b.pushAll ss) n hlen hall
    change Agree _ _ ((Builder.addAll limit (b.pushAll ss) _).bind _) at hagree
    rw [hclosed] at hagree
    obtain ⟨us, hu, -⟩ := hagree.exists_ok
    exact ⟨us, hu⟩
  · intro hlt
    rw [within, if_neg (by omega)] at hagree
    exact hagree.eq_error

/-- In as many blocks as there are levels, text that looks like the end of a raw block is refused,
while empty text in the same blocks is not. -/
theorem readAll_inBlocks_endraw :
    (∀ p ∈ inBlocks 150 ('{' :: "endraw".toList), p.IsComplete) ∧
      (∃ ss, Stmt.readAll Stmt.maxDepth true (sources (inBlocks 150 [])) = .ok ss) ∧
      Stmt.readAll Stmt.maxDepth true (sources (inBlocks 150 ('{' :: "endraw".toList))) =
        .error .tooDeep := by
  have hn : 150 ≤ Stmt.maxDepth := by decide
  refine ⟨isComplete_inBlocks 150 _, ?_, ?_⟩
  · exact (readAll_inBlocks hn []).1 (by decide)
  · exact (readAll_inBlocks hn _).2 (by decide)

theorem exists_readAll_protectedText (hl : 2 ≤ limit) (s : Text) :
    ∃ ss, Stmt.readAll limit true (protectedText s) = .ok ss ∧ Stmt.Same ss [.text s] := by
  obtain ⟨ss, hs, hadd⟩ := addAll_ofText limit {} s
  have hlevels : Fragment.textLevels s ≤ limit - (Builder.frames {}).length := by
    refine Nat.le_trans ?_ hl
    unfold Fragment.textLevels
    split <;> decide
  have hfinish : (Builder.pushAll {} ss).finish = .ok ss := by
    simp [Builder.finish, Builder.pushAll]
  have hagree := readAll_of_standsAlone (standsAlone_text s) limit
  rw [hadd, within, if_pos hlevels, Except.bind, hfinish] at hagree
  obtain ⟨ss', hread, hsame⟩ := hagree.exists_ok
  exact ⟨ss', hread, hsame.trans hs.symm⟩

/-- Different texts are put out differently, and so they are protected differently. -/
theorem protectedText_injective {s t : Text} (h : protectedText s = protectedText t) : s = t := by
  obtain ⟨ss, hs, hsame⟩ := exists_readAll_protectedText (Nat.le_refl 2) s
  obtain ⟨ts, ht, htsame⟩ := exists_readAll_protectedText (Nat.le_refl 2) t
  rw [h, ht] at hs
  obtain rfl := Except.ok.inj hs
  have htext := (hsame.symm.trans htsame) ⟨.empty, fun _ _ => .ok .undefined, .none, []⟩ {}
  rw [Stmt.outputs_text s, Stmt.outputs_text t] at htext
  exact (Prod.mk.inj (Except.ok.inj htext)).1

end Part

end Source

namespace Draft

open Source Part

/-- What is written behind a draft is written part by part. -/
def Adds (d d' : Draft) (parts : List Part) : Prop := d'.source = d.source ++ sources parts

namespace Adds

variable {d d' d'' : Draft} {parts parts' : List Part}

theorem refl (d : Draft) : d.Adds d [] := (List.append_nil _).symm

theorem trans (h : d.Adds d' parts) (h' : d'.Adds d'' parts') : d.Adds d'' (parts ++ parts') := by
  rw [Adds, h', h, List.append_assoc, sources, sources, sources, List.flatMap_append]

theorem part {p : Part} (h : d'.source = d.source ++ p.source) : d.Adds d' [p] := by
  rwa [Adds, sources, List.flatMap_singleton]

end Adds

variable {table : RuleTable} {strict : Bool} {d d' : Draft}

theorem closeSection_adds {name : Text} {offset : Nat}
    (h : d.closeSection strict name offset = .ok d') :
    d.Adds d' [.statement "endif".toList] := by
  unfold closeSection at h
  split at h
  · cases h
  · cases h
    exact .part rfl

theorem exists_part_output (expr : Text) (unescaped : Bool) :
    ∃ p : Part, p.source = output expr unescaped := by
  unfold output
  split
  · exact ⟨.printed _, rfl⟩
  · exact ⟨.printed _, rfl⟩

theorem addMeaning_adds {m : Meaning} {unescaped : Bool} {offset : Nat}
    (h : d.addMeaning strict m unescaped offset = .ok d') : ∃ parts, d.Adds d' parts := by
  cases m with
  | opening name | inverted name =>
    cases h
    exact ⟨[.statement _], .part rfl⟩
  | closing name => exact ⟨_, closeSection_adds h⟩
  | output expr =>
    cases h
    obtain ⟨p, hp⟩ := exists_part_output expr unescaped
    exact ⟨[p], .part (hp ▸ rfl)⟩
  | current =>
    cases h
    obtain ⟨p, hp⟩ := exists_part_output (current d.sections) unescaped
    exact ⟨[p], .part (hp ▸ rfl)⟩
  | statement code =>
    cases h
    exact ⟨[.statement code], .part rfl⟩

theorem addContent_eq_ok {t : Tag Mark} (h : d.addContent table strict t = .ok d') :
    (t.opening = .commentOpen ∧ d' = d) ∨
      (t.opening = .runOpen ∧ d' =
        if Text.trim t.content = [] then d else d.write (statement (Text.trim t.content))) ∨
      t.interpolates = true ∧ ∃ unescaped, d.addMeaning strict
        (meaningOf table (Text.trim t.content)) unescaped t.position = .ok d' := by
  have hinterpolate {unescaped : Bool} (h : (if Text.trim t.content = [] then
      .error ⟨.emptyTag, t.position⟩
      else d.addMeaning strict (meaningOf table (Text.trim t.content)) unescaped t.position) =
        .ok d') : ∃ unescaped, d.addMeaning strict
          (meaningOf table (Text.trim t.content)) unescaped t.position = .ok d' := by
    split at h
    · cases h
    · exact ⟨unescaped, h⟩
  unfold addContent at h
  split at h
  · next ho => exact .inl ⟨ho, (Except.ok.inj h).symm⟩
  · next ho => exact .inr (.inl ⟨ho, (Except.ok.inj h).symm⟩)
  · next ho => exact .inr (.inr ⟨by simp [Tag.interpolates, ho], hinterpolate h⟩)
  · next ho => exact .inr (.inr ⟨by simp [Tag.interpolates, ho], hinterpolate h⟩)
  · cases h

theorem addContent_adds {t : Tag Mark} (h : d.addContent table strict t = .ok d') :
    ∃ parts, d.Adds d' parts := by
  obtain ⟨-, rfl⟩ | ⟨-, rfl⟩ | ⟨-, unescaped, h⟩ := addContent_eq_ok h
  · exact ⟨[], .refl _⟩
  · split
    · exact ⟨[], .refl _⟩
    · exact ⟨[.statement _], .part rfl⟩
  · exact addMeaning_adds h

theorem addTag_adds {t : Tag Mark} (h : d.addTag table strict t = .ok d') :
    ∃ parts, d.Adds d' parts := by
  obtain ⟨-, d₁, hc, rfl⟩ := addTag_eq_ok_iff.mp h
  obtain ⟨parts, hparts⟩ := addContent_adds hc
  have hbrace : (d₁.write (spareBrace t)).source =
      d₁.source ++ (Part.text (spareBrace t)).source := by
    rw [Part.source, protectedText_spareBrace]
    rfl
  exact ⟨_, hparts.trans (.part hbrace)⟩

theorem addSegments_adds {segs : List (Segment Mark)}
    (h : addSegments table strict d segs = .ok d') :
    ∃ parts, d.Adds d' parts ∧ ∀ s offset, .text s offset ∈ segs → .text s ∈ parts := by
  induction segs generalizing d with
  | nil =>
    cases h
    exact ⟨[], .refl _, nofun⟩
  | cons seg segs ih =>
    obtain ⟨d₁, hseg, h⟩ := exists_of_bind_eq_ok h
    obtain ⟨parts, hparts, hmem⟩ := ih h
    cases seg with
    | text s offset =>
      cases hseg
      refine ⟨_, Adds.trans (.part (p := .text s) rfl) hparts, fun s' offset' hm => ?_⟩
      obtain heq | hm := List.mem_cons.mp hm
      · cases heq
        exact List.mem_cons_self ..
      · exact List.mem_cons_of_mem _ (hmem s' offset' hm)
    | tag t =>
      obtain ⟨first, hfirst⟩ := addTag_adds hseg
      refine ⟨_, hfirst.trans hparts, fun s offset hm => ?_⟩
      obtain heq | hm := List.mem_cons.mp hm
      · cases heq
      · exact List.mem_append_right first (hmem s offset hm)

theorem source_of_finish {s : Text} (h : d.finish strict = .ok s) : s = d.source := by
  unfold finish at h
  split at h
  · split at h
    · cases h
    · cases h
      rfl
  · cases h
    rfl

end Draft

/-- The script of a template is written part by part, and every text of the template is a part. -/
theorem Source.exists_parts {table : RuleTable} {strict : Bool} {segs : List (Segment Mark)}
    {s : Text} (h : ofSegments table strict segs = .ok s) :
    ∃ parts, s = Part.sources parts ∧
      ∀ t offset, .text t offset ∈ segs → .text t ∈ parts := by
  obtain ⟨d, hd, h⟩ := exists_of_bind_eq_ok h
  obtain ⟨parts, hparts, hmem⟩ := Draft.addSegments_adds hd
  exact ⟨parts, (Draft.source_of_finish h).trans hparts, hmem⟩

end Curly

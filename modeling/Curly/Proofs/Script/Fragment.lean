import Curly.Proofs.Script.Spelling
import Curly.Source

namespace Curly

namespace Text

theorem isSome_cutAt?_iff {part s : Text} : (cutAt? part s).isSome ↔ part <:+: s := by
  induction s with
  | nil => by_cases h : part = [] <;> simp [cutAt?, h]
  | cons c s ih =>
    rw [List.infix_cons_iff, ← ih, cutAt?]
    cases h : after? part (c :: s) with
    | some rest =>
      rw [after?_eq_some_iff] at h
      simp [h]
    | none =>
      have hp : ¬ part <+: c :: s := by
        rintro ⟨rest, hr⟩
        rw [after?_eq_some_iff.mpr hr.symm] at h
        cases h
      simp [hp]

theorem includes_eq_false_iff {s part : Text} : includes s part = false ↔ ¬ part <:+: s := by
  rw [includes, ← isSome_cutAt?_iff, Bool.not_eq_true]

theorem after?_append_cons {word s rest : Text} {c : Char} (hc : c ∉ word)
    (h : ¬ word <:+: s) : after? word (s ++ c :: rest) = none := by
  cases ha : after? word (s ++ c :: rest) with
  | none => rfl
  | some r =>
    rw [after?_eq_some_iff, List.append_eq_append_iff] at ha
    obtain ⟨w, hw, hr⟩ | ⟨w, hw, -⟩ := ha
    · cases w with
      | nil =>
        rw [List.append_nil] at hw
        exact absurd (hw ▸ List.infix_refl s) h
      | cons d w =>
        obtain ⟨rfl, -⟩ := List.cons.inj hr
        exact absurd (hw ▸ List.mem_append_right s (List.mem_cons_self ..)) hc
    · exact absurd (hw ▸ (List.prefix_append word w).isInfix) h

end Text

namespace Source

theorem getLast?_printed (expr : Text) : (printed expr).getLast? = some '}' := by
  rw [printed, List.getLast?_append]
  rfl

theorem getLast?_statement (code : Text) : (statement code).getLast? = some '}' := by
  rw [statement, List.getLast?_append]
  rfl

end Source

namespace Script

namespace Piece

theorem cutMarker?_cons {c : Char} (hc : c ≠ '{') (s : Text) :
    cutMarker? (c :: s) = (cutMarker? s).map fun (before, m, rest) => (c :: before, m, rest) :=
  cutMarker?.eq_4 _ _ (by rintro _ rfl; exact absurd rfl hc) (by rintro _ rfl; exact absurd rfl hc)
    (by rintro _ rfl; exact absurd rfl hc)

theorem cutMarker?_eq_none {s : Text} (h : '{' ∉ s) : cutMarker? s = none := by
  induction s with
  | nil => rfl
  | cons c s ih =>
    rw [List.mem_cons, not_or] at h
    rw [cutMarker?_cons (Ne.symm h.1), ih h.2]
    rfl

theorem cutMarker?_behind {s : Text} (hs : cutMarker? s = none) (hl : s.getLast? ≠ some '{')
    (t : Text) :
    cutMarker? (s ++ t) = (cutMarker? t).map fun (before, m, rest) => (s ++ before, m, rest) := by
  induction s using cutMarker?.induct with
  | case1 | case2 | case3 => cases hs
  | case4 c s h₁ h₂ h₃ ih =>
    rw [cutMarker?.eq_4 _ _ h₁ h₂ h₃, Option.map_eq_none_iff] at hs
    have hcons : cutMarker? (c :: (s ++ t)) =
        (cutMarker? (s ++ t)).map fun (before, m, rest) => (c :: before, m, rest) := by
      cases s with
      | nil => exact cutMarker?_cons (by simpa using hl) t
      | cons d s =>
        refine cutMarker?.eq_4 _ _ ?_ ?_ ?_
        · rintro _ rfl ⟨⟩
          exact h₁ _ rfl rfl
        · rintro _ rfl ⟨⟩
          exact h₂ _ rfl rfl
        · rintro _ rfl ⟨⟩
          exact h₃ _ rfl rfl
    have hlast : s.getLast? ≠ some '{' := by
      cases s with
      | nil => simp
      | cons d s => simpa [List.getLast?_cons_cons] using hl
    rw [List.cons_append, hcons, ih hs hlast, Option.map_map]
    rfl
  | case5 => simp

theorem cutMarker?_append {s t rest : Text} {m : Marker} (h : '{' ∉ s)
    (ht : cutMarker? t = some ([], m, rest)) : cutMarker? (s ++ t) = some (s, m, rest) := by
  rw [cutMarker?_behind (cutMarker?_eq_none h) (fun hl => h (List.mem_of_getLast? hl)), ht]
  simp

theorem lexemes_tag {s : Text} {ls : List Lexeme} (h : Spells s ls) (m : Marker) (rest : Text) :
    lexemes m.closing 0 (' ' :: (s ++ (' ' :: (m.closing ++ rest)))) = .ok (ls, false, rest) := by
  rw [lexemes_blank, h m 0 _ (isBoundary_blank _), lexemes_blank, lexemes_closing]
  simp [behind, Except.map]

theorem oneWord?_eq_none {word s : Text} (rest : Text) (hb : '{' ∉ word) (h : ¬ word <:+: s) :
    oneWord? word (s ++ '{' :: rest) = none := by
  have hdrop (t : Text) : ∃ u, u <:+ t ∧
      (t ++ '{' :: rest).dropWhile Text.isAsciiBlank = u ++ '{' :: rest := by
    induction t with
    | nil => exact ⟨[], List.suffix_refl [], rfl⟩
    | cons c t ih =>
      by_cases hc : Text.isAsciiBlank c = true
      · obtain ⟨u, hu, he⟩ := ih
        refine ⟨u, hu.trans (List.suffix_cons c t), ?_⟩
        rw [List.cons_append, List.dropWhile_cons_of_pos hc, he]
      · exact ⟨c :: t, List.suffix_refl _, List.dropWhile_cons_of_neg hc⟩
  have hcontrol : ∃ t, t <:+ s ∧ (control (s ++ '{' :: rest)).2 = t ++ '{' :: rest := by
    cases s with
    | nil => exact ⟨[], List.suffix_refl [], rfl⟩
    | cons c s =>
      by_cases hm : c = '-' ∨ c = '+'
      · refine ⟨s, List.suffix_cons c s, ?_⟩
        obtain rfl | rfl := hm <;> rfl
      · refine ⟨c :: s, List.suffix_refl _, ?_⟩
        rw [not_or] at hm
        rw [List.cons_append, control.eq_3 _ (by rintro _ ⟨⟩; exact hm.1 rfl)
          (by rintro _ ⟨⟩; exact hm.2 rfl)]
  obtain ⟨t, ht, hc⟩ := hcontrol
  obtain ⟨u, hu, hd⟩ := hdrop t
  have hn : Text.after? word (u ++ '{' :: rest) = none :=
    Text.after?_append_cons hb fun hi => h (hi.trans (hu.trans ht).isInfix)
  simp only [oneWord?, hc, hd, hn, Option.bind_eq_bind, Option.bind_none]

theorem cutRaw?_endraw {body : Text} (h : ¬ "endraw".toList <:+: body) (rest : Text) :
    cutRaw? (body ++ (Source.statement "endraw".toList ++ rest)) =
      some (body, false, false, rest) := by
  induction body with
  | nil => rfl
  | cons c body ih =>
    have hbody : ¬ "endraw".toList <:+: body :=
      fun hi => h (hi.trans (List.suffix_cons c body).isInfix)
    have hn : (Text.after? ['{', '%']
        (c :: (body ++ (Source.statement "endraw".toList ++ rest)))).bind
          (oneWord? "endraw".toList) = none := by
      cases body with
      | nil => by_cases hc : '{' = c <;> simp [Text.after?, Source.statement, hc]
      | cons d body =>
        by_cases hcd : c = '{' ∧ d = '%'
        · obtain ⟨rfl, rfl⟩ := hcd
          refine oneWord?_eq_none (s := body) _ (by decide) fun hi => hbody ?_
          exact hi.trans (List.suffix_cons _ body).isInfix
        · have ha (s : Text) : Text.after? ['{', '%'] (c :: d :: s) = none := by
            by_cases hc : '{' = c
            · have hd : '%' ≠ d := fun hd => hcd ⟨hc.symm, hd.symm⟩
              simp [Text.after?, hd]
            · simp [Text.after?, hc]
          rw [List.cons_append, ha]
          rfl
    rw [List.cons_append, cutRaw?, hn, ih hbody]
    rfl

end Piece

/-- A part of a script as it is written; tags come with what they are read as. -/
inductive Fragment where
  | plain (s : Text)
  | raw (body : Text)
  | printed (s : Text) (ls : List Lexeme)
  | statement (s : Text) (ls : List Lexeme)
deriving DecidableEq, Repr

namespace Fragment

open Piece

def source : Fragment → Text
  | plain s => s
  | raw body => Source.statement "raw".toList ++ body ++ Source.statement "endraw".toList
  | printed s _ => Source.printed s
  | statement s _ => Source.statement s

def sources (fs : List Fragment) : Text := fs.flatMap source

/-- A fragment that is read for what it is. A statement must not start a raw block. -/
inductive IsRead : Fragment → Prop
  | plain {s : Text} : '{' ∉ s → IsRead (plain s)
  | raw {body : Text} : ¬ "endraw".toList <:+: body → IsRead (raw body)
  | printed {s : Text} {ls : List Lexeme} : Spells s ls → IsRead (printed s ls)
  | statement {c : Char} {s : Text} {ls : List Lexeme} :
      c ≠ 'r' → Text.isAsciiBlank c = false → Spells (c :: s) ls → IsRead (statement (c :: s) ls)

def pieces : Text → List Fragment → List Piece
  | before, [] => addText before []
  | before, plain s :: fs => pieces (before ++ s) fs
  | before, raw body :: fs => addText before (addText body (pieces [] fs))
  | before, printed _ ls :: fs => addText before (.printed ls :: pieces [] fs)
  | before, statement _ ls :: fs => addText before (.statement ls :: pieces [] fs)

end Fragment

namespace Piece

theorem cutTag?_printed {s : Text} {ls : List Lexeme} (h : Spells s ls) (rest : Text) :
    cutTag? .printed (' ' :: (s ++ (' ' :: '}' :: '}' :: rest))) =
      .ok ([.printed ls], false, rest) := by
  have hl := lexemes_tag h .printed rest
  simp only [Marker.closing, List.cons_append, List.nil_append] at hl
  simp [cutTag?, control, Marker.closing, hl, ofMarker]

theorem cutTag?_statement {c : Char} {s : Text} {ls : List Lexeme} (hc : c ≠ 'r')
    (hb : Text.isAsciiBlank c = false) (h : Spells (c :: s) ls) (rest : Text) :
    cutTag? .statement (' ' :: (c :: s ++ (' ' :: '%' :: '}' :: rest))) =
      .ok ([.statement ls], false, rest) := by
  have hl := lexemes_tag h .statement rest
  have hd (s : Text) : control (' ' :: s) = (false, ' ' :: s) := rfl
  have hdrop (s : Text) : (' ' :: c :: s).dropWhile Text.isAsciiBlank = c :: s := by
    have hblank : Text.isAsciiBlank ' ' = true := by decide
    rw [List.dropWhile_cons_of_pos hblank, List.dropWhile_cons_of_neg (by simp [hb])]
  have hafter (s : Text) : Text.after? "raw".toList (c :: s) = none := by
    change Text.after? ('r' :: _) (c :: s) = none
    rw [Text.after?, if_neg (Ne.symm hc)]
  have hw (s : Text) : oneWord? "raw".toList (' ' :: c :: s) = none := by
    simp only [oneWord?, hd, hdrop, hafter, Option.bind_eq_bind, Option.bind_none]
  simp only [Marker.closing, List.cons_append, List.nil_append] at hl
  simp only [cutTag?, if_true, List.cons_append, hw, hd, Marker.closing, hl]
  rfl

theorem cutTag?_raw {body : Text} (h : ¬ "endraw".toList <:+: body) (rest : Text) :
    cutTag? .statement
        (" raw %\x7d".toList ++ (body ++ (Source.statement "endraw".toList ++ rest))) =
      .ok (addText body [], false, rest) := by
  have hw : oneWord? "raw".toList (" raw %\x7d".toList ++
      (body ++ (Source.statement "endraw".toList ++ rest))) =
        some (false, false, body ++ (Source.statement "endraw".toList ++ rest)) := rfl
  have hr := cutRaw?_endraw h rest
  simp only [cutTag?, if_true, hw, hr, lead, trail, Bool.false_eq_true, if_false]

theorem readAll_plain {s : Text} (h : cutMarker? s = none) : readAll s = .ok (addText s []) := by
  rw [readAll]
  split
  · rfl
  · next hs =>
    rw [h] at hs
    cases hs

/-- A script with a tag: the text before it, its pieces, and the pieces of what follows it. -/
theorem readAll_marker {s before rest : Text} {m : Marker}
    (h : cutMarker? s = some (before, m, rest)) :
    readAll s = (cutTag? m rest).bind fun (ps, dash, rest') =>
      (readAll (trail dash rest')).map fun more =>
        addText (lead (control rest).1 before) (ps ++ more) := by
  rw [readAll]
  split
  · next hn =>
    rw [h] at hn
    cases hn
  · next hs =>
    rw [h] at hs
    cases hs
    split
    · next he =>
      rw [he]
      rfl
    · next ps dash rest' he =>
      refine Eq.trans ?_ (congrArg (Except.bind · _) he.symm)
      change _ = Except.map _ (readAll (trail dash rest'))
      cases readAll (trail dash rest') <;> rfl

theorem readAll_tag {before rest more : Text} {m : Marker} {ps qs : List Piece} (tag : Text)
    (ht : '{' ∉ before) (hm : cutMarker? tag = some ([], m, rest)) (hd : (control rest).1 = false)
    (hc : cutTag? m rest = .ok (ps, false, more)) (hr : readAll more = .ok qs) :
    readAll (before ++ tag) = .ok (addText before (ps ++ qs)) := by
  rw [readAll_marker (cutMarker?_append ht hm), hc]
  change Except.map _ (readAll more) = _
  rw [hr, hd]
  rfl

theorem readAll_printed (s : Text) :
    (∃ r, readAll (Source.printed s) = .error r) ∨
      ∃ ls more ps, lexemes Marker.printed.closing 0 (s ++ [' ', '}', '}']) = .ok (ls, more) ∧
        readAll (Source.printed s) = .ok (.printed ls :: ps) := by
  have hmarker : cutMarker? (Source.printed s) =
      some ([], .printed, ' ' :: (s ++ [' ', '}', '}'])) := rfl
  have hblank := lexemes_blank .printed 0 (s ++ [' ', '}', '}'])
  have hcontrol : (control (' ' :: (s ++ [' ', '}', '}']))).2 = ' ' :: (s ++ [' ', '}', '}']) := rfl
  rw [readAll_marker hmarker]
  cases hl : lexemes Marker.printed.closing 0 (s ++ [' ', '}', '}']) with
  | error e =>
    have htag : cutTag? .printed (' ' :: (s ++ [' ', '}', '}'])) = .error e := by
      rw [cutTag?, if_neg (by decide), hcontrol, hblank, hl]
      nofun
    rw [htag]
    exact .inl ⟨e, rfl⟩
  | ok result =>
    obtain ⟨ls, dash, rest⟩ := result
    have htag : cutTag? .printed (' ' :: (s ++ [' ', '}', '}'])) =
        .ok ([.printed ls], dash, rest) := by
      rw [cutTag?, if_neg (by decide), hcontrol, hblank, hl]
      · rfl
      · nofun
    rw [htag]
    change (∃ r, Except.map _ (readAll (trail dash rest)) = _) ∨
      ∃ _ _ _, _ ∧ Except.map _ (readAll (trail dash rest)) = _
    cases readAll (trail dash rest) with
    | error e => exact .inl ⟨e, rfl⟩
    | ok ps => exact .inr ⟨ls, (dash, rest), ps, rfl, rfl⟩

end Piece

namespace Fragment

open Piece

/-- Every fragment is read for what it is, whatever stands around it. -/
theorem readAll_sources_behind {fs : List Fragment} (hf : ∀ f ∈ fs, f.IsRead) {before : Text}
    (ht : '{' ∉ before) : readAll (before ++ sources fs) = .ok (pieces before fs) := by
  induction fs generalizing before with
  | nil =>
    rw [sources, List.flatMap_nil, List.append_nil, pieces]
    exact readAll_plain (cutMarker?_eq_none ht)
  | cons f fs ih =>
    have ih := @ih fun g hg => hf g (List.mem_cons_of_mem _ hg)
    have hnil := @ih [] (by simp)
    have hsources : sources (f :: fs) = f.source ++ sources fs := List.flatMap_cons
    rw [List.nil_append] at hnil
    rw [hsources]
    cases hf f (List.mem_cons_self ..) with
    | plain hs =>
      rw [source, ← List.append_assoc, ih (by simp [ht, hs])]
      rfl
    | @raw body hb =>
      have h := readAll_tag ('{' :: '%' :: (" raw %\x7d".toList ++
        (body ++ (Source.statement "endraw".toList ++ sources fs)))) ht rfl rfl
        (cutTag?_raw hb (sources fs)) hnil
      have hadd : addText body [] ++ pieces [] fs = addText body (pieces [] fs) := by
        by_cases he : body = [] <;> simp [addText, he]
      rw [hadd] at h
      simpa [source, Source.statement, pieces] using h
    | @printed s ls hs =>
      have h := readAll_tag ('{' :: '{' :: ' ' :: (s ++ (' ' :: '}' :: '}' :: sources fs)))
        ht rfl rfl (cutTag?_printed hs (sources fs)) hnil
      simpa [source, Source.printed, pieces] using h
    | @statement c s ls hc hb hs =>
      have h := readAll_tag
        ('{' :: '%' :: ' ' :: (c :: s ++ (' ' :: '%' :: '}' :: sources fs)))
        ht rfl rfl (cutTag?_statement hc hb hs (sources fs)) hnil
      simpa [source, Source.statement, pieces] using h

theorem readAll_sources {fs : List Fragment} (hf : ∀ f ∈ fs, f.IsRead) :
    readAll (sources fs) = .ok (pieces [] fs) := @readAll_sources_behind fs hf [] (by simp)

theorem readAll_source {f : Fragment} (hf : f.IsRead) :
    readAll f.source = .ok (pieces [] [f]) := by
  have h := @readAll_sources [f] (by simpa using hf)
  rwa [sources, List.flatMap_singleton] at h

theorem sources_append (fs gs : List Fragment) : sources (fs ++ gs) = sources fs ++ sources gs :=
  List.flatMap_append

def shielded (s : Text) : Text := (s.reverse.dropWhile (· = '\n')).reverse

def ofBody (body : Text) : Fragment :=
  if Text.includes body "endraw".toList then
    printed (body.jsonString ++ "|safe".toList) [.text body, .sign .pipe, .word "safe".toList]
  else raw body

def ofText (s : Text) : List Fragment :=
  if '{' ∈ s then [ofBody (shielded s), plain (s.drop (shielded s).length)] else [plain s]

theorem sources_ofText (s : Text) : sources (ofText s) = Source.protectedText s := by
  have hs : Source.protectedText s =
      if '{' ∈ s then
        if Text.includes (shielded s) "endraw".toList then
          Source.printed ((shielded s).jsonString ++ "|safe".toList) ++
            s.drop (shielded s).length
        else
          Source.statement "raw".toList ++ shielded s ++ Source.statement "endraw".toList ++
            s.drop (shielded s).length
      else s := rfl
  rw [hs, ofText]
  by_cases hb : '{' ∈ s
  · by_cases hi : Text.includes (shielded s) "endraw".toList = true
    · simp only [if_pos hb, if_pos hi, ofBody, sources, List.flatMap_cons, List.flatMap_nil,
        List.append_nil, source]
    · simp only [if_pos hb, if_neg hi, ofBody, sources, List.flatMap_cons, List.flatMap_nil,
        List.append_nil, source]
  · simp only [if_neg hb, sources, List.flatMap_cons, List.flatMap_nil, List.append_nil, source]

theorem shielded_append (s : Text) :
    shielded s ++ s.drop (shielded s).length = s ∧ '{' ∉ s.drop (shielded s).length := by
  have hs : s = shielded s ++ (s.reverse.takeWhile (· = '\n')).reverse := by
    rw [shielded, ← List.reverse_append, List.takeWhile_append_dropWhile, List.reverse_reverse]
  have hd : s.drop (shielded s).length = (s.reverse.takeWhile (· = '\n')).reverse := by
    have h := congrArg (List.drop (shielded s).length) hs
    rwa [List.drop_left] at h
  refine ⟨?_, fun hm => ?_⟩
  · rw [hd, ← hs]
  · rw [hd, List.mem_reverse] at hm
    have h := List.all_eq_true.mp (List.all_takeWhile (p := (· = '\n')) (l := s.reverse)) _ hm
    simp at h

theorem isRead_ofBody (body : Text) : (ofBody body).IsRead := by
  rw [ofBody]
  by_cases hi : Text.includes body "endraw".toList = true
  · rw [if_pos hi]
    exact .printed ((Spells.literal body).piped (Spells.name (by decide)))
  · rw [if_neg hi]
    exact .raw (Text.includes_eq_false_iff.mp (by simpa using hi))

theorem isRead_ofText (s : Text) : ∀ f ∈ ofText s, f.IsRead := by
  rw [ofText]
  by_cases hb : '{' ∈ s
  · simp only [if_pos hb, List.mem_cons, List.not_mem_nil, or_false, forall_eq_or_imp, forall_eq]
    exact ⟨isRead_ofBody _, .plain (shielded_append s).2⟩
  · simp only [if_neg hb, List.mem_singleton, forall_eq]
    exact .plain hb

end Fragment

end Script

end Curly

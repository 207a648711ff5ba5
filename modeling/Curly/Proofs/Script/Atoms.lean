import Curly.Proofs.Outcome
import Curly.Proofs.Script.Extension
import Curly.Proofs.Script.Fragment

namespace Curly.Script

open Text

namespace Piece

/-- A text piece for each character. -/
def letters (s : Text) : List Piece := s.map fun c => .text [c]

def atomsOf : Piece → List Piece
  | text s => letters s
  | p => [p]

def atoms (ps : List Piece) : List Piece := ps.flatMap atomsOf

variable {m : Marker} {s t rest before : Text} {ps qs : List Piece} {dash : Bool}

theorem letters_append (s t : Text) : letters (s ++ t) = letters s ++ letters t := List.map_append

theorem atoms_append (ps qs : List Piece) : atoms (ps ++ qs) = atoms ps ++ atoms qs :=
  List.flatMap_append

theorem atoms_addText (s : Text) (ps : List Piece) :
    atoms (addText s ps) = letters s ++ atoms ps := by
  unfold addText
  split
  · next hs =>
    subst hs
    rfl
  · exact List.flatMap_cons

def readAtoms (s : Text) : Except Refusal (List Piece) := (readAll s).map atoms

/-- Behind its first tag, a text is read on its own. -/
theorem readAtoms_marker (hm : cutMarker? s = some (before, m, rest)) :
    readAtoms s = (cutTag? m rest).bind fun (ps, dash, rest') =>
      (readAtoms (trail dash rest')).map
        (letters (lead (control rest).1 before) ++ atoms ps ++ ·) := by
  rw [readAtoms, readAll_marker hm]
  match cutTag? m rest with
  | .error r => rfl
  | .ok (ps, dash, rest') =>
    change Except.map atoms (Except.map _ (readAll (trail dash rest'))) =
      Except.map _ (Except.map atoms (readAll (trail dash rest')))
    cases readAll (trail dash rest') with
    | error r => rfl
    | ok qs =>
      change Except.ok (atoms (addText _ (ps ++ qs))) = Except.ok _
      simp only [atoms_addText, atoms_append, List.append_assoc]

theorem readAtoms_quiet (hs : cutMarker? s = none) (hlast : s.getLast? ≠ some '{')
    (hlead : ∀ before m rest, cutMarker? t = some (before, m, rest) →
      lead (control rest).1 (s ++ before) = s ++ lead (control rest).1 before) :
    readAtoms (s ++ t) = (readAtoms t).map (letters s ++ ·) := by
  have hbehind := cutMarker?_behind hs hlast t
  cases hm : cutMarker? t with
  | none =>
    rw [hm] at hbehind
    rw [readAtoms, readAtoms, readAll_plain hm, readAll_plain hbehind]
    change Except.ok (atoms _) = Except.ok (_ ++ atoms _)
    rw [atoms_addText, atoms_addText, letters_append, List.append_assoc]
  | some found =>
    obtain ⟨before, m, rest⟩ := found
    rw [hm] at hbehind
    rw [readAtoms_marker hm, readAtoms_marker hbehind, hlead before m rest hm]
    match cutTag? m rest with
    | .error r => rfl
    | .ok (ps, dash, rest') =>
      change Except.map _ (readAtoms (trail dash rest')) =
        Except.map _ (Except.map _ (readAtoms (trail dash rest')))
      cases readAtoms (trail dash rest') with
      | error r => rfl
      | ok qs =>
        change Except.ok _ = Except.ok _
        rw [letters_append]
        simp only [List.append_assoc]

/-- Ends with a brace that closes no tag behind a dash. -/
structure Sealed (s : Text) : Prop where
  last : s.getLast? = some '}'
  dashless : ∀ m : Marker, ¬ ['-'] ++ m.closing <:+ s

namespace Sealed

theorem ne_nil (h : Sealed s) : s ≠ [] := by
  rintro rfl
  exact absurd h.last (by simp)

theorem of_suffix (h : Sealed s) (ht : t <:+ s) (hne : t ≠ []) : Sealed t where
  last := by
    obtain ⟨u, rfl⟩ := ht
    rw [← h.last, List.getLast?_append, List.getLast?_eq_some_getLast hne, Option.some_or]
  dashless m hd := h.dashless m (hd.trans ht)

theorem lead_append (h : Sealed s) (dash : Bool) (t : Text) :
    lead dash (s ++ t) = s ++ lead dash t := by
  cases dash with
  | false => rfl
  | true =>
    have hs : s.reverse.dropWhile isBlank = s.reverse := by
      obtain ⟨u, rfl⟩ := List.getLast?_eq_some_iff.mp h.last
      rw [List.reverse_append]
      exact List.dropWhile_cons_of_neg (by decide)
    simp only [lead, if_true, trimEnd, List.reverse_append, List.dropWhile_append, hs]
    split
    · next ht => simp [List.isEmpty_iff.mp ht]
    · simp

theorem trail_append (h : Sealed s) (dash : Bool) (t : Text) :
    trail dash (s ++ t) = trail dash s ++ t ∧ Sealed (trail dash s) := by
  cases dash with
  | false => exact ⟨rfl, h⟩
  | true =>
    have hne : s.dropWhile isBlank ≠ [] := by
      obtain ⟨u, rfl⟩ := List.getLast?_eq_some_iff.mp h.last
      intro hn
      have hbrace := infix_dropWhile (q := isBlank) (by decide) (List.suffix_append u ['}']).isInfix
      rw [hn] at hbrace
      exact absurd hbrace.length_le (by simp)
    exact ⟨dropWhile_extend hne t, h.of_suffix (List.dropWhile_suffix _) hne⟩

end Sealed

theorem cutMarker?_suffix (h : cutMarker? s = some (before, m, rest)) : rest <:+ s := by
  induction s using cutMarker?.induct generalizing before with
  | case1 | case2 | case3 =>
    cases h
    exact (List.suffix_cons ..).trans (List.suffix_cons ..)
  | case4 c s h₁ h₂ h₃ ih =>
    rw [cutMarker?.eq_4 _ _ h₁ h₂ h₃] at h
    simp only [Option.map_eq_some_iff, Prod.mk.injEq, Prod.exists] at h
    obtain ⟨b, m, r, h, rfl, rfl, rfl⟩ := h
    exact (ih h).trans (List.suffix_cons c s)
  | case5 => cases h

/-- What is sealed is read in the same way whatever follows. -/
theorem readAtoms_extend (hs : s = [] ∨ Sealed s) (h : readAll s = .ok ps) (t : Text) :
    readAtoms (s ++ t) = (readAtoms t).map (atoms ps ++ ·) := by
  induction hn : s.length using Nat.strongRecOn generalizing s ps with
  | ind n ih =>
    cases hm : cutMarker? s with
    | none =>
      rw [readAll_plain hm] at h
      cases h
      have hatoms : atoms (addText s []) = letters s := by
        rw [atoms_addText]
        exact List.append_nil _
      rw [hatoms]
      obtain rfl | hs := hs
      · exact readAtoms_quiet hm (by simp) fun _ _ _ _ => rfl
      · exact readAtoms_quiet hm (by rw [hs.last]; decide) fun before _ rest _ =>
          hs.lead_append (control rest).1 before
    | some found =>
      obtain ⟨before, m, rest⟩ := found
      have hsealed : Sealed s := hs.resolve_left (by rintro rfl; cases hm)
      rw [readAll_marker hm] at h
      obtain ⟨⟨qs, dash, rest'⟩, hc, h⟩ := exists_of_bind_eq_ok h
      obtain ⟨more, hr, rfl⟩ := exists_of_map_eq_ok h
      have hends := ends_of_cutTag? hc
      have htrail : trail dash (rest' ++ t) = trail dash rest' ++ t ∧
          (trail dash rest' = [] ∨ Sealed (trail dash rest')) := by
        -- No dash ends a tag at the end of a sealed text, where it would take blanks of what follows.
        by_cases he : rest' = []
        · subst he
          cases dash with
          | false => exact ⟨rfl, .inl rfl⟩
          | true =>
            refine absurd (hends.trans (cutMarker?_suffix hm)) ?_
            rw [List.append_nil]
            exact hsealed.dashless m
        · have hrest := hsealed.of_suffix (hends.rest_suffix.trans (cutMarker?_suffix hm)) he
          exact (hrest.trail_append dash t).imp_right .inr
      have hlt : (trail dash rest').length < n := by
        have := length_cutMarker? hm
        have := length_cutTag? hc
        have := length_trail dash rest'
        omega
      rw [readAtoms_marker (cutMarker?_extend hm t), cutTag?_extend hc,
        control_extend hends.closes.ne_nil]
      change Except.map _ (readAtoms (trail dash (rest' ++ t))) = _
      rw [htrail.1, ih _ hlt htrail.2 hr rfl, atoms_addText, atoms_append]
      cases readAtoms t <;> simp [Except.map]

def Undashed (s : Text) : Prop :=
  ∀ before m rest, cutMarker? s = some (before, m, rest) → (control rest).1 = false

theorem undashed_nil : Undashed [] := nofun

/-- A text that is read as those atoms, before whatever undashed text follows. -/
structure StandsAlone (s : Text) (ps : List Piece) : Prop where
  reads : ∀ {t : Text}, Undashed t → readAtoms (s ++ t) = (readAtoms t).map (ps ++ ·)
  undashed : ∀ {t : Text}, Undashed t → Undashed (s ++ t)

namespace StandsAlone

theorem nil : StandsAlone [] [] where
  reads {t} _ := by
    rw [List.nil_append]
    cases readAtoms t <;> rfl
  undashed ht := ht

theorem append (hs : StandsAlone s ps) (ht : StandsAlone t qs) :
    StandsAlone (s ++ t) (ps ++ qs) where
  reads {u} hu := by
    rw [List.append_assoc, hs.reads (ht.undashed hu), ht.reads hu]
    cases readAtoms u <;> simp [Except.map]
  undashed hu := by
    rw [List.append_assoc]
    exact hs.undashed (ht.undashed hu)

theorem readAtoms_eq (h : StandsAlone s ps) : readAtoms s = .ok ps := by
  have hnil : readAtoms [] = .ok [] := by
    rw [readAtoms, readAll_plain rfl]
    rfl
  have hs := h.reads undashed_nil
  rw [List.append_nil, hnil] at hs
  rw [hs]
  exact congrArg Except.ok (List.append_nil ps)

theorem plain (h : '{' ∉ s) : StandsAlone s (letters s) where
  reads ht := readAtoms_quiet (cutMarker?_eq_none h) (fun hl => h (List.mem_of_getLast? hl))
    fun _ _ _ hm => by
      rw [ht _ _ _ hm]
      rfl
  undashed {t} ht before m rest hm := by
    rw [cutMarker?_behind (cutMarker?_eq_none h) (fun hl => h (List.mem_of_getLast? hl))] at hm
    obtain ⟨⟨b, m', r⟩, hr, he⟩ := Option.map_eq_some_iff.mp hm
    cases he
    exact ht _ _ _ hr

theorem tag (hs : Sealed s) (hm : cutMarker? s = some ([], m, ' ' :: rest))
    (hr : readAll s = .ok ps) : StandsAlone s (atoms ps) where
  reads {t} _ := readAtoms_extend (.inr hs) hr t
  undashed {t} _ before m' rest' hm' := by
    rw [cutMarker?_extend hm t] at hm'
    cases hm'
    rfl

end StandsAlone

theorem sealed_blank (s : Text) (c : Char) : Sealed (s ++ [' ', c, '}']) where
  last := by simp
  dashless m hd := by
    have hs := List.suffix_append s [' ', c, '}']
    have hlen : (['-'] ++ m.closing).length = [' ', c, '}'].length := by
      rw [Marker.closing_eq]
      rfl
    have he := (List.suffix_of_suffix_length_le hd hs (Nat.le_of_eq hlen)).eq_of_length hlen
    cases (List.cons.inj he).1

end Piece

namespace Fragment

open Piece

def atoms (f : Fragment) : List Piece := Piece.atoms (pieces [] [f])

theorem atoms_plain (s : Text) : (plain s).atoms = letters s := by
  rw [atoms, pieces, pieces, atoms_addText]
  exact List.append_nil _

theorem atoms_raw (body : Text) : (raw body).atoms = letters body := by
  rw [atoms, pieces, pieces, atoms_addText, atoms_addText]
  exact List.append_nil _

theorem atoms_printed (s : Text) (ls : List Lexeme) : (printed s ls).atoms = [.printed ls] := rfl

theorem standsAlone {f : Fragment} (hf : f.IsRead) : StandsAlone f.source f.atoms := by
  have hread := readAll_source hf
  cases hf with
  | @plain s hs =>
    rw [atoms_plain]
    exact .plain hs
  | @raw body hb =>
    have hs := sealed_blank
      (Source.statement "raw".toList ++ body ++ (['{', '%', ' '] ++ "endraw".toList)) '%'
    rw [List.append_assoc _ _ [' ', '%', '}']] at hs
    exact .tag hs rfl hread
  | @printed s ls hs => exact .tag (sealed_blank _ '}') rfl hread
  | @statement c s ls hc hb hs => exact .tag (sealed_blank _ '%') rfl hread

theorem standsAlone_sources {fs : List Fragment} (hf : ∀ f ∈ fs, f.IsRead) :
    StandsAlone (sources fs) (fs.flatMap atoms) := by
  induction fs with
  | nil => exact .nil
  | cons f fs ih =>
    rw [List.forall_mem_cons] at hf
    exact (standsAlone hf.1).append (ih hf.2)

end Fragment

end Curly.Script

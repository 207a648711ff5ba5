import Curly.Data.Reader

namespace Curly

namespace Data

def HasDistinctNames : Data → Prop
  | object fields => (fields.map (·.1)).Nodup
  | _ => True

theorem hasDistinctNames_of_sorted {fields : List (Text × Data)}
    (h : fields.Pairwise fun d e => d.1 < e.1) : (object fields).HasDistinctNames := by
  rw [HasDistinctNames, List.nodup_iff_pairwise_ne, List.pairwise_map]
  refine h.imp fun {d e} hlt he => ?_
  rw [he] at hlt
  exact List.lt_irrefl _ hlt

theorem pairwise_foldlM_insertByName {entries : List (Data × Data)}
    {fields fields' : List (Text × Data)}
    (h : entries.foldlM (fun fields (key, d) => do
      some (insertByName (← key.fieldName?) d fields)) fields = some fields')
    (hs : fields.Pairwise fun d e => d.1 < e.1) : fields'.Pairwise fun d e => d.1 < e.1 := by
  induction entries generalizing fields with
  | nil =>
    cases h
    exact hs
  | cons entry entries ih =>
    rw [List.foldlM_cons] at h
    obtain ⟨fields'', hstep, h⟩ := Option.bind_eq_some_iff.mp h
    obtain ⟨name, -, hstep⟩ := Option.bind_eq_some_iff.mp hstep
    cases hstep
    exact ih h (pairwise_insertByName name entry.2 hs)

theorem hasDistinctNames_ofEntries? {entries : List (Data × Data)} {d : Data}
    (h : ofEntries? entries = some d) : d.HasDistinctNames := by
  obtain ⟨fields, hfields, hd⟩ := Option.bind_eq_some_iff.mp h
  cases hd
  exact hasDistinctNames_of_sorted (pairwise_foldlM_insertByName hfields .nil)

theorem pairwise_readFields? {fuel : Nat} {s rest : Text} {fields fields' : List (Text × Data)}
    (h : readFields? fuel s fields = some (fields', rest))
    (hs : fields.Pairwise fun d e => d.1 < e.1) : fields'.Pairwise fun d e => d.1 < e.1 := by
  induction fuel generalizing s fields with
  | zero => cases h
  | succ fuel ih =>
    rw [readFields?] at h
    split at h
    · obtain ⟨⟨name, s⟩, -, h⟩ := Option.bind_eq_some_iff.mp h
      simp only at h
      split at h
      · obtain ⟨⟨d, s⟩, -, h⟩ := Option.bind_eq_some_iff.mp h
        have hinsert := pairwise_insertByName name d hs
        simp only at h
        split at h
        · exact ih h hinsert
        · cases h
          exact hinsert
        · cases h
      · cases h
    · cases h

theorem hasDistinctNames_readNumber? {s rest : Text} {d : Data}
    (h : readNumber? s = some (d, rest)) : d.HasDistinctNames := by
  cases d with
  | object fields =>
    simp only [readNumber?, ofNumber, Option.bind_eq_bind] at h
    repeat' split at h
    all_goals simp only [reduceCtorEq, Option.bind_eq_some_iff] at h
    all_goals
      obtain ⟨⟨e, s'⟩, -, h⟩ := h
      repeat' split at h
    all_goals simp at h
  | _ => trivial

theorem hasDistinctNames_readValue? {fuel : Nat} {s rest : Text} {d : Data}
    (h : readValue? fuel s = some (d, rest)) : d.HasDistinctNames := by
  cases fuel with
  | zero => cases h
  | succ fuel =>
    rw [readValue?] at h
    split at h
    · obtain ⟨r, -, hr⟩ := Option.map_eq_some_iff.mp h
      cases hr
      trivial
    · split at h
      · cases h
        trivial
      · obtain ⟨r, -, hr⟩ := Option.map_eq_some_iff.mp h
        cases hr
        trivial
    · split at h
      · cases h
        exact hasDistinctNames_of_sorted .nil
      · obtain ⟨⟨fields, rest'⟩, hf, hr⟩ := Option.map_eq_some_iff.mp h
        cases hr
        exact hasDistinctNames_of_sorted (pairwise_readFields? hf .nil)
    · cases h
      trivial
    · cases h
      trivial
    · cases h
      trivial
    · exact hasDistinctNames_readNumber? h

theorem hasDistinctNames_read? {s : Text} {d : Data} (h : read? s = some d) :
    d.HasDistinctNames := by
  rw [read?] at h
  split at h
  · next hr =>
    split at h
    · cases h
      exact hasDistinctNames_readValue? hr
    · cases h
  · cases h

end Data

end Curly

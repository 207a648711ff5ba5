import Curly.Proofs.Path.Rendering

namespace Curly

open Script

/-- What the name of a key stands for, whose field is `d`. -/
def Data.keyed? (fields : List (Text × Data)) (key : Text) (d : Data) : Option Data :=
  match Path.isQuoted key, fields.lookup Path.data with
  | true, some whole => whole.get? key
  | _, _ => some d

namespace Path

variable {fields : List (Text × Data)} {key : Text} {d : Data}

theorem root?_key (hk : fields.lookup key = some d) :
    (Data.object fields).root? key = Data.keyed? fields key d := by
  unfold Data.root? Data.keyed? Data.whole
  cases Path.isQuoted key with
  | true =>
    cases h : fields.lookup Path.data with
    | none => simpa [Data.get?, h] using hk
    | some whole => simp [Data.get?, h]
  | false =>
    by_cases hp : key = Path.data
    · subst hp
      simp [Data.get?, hk]
    · simp [Data.get?, hk, hp]

/-- A script finds the keys of its data, no matter which helpers there are. -/
theorem finds_key (hd : (Data.object fields).HasDistinctNames) (hk : fields.lookup key = some d)
    (hs : BoundHelpers) (call : Text → List Value → Except EvalError Value) (escape : Escaping) :
    Finds ⟨Context.ofData (.object fields) hs, call, escape, []⟩ {} (.object fields) key := by
  have hget : (Context.ofData (.object fields) hs).get? key = some (.ofData d) := by
    rw [Context.ofData, Context.get?_addFields hd, hk]
    rfl
  have hfound : (if key = data then some (Data.object fields).whole
      else (Data.object fields).get? key) = some d := by
    by_cases hp : key = data
    · rw [if_pos hp, Data.whole, ← hp, Data.get?, hk]
      rfl
    · rw [if_neg hp]
      exact hk
  rw [Finds, lookup_start, hget, hfound]
  rfl

end Path

namespace Mark

def branches (name yes no : Text) : Text :=
  braced '#' name ++ (yes ++ (braced '/' name ++ (braced '^' name ++ (no ++ braced '/' name))))

theorem segments_branches {name yes no : Text} (hn : ∀ c ∈ name, IsQuiet c) (hy : yes ≠ [])
    (hyq : ∀ c ∈ yes, IsQuiet c) (hno : no ≠ []) (hnoq : ∀ c ∈ no, IsQuiet c) :
    ∃ o₁ o₂ o₃ o₄ o₅ o₆, table.segments (branches name yes no) =
      .ok [.tag (bracedTag '#' name o₁), .text yes o₂, .tag (bracedTag '/' name o₃),
        .tag (bracedTag '^' name o₄), .text no o₅, .tag (bracedTag '/' name o₆)] := by
  have hquiet {c : Char} (hc : IsQuiet c) : ∀ d ∈ c :: name, IsQuiet d := by
    simpa using ⟨hc, hn⟩
  have hhead {w : Text} (hw : w ≠ []) (hq : ∀ c ∈ w, IsQuiet c) (s : Text) :
      (w ++ s).head? ≠ some '}' := by
    obtain ⟨c, w, rfl⟩ := List.exists_cons_of_ne_nil hw
    rintro ⟨⟩
    exact hq '}' (List.mem_cons_self ..) (by decide)
  have hadd {w : Text} (hw : w ≠ []) (offset : Nat) (t : Tag Mark) (done : List (Segment Mark)) :
      Segment.addText w offset (.tag t :: done) = .text w offset :: .tag t :: done := if_neg hw
  have hbrace (c : Char) (s : Text) : (braced c name ++ s).head? ≠ some '}' := by
    simp [braced, literal]
  rw [DelimiterTable.segments, DelimiterTable.tokens, branches,
    pairFrom_braced _ _ _ _ (by decide) (hquiet (by decide)) (hhead hy hyq _),
    pairFrom_quiet _ _ _ _ hy hyq (by decide),
    pairFrom_braced _ _ _ _ (by decide) (hquiet (by decide)) (hbrace _ _),
    pairFrom_braced _ _ _ _ (by decide) (hquiet (by decide)) (hhead hno hnoq _),
    ← List.append_nil (braced '/' name), pairFrom_quiet _ _ _ _ hno hnoq (by decide),
    pairFrom_braced _ _ _ _ (by decide) (hquiet (by decide)) (by simp),
    DelimiterTable.tokensFrom, if_pos rfl]
  rw [hadd hy, hadd hno]
  exact ⟨_, _, _, _, _, _, rfl⟩

end Mark

namespace Outline

open Stmt Curly.Path

variable {fields : List (Text × Data)} {key yes no : Text} {d : Data} {env : Env} {s : Scope}
  {data : Data}

def ofKey (key : Text) : Outline := .lookup key [] true (.text [] .done)

def ofBranches (key yes no : Text) : Outline :=
  .block key false (.text [] (.text yes .done))
    (.text [] (.block key true (.text [] (.text no .done)) (.text [] .done)))

theorem outputs_ofKey (hn : Finds env s data key) (hd : Finds env s data Path.data) :
    Outputs env s (ofKey key).program (Data.shown env.escape true (data.root? key)) :=
  outputs_lookup hn hd [] true

theorem program_ofBranches (hne : key ≠ []) (hy : yes ≠ []) (hyb : '{' ∉ yes) (hno : no ≠ [])
    (hnob : '{' ∉ no) :
    (ofBranches key yes no).program =
      [.cond (Fragment.guardExpr key false) [.text yes] [],
        .cond (Fragment.guardExpr key true) [.text no] []] := by
  simp [ofBranches, program, statements, textStatements, Stmt.ofText, Action.guardName, hne, hy,
    hyb, hno, hnob]

theorem outputs_ofBranches (hn : Finds env s data key) (hd : Finds env s data Path.data)
    (hne : key ≠ []) (hy : yes ≠ []) (hyb : '{' ∉ yes) (hno : no ≠ []) (hnob : '{' ∉ no) :
    Outputs env s (ofBranches key yes no).program
      (if (data.root? key).any Data.isTruthy then yes else no) := by
  obtain ⟨v, hv, ht⟩ := eval_guardExpr hn hd false
  obtain ⟨w, hw, ht'⟩ := eval_guardExpr hn hd true
  have hout := (outputs_cond hv (outputs_text yes)).append (outputs_cond hw (outputs_text no))
  rw [ht, ht'] at hout
  rw [program_ofBranches hne hy hyb hno hnob]
  cases hb : (data.root? key).any Data.isTruthy with
  | true => simpa [hb] using hout
  | false => simpa [hb] using hout

theorem levels_ofKey_le (key : Text) : (ofKey key).levels [] ≤ Stmt.maxDepth := by
  have hg := guardedLevels_le key []
  have hp := printedLevels_le true
  simp only [ofKey, levels, Fragment.textLevels, Stmt.maxDepth, List.not_mem_nil, false_and,
    if_false]
  omega

theorem levels_ofBranches_le (hyb : '{' ∉ yes) (hnob : '{' ∉ no) :
    (ofBranches key yes no).levels [] ≤ Stmt.maxDepth := by
  have hr := rootLevels_le (Action.guardName [] key)
  simp only [ofBranches, levels, Fragment.textLevels, Stmt.maxDepth, List.not_mem_nil, false_and,
    if_false, hyb, hnob]
  omega

theorem getLast?_ofKey (key : Text) :
    (Fragment.sources ((ofKey key).fragments [])).getLast? = some '}' := by
  have hs : Fragment.sources ((ofKey key).fragments []) =
      Source.printed (outputExpr true (guardedSegments (rootLookup key) [])) := List.append_nil _
  rw [hs, Source.printed, List.getLast?_append]
  rfl

theorem getLast?_ofBranches (key yes no : Text) :
    (Fragment.sources ((ofBranches key yes no).fragments [])).getLast? = some '}' := by
  obtain ⟨fs, hfs⟩ : ∃ fs, (ofBranches key yes no).fragments [] =
      fs ++ [Fragment.ending, .plain []] := by
    refine ⟨.opening (Action.guardName [] key) false :: .plain [] :: (Fragment.ofText yes ++
      .ending :: .plain [] :: .opening (Action.guardName [] key) true :: .plain [] ::
        Fragment.ofText no), ?_⟩
    simp only [ofBranches, fragments, Fragment.ofText, List.not_mem_nil, if_false, List.append_nil,
      List.append_assoc, List.cons_append, List.nil_append]
  have hs : Fragment.sources [Fragment.ending, .plain []] = Source.statement "endif".toList := rfl
  rw [hfs, Fragment.sources_append, hs, List.getLast?_append]
  rfl

end Outline

namespace Tag

theorem isPlain_bracedTag {c : Char} {content : Text} {a : Action} (hc : Text.isBlank c = false)
    (hw : Path.isWord content = true) (ha : a.IsWritten (c :: content)) (offset : Nat) :
    (Mark.bracedTag c content offset).IsPlain ∧
      (Mark.bracedTag c content offset).Does (some a) := by
  have htrim : Text.trim (c :: content) = c :: content := by
    refine Path.trim_eq_self fun d hd => ?_
    obtain rfl | hd := List.mem_cons.mp hd
    · exact hc
    · exact Path.isBlank_of_isPathChar (Path.isPathChar_of_isWord hw hd)
  obtain ⟨hp, hd⟩ := does_bracedTag offset htrim ha
  exact ⟨⟨hp, _, hd⟩, hd⟩

theorem isPlain_tripledTag {content : Text} (hne : content ≠ []) (hw : Path.isWord content = true) :
    (Mark.tripledTag content).IsPlain ∧
      (Mark.tripledTag content).Does (some (.lookup content [])) := by
  have htrim : Text.trim content = content :=
    Path.trim_eq_self fun c hc => Path.isBlank_of_isPathChar (Path.isPathChar_of_isWord hw hc)
  have hd : (Mark.tripledTag content).Does (some (.lookup content [])) := by
    have hwritten : (Action.lookup content []).IsWritten (content ++ Path.dotted []) :=
      .lookup hne hw (by simp)
    refine .action rfl ?_
    rw [Mark.tripledTag, htrim]
    simpa [Path.dotted] using hwritten
  refine ⟨⟨⟨rfl, rfl, fun _ => rfl, fun _ => ?_⟩, _, hd⟩, hd⟩
  rw [Mark.tripledTag, htrim]
  exact hne

end Tag

namespace Template

variable {fields : List (Text × Data)} {key : Text} {d : Data}

theorem renders_of_outlines {text : Text} {segs : List (Segment Mark)} {outline : Outline}
    (hs : Mark.table.segments text = .ok segs) (hp : ∀ t, .tag t ∈ segs → t.IsPlain)
    (ho : Segment.Outlines segs outline) (hl : outline.levels [] ≤ Stmt.maxDepth)
    (hlast : (Fragment.sources (outline.fragments [])).getLast? = some '}') {o : Options}
    {helpers extras : HelperTable} {data : Option Data} {bound : BoundHelpers} {out : Text}
    (hb : bound = .new (.ofData (dataOrEmpty data)) helpers extras)
    (hout : Stmt.Outputs
      ⟨Context.ofData (dataOrEmpty data) bound, bound.call, o.escape, []⟩ {} outline.program out)
    (name : Text) :
    ∃ t, compile .stock helpers name text o = .ok t ∧ t.render data extras = .ok out := by
  have hcompile := @compileWithin_of_outlines Stmt.maxDepth helpers name text o segs outline hs hp
    ho.wellNested ho (.inr hlast)
  rw [if_pos hl] at hcompile
  exact ⟨_, hcompile, render_of_outputs hb hout _⟩

/-- A key in three braces shows what it stands for as it is, and its section is chosen by the truth
of that. The helpers do not matter. -/
theorem renders_key (hd : (Data.object fields).HasDistinctNames) (hne : key ≠ [])
    (hw : Path.isWord key = true) (hk : fields.lookup key = some d) (helpers extras : HelperTable)
    (name : Text) (o : Options) :
    (∃ t, compile .stock helpers name (Mark.tripled key) o = .ok t ∧
      t.render (some (.object fields)) extras =
        .ok (Data.shown o.escape true (Data.keyed? fields key d))) ∧
    ∀ yes no, yes ≠ [] → (∀ c ∈ yes, Mark.IsQuiet c) → no ≠ [] → (∀ c ∈ no, Mark.IsQuiet c) →
      ∃ t, compile .stock helpers name (Mark.branches key yes no) o = .ok t ∧
        t.render (some (.object fields)) extras =
          .ok (if (Data.keyed? fields key d).any Data.isTruthy then yes else no) := by
  let bound : BoundHelpers := .new (.ofData (.object fields)) helpers extras
  have hbound : bound = .new (.ofData (dataOrEmpty (some (.object fields)))) helpers extras := rfl
  have hkey := Path.finds_key hd hk bound bound.call o.escape
  have hdata : Path.Finds ⟨Context.ofData (.object fields) bound, bound.call, o.escape, []⟩ {}
      (.object fields) Path.data := Path.finds_ofData hd rfl fun _ => rfl
  have hquiet : ∀ c ∈ key, Mark.IsQuiet c :=
    fun c hc => Path.isQuiet_of_isPathChar (Path.isPathChar_of_isWord hw hc)
  rw [← Path.root?_key hk]
  constructor
  · obtain ⟨hp, hdoes⟩ := Tag.isPlain_tripledTag hne hw
    have ho : Segment.Outlines [.tag (Mark.tripledTag key)] (.ofKey key) := .lookup hdoes .done
    exact renders_of_outlines (Mark.segments_tripled hne hquiet) (by simpa using hp) ho
      (Outline.levels_ofKey_le key) (Outline.getLast?_ofKey key) hbound
      (Outline.outputs_ofKey hkey hdata) name
  · intro yes no hy hyq hno hnoq
    obtain ⟨o₁, o₂, o₃, o₄, o₅, o₆, hs⟩ := Mark.segments_branches hquiet hy hyq hno hnoq
    obtain ⟨hp₁, hd₁⟩ := Tag.isPlain_bracedTag (by decide) hw (.opening hw) o₁
    obtain ⟨hp₃, hd₃⟩ := Tag.isPlain_bracedTag (by decide) hw (.closing hw) o₃
    obtain ⟨hp₄, hd₄⟩ := Tag.isPlain_bracedTag (by decide) hw (.inverted hw) o₄
    obtain ⟨hp₆, hd₆⟩ := Tag.isPlain_bracedTag (by decide) hw (.closing hw) o₆
    have hsecond : Segment.Outlines [.tag (Mark.bracedTag '^' key o₄), .text no o₅,
        .tag (Mark.bracedTag '/' key o₆)] _ :=
      @Segment.Outlines.block [.text no o₅] [] _ _ _ _ _ _ _ hd₄ hd₆ (.inr (.inr rfl))
        (.text .done) .done
    have ho : Segment.Outlines _ (.ofBranches key yes no) :=
      @Segment.Outlines.block [.text yes o₂] _ _ _ _ _ _ _ _ hd₁ hd₃ (.inr (.inr rfl))
        (.text .done) hsecond
    have hbrace {t : Text} (ht : ∀ c ∈ t, Mark.IsQuiet c) : '{' ∉ t :=
      fun hm => ht '{' hm (by decide)
    exact renders_of_outlines hs (by simpa using ⟨hp₁, hp₃, hp₄, hp₆⟩) ho
      (Outline.levels_ofBranches_le (hbrace hyq) (hbrace hnoq))
      (Outline.getLast?_ofBranches key yes no) hbound
      (Outline.outputs_ofBranches hkey hdata hne hy (hbrace hyq) hno (hbrace hnoq)) name

/-- A field that goes by the name of the whole data hides a quoted key. -/
theorem renders_key_none :
    (∃ t, compile .stock {} "page".toList (Mark.tripled "none".toList) {} = .ok t ∧
      t.render (some (.object [(Path.data, .object []), ("none".toList, .text ['x'])])) {} =
        .ok []) ∧
    ∃ t, compile .stock {} "page".toList (Mark.tripled "none".toList) {} = .ok t ∧
      t.render (some (.object [("none".toList, .text ['<'])])) {} = .ok ['<'] := by
  have hd :
      (Data.object [(Path.data, .object []), ("none".toList, .text ['x'])]).HasDistinctNames := by
    simp [Data.HasDistinctNames, Path.data]
  have hd' : (Data.object [("none".toList, .text ['<'])]).HasDistinctNames := by
    simp [Data.HasDistinctNames]
  exact ⟨(@renders_key _ "none".toList _ hd (by decide) (by decide) rfl {} {} "page".toList {}).1,
    (@renders_key _ "none".toList _ hd' (by decide) (by decide) rfl {} {} "page".toList {}).1⟩

end Template

end Curly

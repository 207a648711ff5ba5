import Curly.Proofs.Path.Evaluation
import Curly.Proofs.Script.Alike
import Curly.Proofs.Section.Statements
import Curly.Proofs.Section.Strictness

namespace Curly

open SectionTag Script

namespace Script.Stmt

variable {env : Env} {s : Scope}

theorem outputs_ofText (t : Text) : Outputs env s (ofText t) t := by
  unfold ofText
  split
  · next h =>
    rw [h]
    exact outputs_nil
  · exact outputs_text t

theorem outputs_print {e : Expr} {v : Value} (h : evalPrinted env s e = .ok v) :
    Outputs env s [.print e] (env.printed v) := by
  refine outputs_singleton ?_
  rw [exec, h]
  rfl

theorem outputs_ofBody (body : Text) : Outputs env s (ofBody body) body := by
  unfold ofBody
  split
  · have he : evalPrinted env s (.filter (.const (.plain body)) "safe".toList []) =
        .ok (.text body true) := by
      rw [evalPrinted, Expr.eval_filter, Expr.eval_const, Expr.evalAll_nil]
      · rfl
      · intro n arg h
        cases h
    have hp := outputs_print he
    rwa [Path.printed_safe] at hp
  · exact outputs_ofText body

theorem outputs_cond {guard : Expr} {v : Value} {ss : List Stmt} {out : Text}
    (hg : guard.eval env s = .ok v) (hs : Outputs env s ss out) :
    Outputs env s [.cond guard ss []] (if v.isTruthy then out else []) := by
  refine outputs_singleton ?_
  rw [exec, hg]
  change (if v.isTruthy then execAll env s ss else execAll env s []) = _
  cases v.isTruthy with
  | true => exact hs
  | false => exact @outputs_nil env s

end Script.Stmt

namespace Path

open Curly.Script.Expr

variable {env : Env} {s : Scope} {data : Data}

theorem isTruthy_ofFound (found : Option Data) :
    (Value.ofFound found).isTruthy = found.any Data.isTruthy := by
  cases found with
  | none => rfl
  | some d => exact Value.isTruthy_ofData d

theorem eval_guardExpr {name : Text} (hn : Finds env s data name) (hd : Finds env s data Path.data)
    (inverted : Bool) :
    ∃ v, (Fragment.guardExpr name inverted).eval env s = .ok v ∧
      v.isTruthy = ((data.root? name).any Data.isTruthy != inverted) := by
  have hroot := eval_rootExpr_of_finds hn hd
  rw [Fragment.guardExpr]
  cases inverted with
  | false =>
    refine ⟨_, hroot, ?_⟩
    rw [isTruthy_ofFound, Bool.bne_false]
  | true =>
    refine ⟨.bool !(Value.ofFound (data.root? name)).isTruthy, ?_, ?_⟩
    · rw [if_pos rfl, Expr.eval_unary, hroot]
      rfl
    · rw [isTruthy_ofFound, Bool.bne_true]
      rfl

end Path

namespace Outline

open Stmt Curly.Path

variable {env : Env} {s : Scope} {data : Data}

theorem outputs_textStatements (before t : Text) :
    ∃ out, Outputs env s (textStatements before t).1 out ∧
      out ++ (textStatements before t).2 = before ++ t := by
  unfold textStatements
  split
  · refine ⟨_, (outputs_ofText before).append (outputs_ofBody (Fragment.shielded t)), ?_⟩
    rw [List.append_assoc, (Fragment.shielded_append t).1]
  · exact ⟨[], outputs_nil, rfl⟩

theorem context_cons (opened : List (Text × Bool)) (name : Text) (inverted : Bool) :
    Action.context ((name, inverted) :: opened) =
      if inverted || name = [] then Action.context opened else name := by
  cases inverted with
  | true => rfl
  | false =>
    by_cases hn : name = []
    · simp [Action.context, hn]
    · simp [Action.context, hn]

theorem evalPrinted_printedExpr (verbatim : Bool) (e : Expr)
    (he : ∀ n arg, e ≠ .call (.name n) [arg]) :
    evalPrinted env s (printedExpr verbatim e) = (printedExpr verbatim e).eval env s := by
  rw [evalPrinted]
  intro n arg h
  cases verbatim with
  | true => cases h
  | false => exact he n arg h

theorem outputs_printedExpr {e : Expr} {found : Option Data} {v : Value}
    (hc : ∀ n arg, e ≠ .call (.name n) [arg]) (he : e.eval env s = .ok v) (hv : Shows v found)
    (verbatim : Bool) :
    Outputs env s [.print (printedExpr verbatim e)] (Data.shown env.escape verbatim found) := by
  obtain ⟨w, hw, hp⟩ := printed_printedExpr he hv verbatim
  rw [← hp]
  exact outputs_print ((evalPrinted_printedExpr verbatim e hc).trans hw)

theorem outputs_here (hf : ∀ name, Finds env s data name) (name : Text) (verbatim : Bool) :
    Outputs env s [.print (printedExpr verbatim (rootExpr name))]
      (Data.shown env.escape verbatim (data.root? name)) := by
  refine outputs_printedExpr ?_ (eval_rootExpr_of_finds (hf name) (hf Path.data)) (.inl rfl)
    verbatim
  intro n arg
  rw [rootExpr]
  split <;> simp

theorem outputs_lookup {name : Text} (hn : Finds env s data name)
    (hd : Finds env s data Path.data) (segments : List Text) (verbatim : Bool) :
    Outputs env s [.print (printedExpr verbatim (guardedExpr name segments))]
      (Data.shown env.escape verbatim (data.lookup? name segments)) := by
  refine outputs_printedExpr (by simp [guardedExpr])
    (eval_guardedExpr_of_finds hn hd segments) ?_ verbatim
  cases data.lookup? name segments with
  | none => exact .inr ⟨rfl, rfl⟩
  | some d => exact .inl rfl

/-- The statements of an outline put out what it shows, but for the text that is left behind
them. -/
theorem outputs_statements (hf : ∀ name, Finds env s data name) (o : Outline)
    (opened : List (Text × Bool)) (before : Text) :
    ∃ out, Outputs env s (o.statements opened before).1 out ∧
      out ++ (o.statements opened before).2 =
        before ++ o.render env.escape data (data.root? (Action.context opened)) := by
  -- Plain text is not put out until the next tag, so what is left of it is carried along.
  induction o generalizing opened before with
  | done => exact ⟨[], outputs_nil, (List.append_nil before).symm⟩
  | text t rest ih =>
    obtain ⟨out, hout, hlast⟩ := @outputs_textStatements env s before t
    obtain ⟨more, hmore, hlast'⟩ := ih opened (textStatements before t).2
    refine ⟨_, hout.append hmore, ?_⟩
    rw [render, statements, ← List.append_assoc before, ← hlast, List.append_assoc,
      List.append_assoc, hlast']
  | here verbatim rest ih =>
    obtain ⟨more, hmore, hlast⟩ := ih opened []
    have hshown := outputs_here hf (Action.context opened) verbatim
    refine ⟨_, (outputs_ofText before).append (hshown.append hmore), ?_⟩
    rw [render, statements, List.append_assoc, List.append_assoc, hlast, List.nil_append]
  | lookup name segments verbatim rest ih =>
    obtain ⟨more, hmore, hlast⟩ := ih opened []
    have hshown := outputs_lookup (hf name) (hf Path.data) segments verbatim
    refine ⟨_, (outputs_ofText before).append (hshown.append hmore), ?_⟩
    rw [render, statements, List.append_assoc, List.append_assoc, hlast, List.nil_append]
  | block name inverted body rest ihb ihr =>
    obtain ⟨inner, hinner, hlast⟩ := ihb ((name, inverted) :: opened) []
    obtain ⟨more, hmore, hlast'⟩ := ihr opened []
    obtain ⟨v, hv, ht⟩ := eval_guardExpr (hf (Action.guardName opened name)) (hf Path.data) inverted
    have hbody := hinner.append (outputs_ofText (statements ((name, inverted) :: opened) [] body).2)
    rw [hlast, List.nil_append] at hbody
    have hcond := outputs_cond hv hbody
    have hguard : data.root? (Action.guardName opened name) =
        if name = [] then data.root? (Action.context opened) else data.root? name := by
      unfold Action.guardName
      split <;> rfl
    have hinside : data.root? (Action.context ((name, inverted) :: opened)) =
        if inverted || name = [] then data.root? (Action.context opened)
        else if name = [] then data.root? (Action.context opened) else data.root? name := by
      rw [context_cons]
      cases inverted <;> by_cases hn : name = [] <;> simp [hn]
    have hif (b : Bool) (out : Text) :
        (if (b != inverted) = true then out else []) = if b = inverted then [] else out := by
      cases b <;> cases inverted <;> rfl
    refine ⟨_, (outputs_ofText before).append (hcond.append hmore), ?_⟩
    rw [render, statements, List.append_assoc, List.append_assoc, hlast', List.nil_append,
      hinside, ht, hguard, hif]

def program (o : Outline) : List Stmt :=
  (o.statements [] []).1 ++ Stmt.ofText (o.statements [] []).2

theorem outputs_program (hf : ∀ name, Finds env s data name) (o : Outline) :
    Outputs env s o.program (o.render env.escape data (data.root? Path.data)) := by
  obtain ⟨out, hout, hlast⟩ := outputs_statements hf o [] []
  have h := hout.append (outputs_ofText (o.statements [] []).2)
  rwa [hlast, List.nil_append] at h

theorem readAll_fragments {o : Outline} (hr : ∀ f ∈ o.fragments [], f.IsRead) (limit : Nat) :
    Stmt.readAll limit true (Fragment.sources (o.fragments [])) =
      within (o.levels []) limit o.program := by
  have hadd := @addAll_fragments limit o [] {} [] []
  rw [List.append_nil] at hadd
  rw [Stmt.readAll, if_pos rfl, Fragment.readAll_sources hr]
  change (Builder.addAll limit {} (Fragment.pieces [] (o.fragments []))).bind Builder.finish = _
  rw [hadd]
  have hlast (b : Builder) :
      (Builder.addAll limit b (Fragment.pieces (o.statements [] []).2 [])).bind Builder.finish =
        (b.pushAll (Stmt.ofText (o.statements [] []).2)).finish := by
    rw [Fragment.pieces, Builder.addAll_addText, Builder.pushText_eq]
    rfl
  have hframes : ({} : Builder).frames.length = 0 := rfl
  rw [hframes, Nat.sub_zero]
  unfold within
  by_cases hl : o.levels [] ≤ limit
  · rw [if_pos hl, if_pos hl]
    refine (hlast _).trans ?_
    rw [← Builder.pushAll_append]
    simp [Builder.finish, Builder.pushAll, program]
  · rw [if_neg hl, if_neg hl]
    rfl

end Outline

namespace Template

variable {limit : Nat} {helpers : HelperTable} {name text : Text} {o : Options}
  {segs : List (Segment Mark)} {outline : Outline}

theorem ofTemplate_of_outlines (hs : Mark.table.segments text = .ok segs)
    (hp : ∀ t, .tag t ∈ segs → t.IsPlain) (hw : WellNested (Segment.sectionTags .stock segs))
    (ho : Segment.Outlines segs outline) (strict : Bool) :
    Source.ofTemplate .stock strict text = .ok (Fragment.sources (outline.fragments [])) ∧
      ∀ f ∈ outline.fragments [], f.IsRead := by
  have hwrites := ho.writes (fun t hm => (hp t hm).proper) []
  have hpermissive := ofTemplate_of_writes hs hwrites
  refine ⟨?_, hwrites.isRead (by simp)⟩
  cases strict with
  | false => exact hpermissive
  | true =>
    have haccepts : Source.Accepts .stock true text :=
      ⟨segs, hs, fun t hm => (hp t hm).proper, fun _ => hw⟩
    obtain ⟨s, hstrict⟩ := Source.ofTemplate_of_accepts haccepts
    have h := Source.ofTemplate_of_strict hstrict
    rw [hpermissive] at h
    rw [hstrict, h]

theorem compileWithin_of_outlines (hs : Mark.table.segments text = .ok segs)
    (hp : ∀ t, .tag t ∈ segs → t.IsPlain) (hw : WellNested (Segment.sectionTags .stock segs))
    (ho : Segment.Outlines segs outline)
    (hk : o.keepTrailingNewline = true ∨
      (Fragment.sources (outline.fragments [])).getLast? = some '}') :
    compileWithin limit .stock helpers name text o =
      if outline.levels [] ≤ limit then
        .ok ⟨name, .script (Fragment.sources (outline.fragments [])) o.escape outline.program,
          helpers⟩
      else .error (.rejected name .tooDeep) := by
  obtain ⟨hsource, hread⟩ := ofTemplate_of_outlines hs hp hw ho o.strictSections
  have hkept : Stmt.readAll limit o.keepTrailingNewline (Fragment.sources (outline.fragments [])) =
      Stmt.readAll limit true (Fragment.sources (outline.fragments [])) := by
    obtain hk | hk := hk
    · rw [hk]
    · -- The line ending that a script may lose is not there behind a brace.
      have hdrop : Stmt.dropLineEnd (Fragment.sources (outline.fragments [])) = _ :=
        Stmt.dropLineEnd_eq_self (by rw [hk]; decide) (by rw [hk]; decide)
      rw [Stmt.readAll, Stmt.readAll, hdrop, ite_self, ite_self]
  rw [compileWithin_of_ok hsource, ofScriptWithin, hkept, Outline.readAll_fragments hread, within]
  by_cases hl : outline.levels [] ≤ limit
  · rw [if_pos hl, if_pos hl]
  · rw [if_neg hl, if_neg hl]

theorem render_of_outputs {ss : List Stmt} {escape : Escaping} {data : Option Data}
    {extras : HelperTable} {hs : BoundHelpers} {out : Text}
    (hb : hs = .new (.ofData (dataOrEmpty data)) helpers extras)
    (h : Stmt.Outputs ⟨Context.ofData (dataOrEmpty data) hs, hs.call, escape, []⟩ {} ss out)
    (source : Text) : render ⟨name, .script source escape ss, helpers⟩ data extras = .ok out := by
  subst hb
  rw [Stmt.Outputs] at h
  rw [render]
  simp only [Stmt.run, h]
  rfl

theorem render_program (source : Text) (escape : Escaping) (outline : Outline)
    (data : Option Data) (hd : (dataOrEmpty data).HasDistinctNames) :
    render ⟨name, .script source escape outline.program, {}⟩ data {} =
      .ok (outline.render escape (dataOrEmpty data) ((dataOrEmpty data).root? Path.data)) := by
  let hs : BoundHelpers := .new (.ofData (dataOrEmpty data)) {} {}
  have hf (n : Text) : Path.Finds ⟨Context.ofData (dataOrEmpty data) hs, hs.call, escape, []⟩ {}
      (dataOrEmpty data) n := Path.finds_ofData hd rfl fun hm => absurd hm List.not_mem_nil
  exact render_of_outputs rfl (Outline.outputs_program hf outline) source

/-- A plain template whose sections nest has an outline. It is compiled, and renders what the
outline shows, exactly when its script does not nest too deep. -/
theorem renders_outline (name text : Text) (o : Options) (hk : o.keepTrailingNewline = true)
    (hs : Mark.table.segments text = .ok segs) (hp : ∀ t, .tag t ∈ segs → t.IsPlain)
    (hw : WellNested (Segment.sectionTags .stock segs)) (data : Option Data)
    (hd : (dataOrEmpty data).HasDistinctNames) :
    (∃ outline, Segment.Outlines segs outline) ∧
      ∀ outline, Segment.Outlines segs outline →
        if outline.levels [] ≤ Stmt.maxDepth then
          ∃ t, compile .stock {} name text o = .ok t ∧
            t.render data {} = .ok (outline.render o.escape (dataOrEmpty data)
              ((dataOrEmpty data).root? Path.data))
        else compile .stock {} name text o = .error (.rejected name .tooDeep) := by
  refine ⟨Segment.exists_outline hp hw, fun outline ho => ?_⟩
  rw [compile, compileWithin_of_outlines hs hp hw ho (.inl hk)]
  split
  · exact ⟨_, rfl, render_program _ _ outline data hd⟩
  · rfl

theorem renders_outline_section :
    ∃ t, compile .stock {} "page".toList
        (Mark.braced '#' ['a'] ++ 'x' :: (Mark.braced '.' [] ++ Mark.braced '/' ['a'])) {} = .ok t ∧
      t.render (some (.object [("a".toList, .text ['<'])])) {} = .ok "x&lt;".toList := by
  obtain ⟨hp₁, hd₁⟩ : (Mark.bracedTag '#' ['a'] 0).IsProper ∧
      (Mark.bracedTag '#' ['a'] 0).Does (some (.opening ['a'] false)) :=
    Tag.does_bracedTag 0 (by decide) (.opening (by decide))
  obtain ⟨hp₂, hd₂⟩ : (Mark.bracedTag '.' [] 7).IsProper ∧
      (Mark.bracedTag '.' [] 7).Does (some .here) := Tag.does_bracedTag 7 (by decide) .here
  obtain ⟨hp₃, hd₃⟩ : (Mark.bracedTag '/' ['a'] 12).IsProper ∧
      (Mark.bracedTag '/' ['a'] 12).Does (some (.closing ['a'])) :=
    Tag.does_bracedTag 12 (by decide) (.closing (by decide))
  have hs : Mark.table.segments
      (Mark.braced '#' ['a'] ++ 'x' :: (Mark.braced '.' [] ++ Mark.braced '/' ['a'])) =
      .ok [.tag (Mark.bracedTag '#' ['a'] 0), .text ['x'] 6, .tag (Mark.bracedTag '.' [] 7),
        .tag (Mark.bracedTag '/' ['a'] 12)] :=
    DelimiterTable.segments_of_toOption (by decide +kernel)
  have ho := @Segment.Outlines.block [.text ['x'] 6, .tag (Mark.bracedTag '.' [] 7)] [] _ _ _ _ _
    _ _ hd₁ hd₃ (.inr (.inr rfl)) (.text (.here hd₂ .done)) .done
  have h := (renders_outline "page".toList _ {} rfl hs
    (by simpa using ⟨⟨hp₁, _, hd₁⟩, ⟨hp₂, _, hd₂⟩, ⟨hp₃, _, hd₃⟩⟩) ho.wellNested
    (some (.object [("a".toList, .text ['<'])])) (by simp [dataOrEmpty, Data.HasDistinctNames])).2
      _ ho
  rw [if_pos (by decide)] at h
  exact h

def nested (depth : Nat) : Text :=
  (List.replicate depth ('#', ['a']) ++ List.replicate depth ('/', ['a'])).flatMap
    fun p => Mark.braced p.1 p.2

theorem exists_nested {name : Text} {ts us : List (Tag Mark)} (hl : ts.length = us.length)
    (ht : ∀ t ∈ ts, t.Does (some (.opening name false)))
    (hu : ∀ u ∈ us, u.Does (some (.closing name))) :
    ∃ outline, Segment.Outlines (ts.map .tag ++ us.map .tag) outline ∧
      ∀ opened, ts.length ≤ outline.levels opened := by
  induction ts generalizing us with
  | nil =>
    cases us with
    | nil => exact ⟨.done, .done, fun opened => Nat.zero_le _⟩
    | cons u us => cases hl
  | cons t ts ih =>
    have hne : us ≠ [] := by
      rintro rfl
      cases hl
    have hlast := List.dropLast_concat_getLast hne
    generalize us.dropLast = inner, us.getLast hne = u at hlast
    subst hlast
    rw [List.length_cons, List.length_append, List.length_singleton, Nat.add_right_cancel_iff] at hl
    obtain ⟨body, hbody, hlevels⟩ := ih hl (fun t hm => ht t (List.mem_cons_of_mem _ hm))
      fun u hm => hu u (List.mem_append_left _ hm)
    have hblock := Segment.Outlines.block (ht t (List.mem_cons_self ..))
      (hu u (List.mem_append_right _ (List.mem_cons_self ..))) (.inr (.inr rfl)) hbody .done
    refine ⟨_, by simpa using hblock, fun opened => ?_⟩
    have hdeep := hlevels ((name, false) :: opened)
    rw [List.length_cons, Outline.levels, Outline.levels]
    omega

theorem exists_outline_nested (depth : Nat) :
    ∃ segs outline, Mark.table.segments (nested depth) = .ok segs ∧
      (∀ t, .tag t ∈ segs → t.IsPlain) ∧ Segment.Outlines segs outline ∧
        ∀ opened, depth ≤ outline.levels opened := by
  obtain ⟨offset, happend⟩ := Mark.bracedTags_append 0 (List.replicate depth ('#', ['a']))
    (List.replicate depth ('/', ['a']))
  obtain ⟨hl, ht⟩ := Mark.bracedTags_replicate 0 depth '#' ['a']
  obtain ⟨hl', hu⟩ := Mark.bracedTags_replicate offset depth '/' ['a']
  have hs : Mark.table.segments (nested depth) =
      .ok ((Mark.bracedTags 0 (List.replicate depth ('#', ['a']) ++
        List.replicate depth ('/', ['a']))).map .tag) := by
    have hquiet : (['#', '/', 'a'].all fun d => decide (Mark.IsQuiet d)) = true := by decide
    have hmem {d : Char} (hd : d ∈ ['#', '/', 'a']) : Mark.IsQuiet d :=
      of_decide_eq_true (List.all_eq_true.mp hquiet d hd)
    refine Mark.segments_braced fun p hp => ?_
    obtain hp | hp := List.mem_append.mp hp
    · obtain rfl := List.eq_of_mem_replicate hp
      refine ⟨by decide, fun d hd => hmem ?_⟩
      simp only [List.mem_cons, List.not_mem_nil, or_false] at hd ⊢
      exact hd.imp_right .inr
    · obtain rfl := List.eq_of_mem_replicate hp
      refine ⟨by decide, fun d hd => hmem ?_⟩
      simp only [List.mem_cons, List.not_mem_nil, or_false] at hd ⊢
      exact .inr hd
  rw [happend, List.map_append] at hs
  generalize Mark.bracedTags 0 _ = ts, Mark.bracedTags offset _ = us at hl ht hl' hu hs
  have hopening : ∀ t ∈ ts, t.IsProper ∧ t.Does (some (.opening ['a'] false)) := by
    intro t hm
    obtain ⟨offset', rfl⟩ := ht t hm
    exact Tag.does_bracedTag offset' (by decide) (.opening (by decide))
  have hclosing : ∀ u ∈ us, u.IsProper ∧ u.Does (some (.closing ['a'])) := by
    intro u hm
    obtain ⟨offset', rfl⟩ := hu u hm
    exact Tag.does_bracedTag offset' (by decide) (.closing (by decide))
  obtain ⟨outline, ho, hlevels⟩ := exists_nested (hl.trans hl'.symm)
    (fun t hm => (hopening t hm).2) fun u hm => (hclosing u hm).2
  refine ⟨_, outline, hs, fun t hm => ?_, ho, fun opened => hl ▸ hlevels opened⟩
  obtain hm | hm := List.mem_append.mp hm
  · obtain ⟨hp, hd⟩ := hopening t (by simpa using hm)
    exact ⟨hp, _, hd⟩
  · obtain ⟨hp, hd⟩ := hclosing t (by simpa using hm)
    exact ⟨hp, _, hd⟩

theorem compileWithin_nested {depth : Nat} (hl : limit < depth) (helpers : HelperTable)
    (name : Text) (o : Options) (hk : o.keepTrailingNewline = true) :
    ∃ segs, Mark.table.segments (nested depth) = .ok segs ∧ (∀ t, .tag t ∈ segs → t.IsPlain) ∧
      WellNested (Segment.sectionTags .stock segs) ∧
        compileWithin limit .stock helpers name (nested depth) o =
          .error (.rejected name .tooDeep) := by
  obtain ⟨segs, outline, hs, hp, ho, hlevels⟩ := exists_outline_nested depth
  refine ⟨segs, hs, hp, ho.wellNested, ?_⟩
  have hdeep := hlevels []
  rw [compileWithin_of_outlines hs hp ho.wellNested ho (.inl hk), if_neg (by omega)]

/-- Two hundred sections in one another are well nested, and there is no template of them. -/
theorem nested_tooDeep :
    ∃ segs, Mark.table.segments (nested 200) = .ok segs ∧ (∀ t, .tag t ∈ segs → t.IsPlain) ∧
      WellNested (Segment.sectionTags .stock segs) ∧
        compile .stock {} "deep".toList (nested 200) {} =
          .error (.rejected "deep".toList .tooDeep) :=
  compileWithin_nested (by decide) {} _ {} rfl

end Template

end Curly

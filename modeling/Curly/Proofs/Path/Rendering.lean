import Curly.Proofs.Path.Rejection
import Curly.Proofs.Section.Rendering

namespace Curly

open Script

namespace Source

theorem ofTemplate_of_interpolates {table : RuleTable} {text expr : Text} {t : Tag Mark}
    (hs : Mark.table.segments text = .ok [.tag t]) (hp : t.IsProper) (hi : t.interpolates = true)
    (hb : Draft.spareBrace t = [])
    (hm : Draft.meaningOf table (Text.trim t.content) = .output expr ∨
      Draft.meaningOf table (Text.trim t.content) = .current ∧ expr = Path.data)
    (strict : Bool) : ofTemplate table strict text = .ok (output expr t.isVerbatim) := by
  have hadd : ({} : Draft).addContent table strict t =
      .ok (({} : Draft).write (output expr t.isVerbatim)) := by
    have hne := hp.content hi
    have hmeaning (unescaped : Bool) : ({} : Draft).addMeaning strict
        (Draft.meaningOf table (Text.trim t.content)) unescaped t.position =
        .ok (({} : Draft).write (output expr unescaped)) := by
      obtain hm | ⟨hm, rfl⟩ := hm <;> rw [hm] <;> rfl
    rw [Tag.interpolates, Bool.or_eq_true, decide_eq_true_eq, decide_eq_true_eq] at hi
    obtain hi | hi := hi <;> simp [Draft.addContent, hi, hne, hmeaning, Tag.isVerbatim]
  have htag : ({} : Draft).addTag table strict t =
      .ok (({} : Draft).write (output expr t.isVerbatim)) :=
    Draft.addTag_eq_ok_iff.mpr ⟨Draft.tagFault_of_isProper hp, _, hadd, by simp [hb, Draft.write]⟩
  rw [ofTemplate, hs]
  simp only [ofSegments, Draft.addSegments, Draft.addSegment, htag]
  simp [Except.bind, Draft.finish, Draft.write]

end Source

namespace Path

def isPathChar (c : Char) : Bool := isWordChar c || c = '.'

theorem isBlank_of_isPathChar {c : Char} (h : isPathChar c = true) : Text.isBlank c = false := by
  have hrange : 46 ≤ c.toNat ∧ c.toNat ≤ 122 := by
    rw [isPathChar, Bool.or_eq_true, decide_eq_true_eq] at h
    obtain h | rfl := h
    · have hword := toNat_of_isWordRest h
      omega
    · decide
  simp only [Text.isBlank, Text.inRanges, Text.blankRanges, List.any_cons, List.any_nil,
    Bool.or_eq_false_iff, Bool.and_eq_false_iff, decide_eq_false_iff_not, and_true]
  omega

theorem isQuiet_of_isPathChar {c : Char} (h : isPathChar c = true) : Mark.IsQuiet c := by
  intro hm
  simp only [List.mem_cons, List.not_mem_nil, or_false] at hm
  obtain rfl | rfl | rfl | rfl := hm <;> revert h <;> decide

theorem exists_splitOn (s : Text) :
    ∃ name segments, Text.splitOn '.' s = name :: segments ∧ s = name ++ dotted segments := by
  induction s with
  | nil => exact ⟨[], [], rfl, rfl⟩
  | cons c s ih =>
    obtain ⟨name, segments, hs, htext⟩ := ih
    by_cases hc : c = '.'
    · refine ⟨[], name :: segments, ?_, ?_⟩
      · rw [Text.splitOn, if_pos hc, hs]
      · rw [hc, htext]
        simp [dotted]
    · refine ⟨c :: name, segments, ?_, ?_⟩
      · rw [Text.splitOn, if_neg hc, hs]
      · rw [htext, List.cons_append]

theorem words_of_isPath {path name : Text} {segments : List Text} (hp : isPath path = true)
    (hs : Text.splitOn '.' path = name :: segments) :
    path = name ++ dotted segments ∧ name ≠ [] ∧ isWord name = true ∧
      ∀ w ∈ segments, w ≠ [] ∧ isWord w = true := by
  obtain ⟨name', segments', hs', htext⟩ := exists_splitOn path
  rw [hs] at hs'
  cases hs'
  have hwords : ∀ w ∈ name :: segments, w ≠ [] ∧ isWord w = true := by
    intro w hm
    rw [isPath, hs] at hp
    simpa using List.all_eq_true.mp hp w hm
  obtain ⟨hne, hw⟩ := hwords name (List.mem_cons_self ..)
  exact ⟨htext, hne, hw, fun w hm => hwords w (List.mem_cons_of_mem _ hm)⟩

theorem isPathChar_of_isWord {w : Text} (hw : isWord w = true) {c : Char} (hc : c ∈ w) :
    isPathChar c = true := by
  have h : isWordChar c = true := List.all_eq_true.mp hw c hc
  rw [isPathChar, h, Bool.true_or]

theorem isPathChar_of_mem {name : Text} {segments : List Text} (hw : isWord name = true)
    (hs : ∀ w ∈ segments, w ≠ [] ∧ isWord w = true) :
    ∀ c ∈ name ++ dotted segments, isPathChar c = true := by
  intro c hc
  obtain hc | hc := List.mem_append.mp hc
  · exact isPathChar_of_isWord hw hc
  · obtain ⟨w, hm, hc⟩ := List.mem_flatMap.mp hc
    obtain rfl | hc := List.mem_cons.mp hc
    · rfl
    · exact isPathChar_of_isWord (hs w hm).2 hc

theorem trim_eq_self {s : Text} (h : ∀ c ∈ s, Text.isBlank c = false) : Text.trim s = s := by
  have hdrop {t : Text} (ht : ∀ c ∈ t, Text.isBlank c = false) : t.dropWhile Text.isBlank = t := by
    cases t with
    | nil => rfl
    | cons c t => rw [List.dropWhile_cons, ht c (List.mem_cons_self ..), if_neg Bool.false_ne_true]
  have hreverse : ∀ c ∈ s.reverse, Text.isBlank c = false :=
    fun c hc => h c (List.mem_reverse.mp hc)
  rw [Text.trim, Text.trimStart, hdrop h, Text.trimEnd, hdrop hreverse, List.reverse_reverse]

def tag (path : Text) : Text := Mark.literal .plainOpen ++ path ++ Mark.literal .close

theorem ofTemplate_of_output {table : RuleTable} {c : Char} {content expr : Text}
    (hc : isPathChar c = true)
    (hq : ∀ d ∈ c :: content, Mark.IsQuiet d ∧ Text.isBlank d = false)
    (hm : Draft.meaningOf table (c :: content) = .output expr) (strict : Bool) :
    Source.ofTemplate table strict (tag (c :: content)) = .ok (Source.printed expr) := by
  have hsegments : Mark.table.segments (tag (c :: content)) =
      .ok [.tag (Mark.bracedTag c content 0)] := by
    have h := @Mark.segments_braced [(c, content)] (by
      simp only [List.mem_singleton, forall_eq]
      refine ⟨fun hm => ?_, fun d hd => (hq d hd).1⟩
      simp only [List.mem_cons, List.not_mem_nil, or_false] at hm
      obtain rfl | rfl | rfl | rfl | rfl := hm <;> revert hc <;> decide)
    rwa [List.flatMap_cons, List.flatMap_nil, List.append_nil] at h
  have htrim := trim_eq_self fun d hd => (hq d hd).2
  have hproper : (Mark.bracedTag c content 0).IsProper := by
    refine ⟨rfl, rfl, fun h => ?_, fun _ => ?_⟩
    · exact absurd (show Mark.literal .plainOpen = Mark.literal .verbatimOpen from h) (by decide)
    · rw [Mark.bracedTag, htrim]
      exact List.cons_ne_nil c content
  exact Source.ofTemplate_of_interpolates hsegments hproper rfl rfl
    (.inl (by rw [Mark.bracedTag, htrim, hm])) strict

theorem ofTemplate_tag {name : Text} {segments : List Text} (hne : name ≠ [])
    (hw : isWord name = true) (hs : ∀ w ∈ segments, w ≠ [] ∧ isWord w = true) (strict : Bool) :
    Source.ofTemplate .stock strict (tag (name ++ dotted segments)) =
      .ok (Source.printed (guardedSegments (rootLookup name) segments)) := by
  have hchar := isPathChar_of_mem hw hs
  have hmeaning : Draft.meaningOf .stock (name ++ dotted segments) =
      .output (guardedSegments (rootLookup name) segments) := by
    rw [Draft.meaningOf, RuleTable.apply_stock_word hne hw, meaning?_dotted hne hw hs]
    rfl
  obtain ⟨c, content, hpath⟩ := List.exists_cons_of_ne_nil (List.append_ne_nil_of_left_ne_nil hne _)
  rw [hpath] at hchar hmeaning ⊢
  exact ofTemplate_of_output (hchar c (List.mem_cons_self ..))
    (fun d hd => ⟨isQuiet_of_isPathChar (hchar d hd), isBlank_of_isPathChar (hchar d hd)⟩)
    hmeaning strict

def callText (name : Text) : Text := name ++ ['(', ')']

theorem meaningOf_callText {name : Text} (hne : name ≠ []) (hw : isWord name = true) :
    Draft.meaningOf .stock (callText name) = .output (callText name) := by
  have hdot : '.' ∉ callText name := by
    simp [callText, not_mem_of_isWord hw (show Lexeme.isWordRest '.' = false by decide)]
  have hparen : isWord (callText name) = false := by
    rw [callText, isWord, List.all_append, show List.all ['(', ')'] isWordChar = false by decide,
      Bool.and_false]
  have hpath : isPath (callText name) = false := by
    rw [isPath, Text.splitOn_of_not_mem hdot, List.all_cons, hparen, Bool.and_false,
      Bool.false_and]
  have hhere : callText name ≠ ['.'] := by
    intro h
    exact hdot (h ▸ List.mem_singleton_self '.')
  rw [Draft.meaningOf, callText, RuleTable.apply_stock_word hne hw, ← callText, meaning?,
    if_neg hhere, hpath]
  rfl

theorem ofTemplate_call {name : Text} (hne : name ≠ []) (hw : isWord name = true)
    (strict : Bool) :
    Source.ofTemplate .stock strict (tag (callText name)) =
      .ok (Source.printed (callText name)) := by
  have hmeaning := meaningOf_callText hne hw
  have hchar : ∀ d ∈ callText name, Mark.IsQuiet d ∧ Text.isBlank d = false := by
    intro d hd
    obtain hd | hd := List.mem_append.mp hd
    · have hp := isPathChar_of_isWord hw hd
      exact ⟨isQuiet_of_isPathChar hp, isBlank_of_isPathChar hp⟩
    · simp only [List.mem_cons, List.not_mem_nil, or_false] at hd
      obtain rfl | rfl := hd <;> exact ⟨by decide, by decide⟩
  obtain ⟨c, name, rfl⟩ := List.exists_cons_of_ne_nil hne
  exact ofTemplate_of_output (isPathChar_of_isWord hw (List.mem_cons_self ..)) hchar hmeaning strict

theorem readAll_call {name : Text} (hne : name ≠ []) (hw : isWord name = true)
    (h : rootLookup name = name) (keep : Bool) :
    Stmt.readAll Stmt.maxDepth keep (Source.printed (callText name)) =
      .ok [.print (.call (.name name) [])] := by
  have hq := isQuoted_of_rootLookup h
  have hdigit : startsWithDigit name = false := (Bool.or_eq_false_iff.mp hq).1
  have hstart : Expr.StartsOperand [.word name, .sign .openParen, .sign .closeParen] := by
    refine ⟨_, _, rfl, ?_, nofun⟩
    rintro ⟨⟩
    revert hq
    decide
  have hoperand := (Expr.readsAccessed_call (ofWord_of_not_isQuoted hq)).operand hstart
  exact Stmt.readAll_of_printed (.printed (.call (isName_of_isWord hne hw hdigit)))
    hoperand.negation.unconditional.expr (by decide) keep

theorem readAll_output_lookup {name : Text} {segments : List Text} (hne : name ≠ [])
    (hw : isWord name = true) (hs : ∀ w ∈ segments, w ≠ [] ∧ isWord w = true)
    (hr : isReadable segments = true) (unescaped keep : Bool) :
    Stmt.readAll Stmt.maxDepth keep
        (Source.output (guardedSegments (rootLookup name) segments) unescaped) =
      .ok [.print (printedExpr unescaped (guardedExpr name segments))] := by
  have hlevels := guardedLevels_le name segments
  have hprinted := printedLevels_le unescaped
  rw [output_eq]
  exact Stmt.readAll_of_printed (Fragment.isRead_lookup hne hw hs hr unescaped)
    (Fragment.readsExpr_lookup name segments unescaped) (by simp only [Stmt.maxDepth]; omega) keep

theorem readAll_lookup {name : Text} {segments : List Text} (hne : name ≠ [])
    (hw : isWord name = true) (hs : ∀ w ∈ segments, w ≠ [] ∧ isWord w = true)
    (hr : isReadable segments = true) (keep : Bool) :
    Stmt.readAll Stmt.maxDepth keep
        (Source.printed (guardedSegments (rootLookup name) segments)) =
      .ok [.print (printedExpr false (guardedExpr name segments))] :=
  readAll_output_lookup hne hw hs hr false keep

end Path

namespace Template

variable {path root : Text} {segments : List Text}

theorem compile_tag (hp : Path.isPath path = true)
    (hs : Text.splitOn '.' path = root :: segments) (helpers : HelperTable) (name : Text)
    (o : Options) :
    compile .stock helpers name (Path.tag path) o =
      ofScript helpers name (Source.printed (Path.guardedSegments (Path.rootLookup root) segments))
        o := by
  obtain ⟨rfl, hne, hw, hwords⟩ := Path.words_of_isPath hp hs
  exact compileWithin_of_ok (Path.ofTemplate_tag hne hw hwords o.strictSections)

/-- A path whose segments are readable renders what it finds in the data, whatever the data is. The
template of any other path is refused. -/
theorem renders_path (hp : Path.isPath path = true)
    (hs : Text.splitOn '.' path = root :: segments) (helpers extras : HelperTable)
    (hn : root ∉ (helpers.overlay extras).names) (name : Text) (o : Options) (data : Option Data)
    (hd : (dataOrEmpty data).HasDistinctNames) :
    if Path.isReadable segments then
      ∃ t, compile .stock helpers name (Path.tag path) o = .ok t ∧
        t.render data extras =
          .ok (Data.shown o.escape false ((dataOrEmpty data).lookup? root segments))
    else ∃ r, compile .stock helpers name (Path.tag path) o = .error (.rejected name r) := by
  obtain ⟨-, hne, hw, hwords⟩ := Path.words_of_isPath hp hs
  rw [compile_tag hp hs, ofScript, ofScriptWithin]
  by_cases hr : Path.isReadable segments = true
  · rw [if_pos hr, Path.readAll_lookup hne hw hwords hr]
    refine ⟨_, rfl, ?_⟩
    let hs : BoundHelpers := .new (.ofData (dataOrEmpty data)) helpers extras
    let env : Env := ⟨Context.ofData (dataOrEmpty data) hs, hs.call, o.escape, []⟩
    have hroot : Path.Finds env {} (dataOrEmpty data) root :=
      Path.finds_ofData hd rfl fun hm => absurd hm hn
    have hdata : Path.Finds env {} (dataOrEmpty data) Path.data :=
      Path.finds_ofData hd rfl fun _ => rfl
    have hout := Outline.outputs_lookup hroot hdata segments false
    rw [Stmt.Outputs] at hout
    rw [render]
    simp only [Stmt.run, env, hs] at hout ⊢
    rw [hout]
    rfl
  · rw [if_neg hr]
    obtain ⟨r, hreject⟩ := Path.readAll_lookup_error hne hw hwords (Bool.not_eq_true _ ▸ hr)
      Stmt.maxDepth o.keepTrailingNewline
    rw [hreject]
    exact ⟨r, rfl⟩

theorem renders_path_item :
    (∃ t, compile .stock {} "page".toList (Path.tag "a.0".toList) {} = .ok t ∧
      t.render (some (.object [("a".toList, .list [.text ['<']])])) {} = .ok "&lt;".toList) ∧
    ∃ r, compile .stock {} "page".toList (Path.tag "a.1b".toList) {} =
      .error (.rejected "page".toList r) := by
  have hd : (Data.object [("a".toList, .list [.text ['<']])]).HasDistinctNames := by
    simp [Data.HasDistinctNames]
  constructor
  · exact @renders_path "a.0".toList ['a'] [['0']] (by decide) rfl {} {} (by decide)
      "page".toList {} (some (.object _)) hd
  · exact @renders_path "a.1b".toList ['a'] ["1b".toList] (by decide) rfl {} {} (by decide)
      "page".toList {} (some (.object _)) hd

end Template

end Curly

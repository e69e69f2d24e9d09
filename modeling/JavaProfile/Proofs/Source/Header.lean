import JavaProfile.Proofs.Source.Clause

/-!
Reading a header gives back what was written, whatever follows it.
-/

namespace JavaProfile.Source

open Text

/-! ### Texts within a line -/

namespace Inline

variable {a b cs : List Char}

theorem nil : Inline [] :=
  ⟨by simp, rfl⟩

theorem endsComment_append (ha : endsComment a = false) (hb : endsComment b = false)
    (hslash : b.head? ≠ some '/') : endsComment (a ++ b) = false := by
  induction a with
  | nil => exact hb
  | cons c a ih =>
    have hcons {ds : List Char} : endsComment (c :: ds) =
        ("*/".toList.isPrefixOf (c :: ds) || endsComment ds) := rfl
    rw [hcons, Bool.or_eq_false_iff] at ha
    rw [List.cons_append, hcons, Bool.or_eq_false_iff]
    refine ⟨?_, ih ha.2⟩
    cases a with
    | cons d a => exact ha.1
    | nil =>
      cases b with
      | nil => exact ha.1
      | cons d b =>
        have hd : ('/' == d) = false := by
          rw [beq_eq_false_iff_ne]
          rintro rfl
          exact hslash rfl
        change ('*' == c && ('/' == d && _)) = false
        rw [hd, Bool.false_and, Bool.and_false]

theorem append (ha : Inline a) (hb : Inline b) (hslash : b.head? ≠ some '/') : Inline (a ++ b) := by
  refine ⟨fun c hc => ?_, endsComment_append ha.2 hb.2 hslash⟩
  rcases List.mem_append.mp hc with hc | hc
  · exact ha.1 c hc
  · exact hb.1 c hc

theorem of_chars (h : ∀ c ∈ cs, isLineBreak c = false ∧ c ≠ '/') : Inline cs := by
  refine ⟨fun c hc => (h c hc).1, ?_⟩
  cases hends : endsComment cs with
  | false => rfl
  | true =>
    obtain ⟨before, after, rfl⟩ := (occursIn_iff _ _).mp hends
    exact absurd rfl (h '/' (by simp)).2

theorem prepend (ha : ∀ c ∈ a, isLineBreak c = false ∧ c ≠ '*') (hb : Inline b) :
    Inline (a ++ b) := by
  induction a with
  | nil => exact hb
  | cons c a ih =>
    have hc := ha c List.mem_cons_self
    have hrest := ih fun d hd => ha d (List.mem_cons_of_mem _ hd)
    refine ⟨fun d hd => ?_, ?_⟩
    · rcases List.mem_cons.mp hd with rfl | hd
      · exact hc.1
      · exact hrest.1 d hd
    · have hstar : ('*' == c) = false := by
        rw [beq_eq_false_iff_ne]
        exact Ne.symm hc.2
      change (('*' == c && _) || endsComment (a ++ b)) = false
      rw [hstar, Bool.false_and, Bool.false_or]
      exact hrest.2

theorem prepend_segment {text : List Char} (h : ∀ c ∈ text, isSegmentChar c = true) (hb : Inline b) :
    Inline (text ++ b) :=
  prepend (fun c hc => ⟨isLineBreak_of_isSegmentChar (h c hc),
    ne_of_isSegmentChar (h c hc) (by decide)⟩) hb

theorem prepend_name (n : DottedName) (hb : Inline b) : Inline (n.text ++ b) :=
  prepend (n.forall_mem_text (fun _ h =>
    ⟨isLineBreak_of_isSegmentChar h, ne_of_isSegmentChar h (by decide)⟩) ⟨by decide, by decide⟩) hb

theorem cons {c : Char} (hc : isLineBreak c = false ∧ c ≠ '*') (hb : Inline b) : Inline (c :: b) :=
  prepend (a := [c]) (by simpa using hc) hb

end Inline

/-! ### Lines -/

theorem lines_break {line : List Char} (h : ∀ c ∈ line, isLineBreak c = false) (cs : List Char) :
    lines (line ++ '\n' :: cs) = line :: lines cs := by
  induction line with
  | nil => rfl
  | cons c line ih =>
    have hc := h c List.mem_cons_self
    have hopens (ds : List Char) : opensBreak c ds = false := by
      simp only [isLineBreak, Bool.or_eq_false_iff] at hc
      simp [opensBreak, hc]
    rw [List.cons_append, lines, hopens, hc, ih fun d hd => h d (List.mem_cons_of_mem _ hd)]
    rfl

/-- The first lines are read as they were written, and the next one too, whatever comes then. -/
theorem lines_joinWith {before : List (List Char)} {line : List Char} (hne : line ≠ [])
    (hbefore : ∀ l ∈ before, ∀ c ∈ l, isLineBreak c = false)
    (hline : ∀ c ∈ line, isLineBreak c = false) (further : List (List Char)) :
    ∃ more, lines (joinWith '\n' (before ++ line :: further)) = before ++ line :: more := by
  induction before with
  | nil =>
    rw [List.nil_append]
    cases further with
    | nil => exact ⟨[], lines_of_no_break hne hline⟩
    | cons l further => exact ⟨_, lines_break hline _⟩
  | cons l before ih =>
    obtain ⟨more, hmore⟩ := ih fun l hl => hbefore l (List.mem_cons_of_mem _ hl)
    refine ⟨more, ?_⟩
    rw [List.cons_append, joinWith_cons '\n' l (by simp), lines_break (hbefore l List.mem_cons_self),
      hmore]
    rfl

/-- A line that is no comment and has no blanks around it. -/
structure PlainLine (line : List Char) : Prop where
  inline : Inline line
  start : ∃ c cs, line = c :: cs ∧ isBlank c = false ∧ c ≠ '/'
  finish : ∃ c, [c] <:+ line ∧ isBlank c = false

theorem PlainLine.trim_eq {line : List Char} (h : PlainLine line) : trim line = line := by
  obtain ⟨c, cs, hstart, hc, -⟩ := h.start
  obtain ⟨d, ⟨ds, hfinish⟩, hd⟩ := h.finish
  have htrim : trimStart line = line := by
    rw [hstart, trimStart, List.dropWhile_cons_of_neg (by simp [hc])]
  rw [trim, htrim, ← hfinish, trimEnd, trimStart, List.reverse_append, List.reverse_singleton,
    List.singleton_append, List.dropWhile_cons_of_neg (by simp [hd])]
  simp

theorem PlainLine.readLines_cons {line : List Char} (h : PlainLine line) (header : Header)
    (rest : List (List Char)) :
    (∀ d, Statement.ofLine line = .declaration d →
        readLines false header (line :: rest) = header.declare d) ∧
      ((∀ d, Statement.ofLine line ≠ .declaration d) →
        readLines false header (line :: rest) =
          readLines false (header.add (Statement.ofLine line)) rest) := by
  obtain ⟨c, cs, hstart, -, hc⟩ := h.start
  have hslash (second : Char) : ['/', second].isPrefixOf line = false := by
    rw [hstart, List.isPrefixOf_cons_cons, Bool.and_eq_false_iff]
    left
    rw [beq_eq_false_iff_ne]
    exact Ne.symm hc
  have hopens : opensComment false line = false := hslash '*'
  have hcomment : isLineComment line = false := hslash '/'
  rw [readLines, h.trim_eq, h.inline.2, hopens, hcomment]
  constructor
  · intro d hd
    rw [hd]
    rfl
  · intro hnot
    cases hstatement : Statement.ofLine line with
    | declaration d => exact absurd hstatement (hnot d)
    | package | «import» | annotated | other => rfl

/-! ### Statements -/

theorem head_semicolon : [';'].head?.any isNameChar = false := by
  decide

theorem ofLine_packageLine (n : DottedName) :
    Statement.ofLine (Outline.packageLine n) = .package (some (String.ofList n.text)) := by
  have hkeyword {rest : List Char} (h : rest.head?.any isBlank = false) :
      packageName? ("package".toList ++ ' ' :: rest) = (dottedName? rest).bind fun p =>
        if isClosed p.2 then some (String.ofList p.1) else none := by
    simp only [packageName?, afterKeyword?_append "package".toList h, Option.bind_eq_bind,
      Option.bind_some]
  have hpackage : packageName? (Outline.packageLine n) = some (String.ofList n.text) := by
    refine (hkeyword (n.head_not_blank [';'])).trans ?_
    rw [dottedName?_text n head_semicolon, Option.bind_some]
    exact if_pos rfl
  have hline : Statement.ofLine (Outline.packageLine n) =
      .package (packageName? (Outline.packageLine n)) := if_pos rfl
  exact hline.trans (congrArg _ hpackage)

theorem importTarget?_text (i : Import) :
    importTarget? (i.target ++ [';']) = some (String.ofList i.target) := by
  rw [Import.target]
  cases i.wildcard with
  | false =>
    have hname := dottedName?_text i.name head_semicolon
    rw [if_neg Bool.false_ne_true, List.append_nil, importTarget?, hname]
    rfl
  | true =>
    -- The star is no character of a name, so the name that is read ends with the point before it.
    have hne : i.name.text ++ ['.'] ≠ [] := by simp
    have hchars : ∀ c ∈ i.name.text ++ ['.'], isNameChar c = true := by
      intro c hc
      rw [List.mem_append, List.mem_singleton] at hc
      rcases hc with hc | rfl
      · exact i.name.forall_mem_text isNameChar_of_isSegmentChar (by decide) c hc
      · decide
    have hstar : ['*', ';'].head?.any isNameChar = false := by decide
    have hname := dottedName?_of_chars hne hchars hstar
    have htarget : i.name.text ++ ".*".toList ++ [';'] = (i.name.text ++ ['.']) ++ ['*', ';'] := by
      simp
    have hlength : 2 ≤ (i.name.text ++ ['.']).length := by
      obtain ⟨c, cs, htext, -⟩ := i.name.text_eq_cons
      rw [htext]
      simp
    have hwild : (i.name.text ++ ['.']).getLast? = some '.' ∧
        (i.name.text ++ ['.']).length ≥ 2 ∧ isClosed [';'] = true :=
      ⟨by simp, hlength, rfl⟩
    rw [if_pos rfl, htarget, importTarget?, hname]
    change (if _ ∧ _ ∧ isClosed [';'] = true then _ else _) = _
    rw [if_pos hwild]
    simp

theorem ofLine_import (i : Import) :
    Statement.ofLine i.line = .import (some (String.ofList i.target)) := by
  have hblank : ∀ c ∈ i.target ++ [';'], isBlank c = false := by
    have hwild : ∀ c ∈ (if i.wildcard then ".*".toList else []), isBlank c = false := by
      cases i.wildcard <;> exact forall_mem_of_all (by decide)
    intro c hc
    rw [Import.target, List.mem_append, List.mem_append, List.mem_singleton] at hc
    rcases hc with (hc | hc) | rfl
    · exact i.name.not_blank c hc
    · exact hwild c hc
    · decide
  have htarget := importTarget?_text i
  have hkeyword {rest : List Char} (h : rest.head?.any isBlank = false) :
      importName? ("import".toList ++ ' ' :: rest) =
        (((afterKeyword? "static".toList rest).bind importTarget?).or (importTarget? rest)) := by
    simp only [importName?, afterKeyword?_append "import".toList h, Option.bind_eq_bind,
      Option.bind_some]
    cases (afterKeyword? "static".toList rest).bind importTarget? <;> rfl
  have hname : importName? i.line = some (String.ofList i.target) := by
    simp only [Import.line]
    cases i.isStatic with
    | false =>
      refine (hkeyword (head?_any_eq_false hblank)).trans ?_
      rw [afterKeyword?_of_no_blank hblank]
      exact htarget
    | true =>
      have hs : ("static".toList ++ ' ' :: (i.target ++ [';'])).head?.any isBlank = false :=
        (by decide : isBlank 's' = false)
      refine (hkeyword hs).trans ?_
      rw [afterKeyword?_append _ (head?_any_eq_false hblank), Option.bind_some, htarget]
      rfl
  have hline : Statement.ofLine i.line = .import (importName? i.line) :=
    (if_neg Bool.false_ne_true).trans (if_pos rfl)
  exact hline.trans (congrArg _ hname)

theorem ofLine_annotated (a : AnnotationUse) :
    Statement.ofLine a.line = .annotated (some (String.ofList a.name.simpleName)) := by
  have hrest : (a.argument.elim [] fun text => '(' :: (text ++ [')'])).head?.any isNameChar = false := by
    cases a.argument with
    | none => rfl
    | some text => exact (by decide : isNameChar '(' = false)
  have hname : annotationName? a.line = some (String.ofList a.name.simpleName) := by
    change (dottedName? (a.name.text ++ _)).bind _ = _
    rw [dottedName?_text a.name hrest]
    change some (String.ofList (afterLast '.' a.name.text)) = _
    rw [a.name.afterLast_text]
  have hline : Statement.ofLine a.line = .annotated (annotationName? a.line) :=
    ((if_neg Bool.false_ne_true).trans (if_neg Bool.false_ne_true)).trans (if_pos rfl)
  exact hline.trans (congrArg _ hname)

/-! ### Plain lines -/

theorem plainLine_package (n : DottedName) : PlainLine (Outline.packageLine n) where
  inline := .prepend (forall_mem_of_all (by decide)) (.cons (by decide) (.prepend_name n (.of_chars (forall_mem_of_all (by decide)))))
  start := ⟨'p', _, rfl, by decide, by decide⟩
  finish := ⟨';', (List.suffix_append n.text [';']).trans
    ((List.suffix_cons ' ' _).trans (List.suffix_append _ _)), by decide⟩

theorem plainLine_import (i : Import) : PlainLine i.line where
  inline := by
    have hend : Inline ((if i.wildcard then ".*".toList else []) ++ [';']) := by
      cases i.wildcard <;> exact .of_chars (forall_mem_of_all (by decide))
    have htarget : Inline (i.target ++ [';']) := by
      rw [Import.target, List.append_assoc]
      exact .prepend_name i.name hend
    have hstatic : ∀ c ∈ (if i.isStatic then "static".toList ++ [' '] else []),
        isLineBreak c = false ∧ c ≠ '*' := by
      cases i.isStatic <;> exact forall_mem_of_all (by decide)
    exact .prepend (forall_mem_of_all (by decide)) (.cons (by decide) (.prepend hstatic htarget))
  start := ⟨'i', _, rfl, by decide, by decide⟩
  finish := ⟨';', (List.suffix_append i.target [';']).trans ((List.suffix_append _ _).trans
    ((List.suffix_cons ' ' _).trans (List.suffix_append _ _))), by decide⟩

theorem plainLine_annotated (a : AnnotationUse) (h : ∀ text, a.argument = some text → Inline text) :
    PlainLine a.line where
  inline := by
    refine .cons (by decide) (.prepend_name a.name ?_)
    cases hargument : a.argument with
    | none => exact .nil
    | some text =>
      exact .cons (by decide) ((h text hargument).append (.of_chars (forall_mem_of_all (by decide))) (by decide))
  start := ⟨'@', _, rfl, by decide, by decide⟩
  finish := by
    cases hargument : a.argument with
    | some text =>
      refine ⟨')', ?_, by decide⟩
      rw [AnnotationUse.line, hargument]
      exact (List.suffix_append text [')']).trans ((List.suffix_cons '(' _).trans
        ((List.suffix_append a.name.text _).trans (List.suffix_cons '@' _)))
    | none =>
      refine ⟨a.name.text.getLast a.name.text_ne_nil, ?_, a.name.not_blank _ (List.getLast_mem _)⟩
      rw [AnnotationUse.line, hargument]
      change _ <:+ '@' :: (a.name.text ++ [])
      rw [List.append_nil]
      exact List.IsSuffix.trans ⟨_, List.dropLast_concat_getLast a.name.text_ne_nil⟩
        (List.suffix_cons '@' _)

namespace Outline

variable {o : Outline}

theorem inline_typeRef {t : TypeRef} (h : Inline t.arguments.text) : Inline t.text :=
  .prepend_name t.name h

theorem inline_typeList {ts : List TypeRef} (h : ∀ t ∈ ts, Inline t.arguments.text) :
    Inline (typeList (ts.map (·.text))) := by
  induction ts with
  | nil => exact .nil
  | cons t ts ih =>
    have ht := inline_typeRef (h t List.mem_cons_self)
    by_cases hts : ts = []
    · rw [hts]
      exact ht
    · rw [List.map_cons, typeList_cons _ (by simpa using hts)]
      exact ht.append (.cons (by decide) (.cons (by decide)
        (ih fun t ht => h t (List.mem_cons_of_mem _ ht)))) (by simp)

theorem inline_clauses (hsuperclass : ∀ t, o.shape.superclass = some t → Inline t.arguments.text)
    (hinterfaces : ∀ t ∈ o.interfaces, Inline t.arguments.text) : Inline o.clauses := by
  have hfirst : Inline (superclassClause (o.shape.superclass.map (·.text))) := by
    cases hsuper : o.shape.superclass with
    | none => exact .nil
    | some t => exact .prepend (forall_mem_of_all (by decide)) (inline_typeRef (hsuperclass t hsuper))
  have hlast : Inline (interfaceClause o.shape.listWord (o.interfaces.map (·.text))) := by
    rw [interfaceClause]
    split
    · exact .nil
    · exact .cons (by decide) (.prepend_segment o.listWord_chars (.cons (by decide)
        (inline_typeList hinterfaces)))
  refine (hfirst.append hlast ?_).append (.of_chars (forall_mem_of_all (by decide))) (by decide)
  rw [interfaceClause]
  split <;> simp

theorem plainLine_declaration (h : o.Legible) : PlainLine o.declarationLine where
  inline := by
    have hparameters : Inline o.parameters.text := h _ (by simp [texts])
    have hclauses : Inline o.clauses := by
      refine inline_clauses (fun t ht => h _ ?_) (fun t ht => h _ ?_)
      · rw [texts, ht]
        simp
      · have hmem := List.mem_map_of_mem (f := (·.arguments.text)) ht
        simp only [texts, List.mem_append, List.mem_cons, List.map_append]
        exact .inr (.inr (.inr hmem))
    have hslash : o.clauses.head? ≠ some '/' := by
      obtain ⟨cs, hcs⟩ := o.clauses_eq_cons
      rw [hcs]
      simp
    have hmodifiers : ∀ c ∈ o.modifiers, isLineBreak c = false ∧ c ≠ '*' := by
      rw [modifiers]
      cases o.isPublic <;> cases o.shape.isAbstract <;> exact forall_mem_of_all (by decide)
    have hkeyword : ∀ c ∈ o.shape.kind.keyword, isSegmentChar c = true := by
      cases o.shape.kind <;> exact forall_mem_of_all (by decide)
    exact .prepend hmodifiers (.prepend_segment hkeyword (.cons (by decide)
      (.prepend_segment (fun _ hc => o.name.isSegmentChar_of_mem hc)
        (hparameters.append hclauses hslash))))
  start := by
    rw [declarationLine, modifiers]
    cases o.isPublic <;> cases o.shape.isAbstract <;> cases o.shape.kind <;>
      exact ⟨_, _, rfl, by decide, by decide⟩
  finish := by
    have hbrace : ['\x7b'] <:+ o.clauses :=
      List.IsSuffix.trans ⟨[' '], rfl⟩ (List.suffix_append _ _)
    exact ⟨'\x7b', hbrace.trans ((List.suffix_append _ _).trans ((List.suffix_append _ _).trans
      ((List.suffix_cons ' ' _).trans ((List.suffix_append _ _).trans (List.suffix_append _ _))))),
      by decide⟩

end Outline

/-! ### Headers -/

/-- Statements of one sort are read one after the other. -/
theorem readLines_statements {β : Type} {line : β → List Char} {statement : β → Statement}
    {items : List β} (hplain : ∀ b ∈ items, PlainLine (line b))
    (hread : ∀ b, Statement.ofLine (line b) = statement b)
    (hnot : ∀ b d, statement b ≠ .declaration d) (header : Header) (rest : List (List Char)) :
    readLines false header (items.map line ++ rest) =
      readLines false (items.foldl (fun h b => h.add (statement b)) header) rest := by
  induction items generalizing header with
  | nil => rfl
  | cons b items ih =>
    have hstatement : ∀ d, Statement.ofLine (line b) ≠ .declaration d := by
      rw [hread]
      exact hnot b
    rw [List.map_cons, List.cons_append,
      ((hplain b List.mem_cons_self).readLines_cons header _).2 hstatement, hread,
      ih fun b hb => hplain b (List.mem_cons_of_mem _ hb)]
    rfl

theorem foldl_add_imports (imports : List Import) (header : Header) :
    imports.foldl (fun h i => h.add (.import (some (String.ofList i.target)))) header =
      { header with imports := header.imports ++ imports.map fun i => String.ofList i.target } := by
  induction imports generalizing header with
  | nil => simp
  | cons i imports ih =>
    rw [List.foldl_cons, ih]
    simp [Header.add]

theorem foldl_add_annotations (annotations : List AnnotationUse) (header : Header) :
    annotations.foldl (fun h a => h.add (.annotated (some (String.ofList a.name.simpleName)))) header =
      { header with
        annotations := header.annotations ++
          annotations.map fun a => String.ofList a.name.simpleName } := by
  induction annotations generalizing header with
  | nil => simp
  | cons a annotations ih =>
    rw [List.foldl_cons, ih]
    simp [Header.add]

namespace Outline

variable (o : Outline)

/-- The header that is read. -/
def header : Header where
  package := (o.package.map fun n => String.ofList n.text).getD ""
  className := String.ofList o.name.text
  annotations := o.annotations.map fun a => String.ofList a.name.simpleName
  imports := o.imports.map fun i => String.ofList i.target
  superclass := o.superclassName
  interfaces := o.interfaces.map fun t => String.ofList t.name.text
  isAbstract := o.shape.isAbstract
  isInterface := o.shape.kind = .interfaceType

variable {o}

theorem readLines_write (h : o.Legible) (more : List (List Char)) :
    readLines false {} (o.statementLines ++ o.declarationLine :: more) = o.header := by
  have hannotated : ∀ a ∈ o.annotations, PlainLine a.line := by
    intro a ha
    refine plainLine_annotated a fun text htext => h _ ?_
    rw [texts, List.mem_append, List.mem_filterMap]
    exact .inl ⟨a, ha, htext⟩
  have hpackage : o.package.toList.foldl
      (fun h n => h.add (.package (some (String.ofList n.text)))) ({} : Header) =
        { package := (o.package.map fun n => String.ofList n.text).getD "" } := by
    cases o.package <;> rfl
  rw [statementLines, List.append_assoc, List.append_assoc,
    readLines_statements (fun n _ => plainLine_package n) ofLine_packageLine (by simp), hpackage,
    readLines_statements (fun i _ => plainLine_import i) ofLine_import (by simp), foldl_add_imports,
    readLines_statements hannotated ofLine_annotated (by simp), foldl_add_annotations,
    ((plainLine_declaration h).readLines_cons _ more).1 _ o.ofLine_declarationLine, Header.declare,
    superclass_declaration, interfaces_declaration, isAbstract_declaration]
  rfl

theorem readHeader_write (h : o.Legible) (further : List (List Char)) :
    readHeader (o.write further) = o.header := by
  have hbefore : ∀ l ∈ o.statementLines, ∀ c ∈ l, isLineBreak c = false := by
    intro l hl
    rw [statementLines, List.mem_append, List.mem_append, List.mem_map, List.mem_map,
      List.mem_map] at hl
    rcases hl with (⟨n, -, rfl⟩ | ⟨i, -, rfl⟩) | ⟨a, ha, rfl⟩
    · exact (plainLine_package n).inline.1
    · exact (plainLine_import i).inline.1
    · refine (plainLine_annotated a fun text htext => h _ ?_).inline.1
      rw [texts, List.mem_append, List.mem_filterMap]
      exact .inl ⟨a, ha, htext⟩
  have hdeclaration := plainLine_declaration h
  have hne : o.declarationLine ≠ [] := by
    obtain ⟨c, cs, hstart, -⟩ := hdeclaration.start
    rw [hstart]
    exact List.cons_ne_nil c cs
  obtain ⟨more, hmore⟩ := lines_joinWith hne hbefore hdeclaration.inline.1 further
  rw [readHeader, write, String.toList_ofList, hmore]
  exact readLines_write h more

/-- The file is read as it was meant, whatever lines follow the header. -/
theorem ofText_write (h : o.Legible) (further : List (List Char)) (path : String) :
    SourceFile.ofText (o.write further) path false = o.sourceFile path := by
  have hname : o.header.className ≠ "" := by
    intro hempty
    have htext := congrArg String.toList hempty
    rw [header, String.toList_ofList] at htext
    exact o.name.text_ne_nil htext
  rw [SourceFile.ofText, readHeader_write h further]
  simp only [if_neg hname]
  rfl

end Outline

/-! ### Two headers -/

theorem balanced_bound : Balanced "T extends A<T>, U".toList := by
  have hsplit : "T extends A<T>, U".toList =
      "T extends A".toList ++ ('<' :: "T".toList ++ '>' :: ", U".toList) := by
    decide
  rw [hsplit]
  exact .append (.of_plain (forall_mem_of_all (by decide))) (.group (.of_plain (forall_mem_of_all (by decide))) (.of_plain (forall_mem_of_all (by decide))))

def boxArguments : TypeArguments :=
  ⟨"<T extends A<T>, U>".toList, .inr ⟨_, balanced_bound, rfl⟩⟩

def shopName : DottedName where
  segments := [⟨"com".toList, by decide, by decide, by decide⟩,
    ⟨"Shop".toList, by decide, by decide, by decide⟩]
  nonempty := List.cons_ne_nil _ _

/-- A generic class with all that can stand before it. -/
def boxOutline : Outline where
  package := some shopName
  imports := [⟨true, shopName, true⟩, ⟨false, shopName, false⟩]
  annotations := [⟨shopName, some "a > b; class C".toList⟩, ⟨shopName, none⟩]
  isPublic := true
  shape := .classShape true (some ⟨shopName, boxArguments⟩)
  name := ⟨"Box".toList, by decide, by decide, by decide⟩
  parameters := boxArguments
  interfaces := [⟨shopName, boxArguments⟩, ⟨shopName, ⟨[], .inl rfl⟩⟩]

theorem ofText_write_box :
    boxOutline.write ["\x7d".toList] =
        "package com.Shop;\nimport static com.Shop.*;\nimport com.Shop;\n" ++
        "@com.Shop(a > b; class C)\n@com.Shop\n" ++
        "public abstract class Box<T extends A<T>, U> extends com.Shop<T extends A<T>, U> " ++
        "implements com.Shop<T extends A<T>, U>, com.Shop \x7b\n\x7d" ∧
      boxOutline.Legible ∧
      SourceFile.ofText (boxOutline.write ["\x7d".toList]) "Box.java" false =
        boxOutline.sourceFile "Box.java" := by
  have hlegible : boxOutline.Legible := by decide +kernel
  exact ⟨by decide +kernel, hlegible, Outline.ofText_write hlegible _ _⟩

/-- A class with a path in its annotation. -/
def starOutline : Outline where
  package := none
  imports := []
  annotations := [⟨shopName, some "\"/a/*/b\"".toList⟩]
  isPublic := false
  shape := .classShape false none
  name := ⟨"Box".toList, by decide, by decide, by decide⟩
  parameters := ⟨[], .inl rfl⟩
  interfaces := []

/-- A line is taken for the end of a comment although none is open. -/
theorem ofText_write_star :
    starOutline.write [] = "@com.Shop(\"/a/*/b\")\nclass Box \x7b" ∧
      (SourceFile.ofText (starOutline.write []) "Box.java" false).annotations = [] ∧
      (starOutline.sourceFile "Box.java").annotations = ["Shop"] := by
  decide +kernel

end JavaProfile.Source

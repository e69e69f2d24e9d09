import JavaProfile.Proofs.Source.Brace
import JavaProfile.Proofs.Source.Header
import JavaProfile.Proofs.Text.Split

/-!
The body of a type, from its brace on. It makes no difference to what is read of a file, as long as
nothing in the rest of its first line can be taken for a clause of the type.
-/

namespace JavaProfile.Source

open Text

variable {a b b' head : List Char} {d : Declaration} {inComment : Bool}

/-! ### Blanks and comments around a brace -/

theorem trimStart_brace (a b : List Char) :
    trimStart (a ++ '\x7b' :: b) = trimStart a ++ '\x7b' :: b := by
  induction a with
  | nil => rfl
  | cons c a ih =>
    rw [trimStart, trimStart, List.cons_append, List.dropWhile_cons, List.dropWhile_cons]
    split
    · exact ih
    · rfl

theorem trim_brace (a b : List Char) :
    trim (a ++ '\x7b' :: b) = trimStart a ++ '\x7b' :: trimEnd b := by
  rw [trim, trimStart_brace, trimEnd, List.reverse_append, List.reverse_cons, List.append_assoc,
    List.singleton_append, trimStart_brace]
  simp [trimEnd]

theorem isPrefixOf_brace {word : List Char} (hword : '\x7b' ∉ word) (a b b' : List Char) :
    word.isPrefixOf (a ++ '\x7b' :: b) = word.isPrefixOf (a ++ '\x7b' :: b') := by
  have hmem : '\x7b' ∈ a ++ ['\x7b'] := by simp
  have hsame := (isPrefixOf_append_of_mem (b := b) hmem hword).trans
    (isPrefixOf_append_of_mem (b := b') hmem hword).symm
  simpa using hsame

theorem endsComment_of_append (h : endsComment (a ++ b) = false) :
    endsComment a = false ∧ endsComment b = false := by
  rw [endsComment, Bool.eq_false_iff, Ne, occursIn_iff] at h
  constructor
  all_goals
    rw [endsComment, Bool.eq_false_iff, Ne, occursIn_iff]
    rintro ⟨front, behind, rfl⟩
  · exact h ⟨front, behind ++ b, by simp⟩
  · exact h ⟨a ++ front, behind, by simp⟩

theorem endsComment_brace (h : endsComment (a ++ '\x7b' :: b) = false)
    (hbody : endsComment b' = false) : endsComment (a ++ '\x7b' :: trimEnd b') = false := by
  obtain ⟨blanks, hblanks⟩ : trimEnd b' <+: b' := by
    rw [← List.reverse_suffix, trimEnd, List.reverse_reverse]
    exact List.dropWhile_suffix _
  rw [← hblanks] at hbody
  have hbrace : endsComment ('\x7b' :: trimEnd b') = false := (endsComment_of_append hbody).1
  exact Inline.endsComment_append (endsComment_of_append h).1 hbrace (by simp)

/-! ### The line of a type -/

/-- A line that is no comment declares a type. -/
structure Declares (inComment : Bool) (raw : List Char) (d : Declaration) : Prop where
  unended : endsComment (trim raw) = false
  unopened : opensComment inComment (trim raw) = false
  uncommented : isLineComment (trim raw) = false
  declared : Statement.ofLine (trim raw) = .declaration d

theorem ofLine_eq_declaration {line : List Char} : Statement.ofLine line = .declaration d ↔
    "package ".toList.isPrefixOf line = false ∧ "import ".toList.isPrefixOf line = false ∧
      "@".toList.isPrefixOf line = false ∧ findDeclaration? false line = some d := by
  rw [Statement.ofLine]
  cases "package ".toList.isPrefixOf line with
  | true => simp
  | false =>
    cases "import ".toList.isPrefixOf line with
    | true => simp
    | false =>
      cases "@".toList.isPrefixOf line with
      | true => simp
      | false => cases findDeclaration? false line <;> simp

theorem Declares.body (h : Declares inComment (a ++ '\x7b' :: b) d)
    (hheader : d.header = head ++ '\x7b' :: trimEnd b) (hbody : endsComment b' = false) :
    Declares inComment (a ++ '\x7b' :: b') { d with header := head ++ '\x7b' :: trimEnd b' } := by
  obtain ⟨hends, hopens, hcomment, hdeclared⟩ := h
  rw [trim_brace] at hends hopens hcomment hdeclared
  obtain ⟨hpackage, himport, hannotated, hfound⟩ := ofLine_eq_declaration.mp hdeclared
  have hsame {word : List Char} (hword : '\x7b' ∉ word) :=
    isPrefixOf_brace hword (trimStart a) (trimEnd b') (trimEnd b)
  constructor
  · rw [trim_brace]
    exact endsComment_brace hends hbody
  · rw [trim_brace, opensComment, hsame (by decide)]
    exact hopens
  · rw [trim_brace, isLineComment, hsame (by decide)]
    exact hcomment
  · rw [trim_brace, ofLine_eq_declaration, hsame (by decide), hsame (by decide),
      hsame (by decide)]
    exact ⟨hpackage, himport, hannotated, findDeclaration?_body _ hfound hheader _⟩

theorem Declares.readLines_cons {raw : List Char} (h : Declares inComment raw d) (header : Header)
    (more : List (List Char)) : readLines inComment header (raw :: more) = header.declare d := by
  rw [readLines, h.unended, h.unopened, h.uncommented, h.declared]
  rfl

/-- The declaration of the first type, with the lines after its own. -/
def firstType? (inComment : Bool) : List (List Char) → Option (Declaration × List (List Char))
  | [] => none
  | raw :: rest =>
    let line := trim raw
    if endsComment line then firstType? false rest
    else if opensComment inComment line then firstType? true rest
    else if isLineComment line then firstType? false rest
    else
      match Statement.ofLine line with
      | .declaration d => some (d, rest)
      | _ => firstType? false rest

theorem firstType?_singleton {raw : List Char} {rest : List (List Char)}
    (h : firstType? inComment [raw] = some (d, rest)) : Declares inComment raw d := by
  rw [firstType?] at h
  split at h
  · cases h
  · next hends =>
    split at h
    · cases h
    · next hopens =>
      split at h
      · cases h
      · next hcomment =>
        split at h
        · next d' hdeclared =>
          cases h
          exact ⟨by simpa using hends, by simpa using hopens, by simpa using hcomment, hdeclared⟩
        · cases h

/-- Where the last line is the first to declare a type, any other line that does so in its place is
read in the same way. -/
theorem readLines_last {before : List (List Char)} {raw : List Char} (header : Header)
    (h : firstType? inComment (before ++ [raw]) = some (d, [])) :
    ∃ (inComment' : Bool) (header' : Header), Declares inComment' raw d ∧ ∀ raw' d' more,
      Declares inComment' raw' d' →
        readLines inComment header (before ++ raw' :: more) = header'.declare d' := by
  -- Both readers pass over the same lines until the last one.
  induction before generalizing inComment header with
  | nil =>
    exact ⟨inComment, header, firstType?_singleton h,
      fun raw' d' more h' => h'.readLines_cons header more⟩
  | cons line before ih =>
    rw [List.cons_append, firstType?] at h
    simp only [List.cons_append, readLines]
    split at h
    · next hends =>
      simp only [hends, if_true]
      exact ih header h
    · next hends =>
      simp only [hends, Bool.false_eq_true, if_false]
      split at h
      · next hopens =>
        simp only [hopens, if_true]
        exact ih header h
      · next hopens =>
        simp only [hopens, Bool.false_eq_true, if_false]
        split at h
        · next hcomment =>
          simp only [hcomment, if_true]
          exact ih header h
        · next hcomment =>
          simp only [hcomment, Bool.false_eq_true, if_false]
          split at h
          · obtain ⟨-, hrest⟩ := Prod.mk.inj (Option.some.inj h)
            exact absurd hrest (by simp)
          · next hother =>
            cases hstatement : Statement.ofLine (trim line) with
            | declaration d' => exact absurd hstatement (hother d')
            | package | «import» | annotated | other => exact ih _ h

/-! ### Lines of a text -/

/-- Nothing, or a break and more lines. -/
def EndsLine (tail : List Char) : Prop :=
  ∀ c ∈ tail.head?, isLineBreak c = true

instance (tail : List Char) : Decidable (EndsLine tail) :=
  decidable_of_iff (tail.head?.all isLineBreak = true) (Option.all_eq_true _ _)

theorem opensBreak_of_not_break {c : Char} (hc : isLineBreak c = false) (cs : List Char) :
    opensBreak c cs = false := by
  simp only [isLineBreak, Bool.or_eq_false_iff] at hc
  simp [opensBreak, hc]

theorem lines_of_break {c : Char} (hc : isLineBreak c = true) (cs : List Char) :
    ∃ more, lines (c :: cs) = [] :: more := by
  rw [lines]
  split
  · next hopens =>
    obtain ⟨-, hfeed⟩ := opensBreak_iff.mp hopens
    obtain ⟨rest, rfl⟩ := List.head?_eq_some_iff.mp hfeed
    exact ⟨_, rfl⟩
  · exact ⟨_, rfl⟩

theorem lines_append {line tail : List Char} (hne : line ≠ [])
    (hline : ∀ c ∈ line, isLineBreak c = false) (htail : EndsLine tail) :
    ∃ more, lines (line ++ tail) = line :: more ∧ (tail = [] → more = []) := by
  cases tail with
  | nil => exact ⟨[], by rw [List.append_nil, lines_of_no_break hne hline], fun _ => rfl⟩
  | cons t tail =>
    obtain ⟨more, hmore⟩ := lines_of_break (htail t rfl) tail
    refine ⟨more, ?_, nofun⟩
    clear hne
    induction line with
    | nil => exact hmore
    | cons c line ih =>
      have hc := hline c List.mem_cons_self
      rw [List.cons_append, lines, opensBreak_of_not_break hc, hc,
        ih fun d hd => hline d (List.mem_cons_of_mem _ hd)]
      rfl

theorem lines_brace (front : List Char) : ∃ before last, ∀ line tail : List Char,
    (∀ c ∈ line, isLineBreak c = false) → EndsLine tail →
      ∃ more, lines (front ++ ('\x7b' :: line ++ tail)) = before ++ (last ++ '\x7b' :: line) :: more ∧
        (tail = [] → more = []) := by
  -- The lines before the one with the brace are found without a look at what follows it.
  induction front with
  | nil =>
    refine ⟨[], [], fun line tail hline htail => ?_⟩
    apply lines_append (List.cons_ne_nil _ _) ?_ htail
    intro c hc
    rcases List.mem_cons.mp hc with rfl | hc
    · decide
    · exact hline c hc
  | cons c front ih =>
    obtain ⟨before, last, ih⟩ := ih
    have hopens (line tail : List Char) : opensBreak c (front ++ ('\x7b' :: line ++ tail)) =
        opensBreak c (front ++ ['\x7b']) := by
      cases front <;> rfl
    by_cases hopen : opensBreak c (front ++ ['\x7b']) = true
    · refine ⟨before, last, fun line tail hline htail => ?_⟩
      rw [List.cons_append, lines, hopens, if_pos hopen]
      exact ih line tail hline htail
    · by_cases hbreak : isLineBreak c = true
      · refine ⟨[] :: before, last, fun line tail hline htail => ?_⟩
        obtain ⟨more, hmore, hnone⟩ := ih line tail hline htail
        rw [List.cons_append, lines, hopens, if_neg hopen, if_pos hbreak, hmore]
        exact ⟨more, rfl, hnone⟩
      · cases before with
        | nil =>
          refine ⟨[], c :: last, fun line tail hline htail => ?_⟩
          obtain ⟨more, hmore, hnone⟩ := ih line tail hline htail
          rw [List.cons_append, lines, hopens, if_neg hopen, if_neg hbreak, hmore]
          exact ⟨more, rfl, hnone⟩
        | cons first before =>
          refine ⟨(c :: first) :: before, last, fun line tail hline htail => ?_⟩
          obtain ⟨more, hmore, hnone⟩ := ih line tail hline htail
          rw [List.cons_append, lines, hopens, if_neg hopen, if_neg hbreak, hmore]
          exact ⟨more, rfl, hnone⟩

/-! ### Files -/

/-- A text up to and with a brace, the rest of its line, and further lines. -/
def bodyText (front body tail : List Char) : String :=
  String.ofList (front ++ ('\x7b' :: body ++ tail))

/-- The body of a type may be replaced by any other one, with any further lines, if neither can be
taken for a part of the header. -/
theorem ofText_body {front body body' tail tail' : List Char}
    (hbody : ∀ c ∈ body, isLineBreak c = false) (hbody' : ∀ c ∈ body', isLineBreak c = false)
    (hstar' : endsComment body' = false) (htail : EndsLine tail) (htail' : EndsLine tail')
    (hfirst : firstType? false (lines (front ++ '\x7b' :: body)) = some (d, []))
    (hheader : d.header = head ++ '\x7b' :: trimEnd body)
    (hdetached : Detached d.kind head (trimEnd body))
    (hdetached' : Detached d.kind head (trimEnd body')) (path : String) (isTest : Bool) :
    SourceFile.ofText (bodyText front body tail) path isTest =
      SourceFile.ofText (bodyText front body' tail') path isTest := by
  obtain ⟨before, last, hlines⟩ := lines_brace front
  obtain ⟨rest, hrest, hnone⟩ := hlines body [] hbody nofun
  obtain ⟨more, hmore, -⟩ := hlines body tail hbody htail
  obtain ⟨more', hmore', -⟩ := hlines body' tail' hbody' htail'
  rw [List.append_nil, hnone rfl] at hrest
  rw [hrest] at hfirst
  obtain ⟨inComment, header, hdeclares, hread⟩ := readLines_last {} hfirst
  have hdeclares' := hdeclares.body hheader hstar'
  have hsame := declare_body _ hheader hdetached header
  have hsame' := declare_body (d := { d with header := head ++ '\x7b' :: trimEnd body' }) _ rfl
    hdetached' header
  have hheaders : readHeader (bodyText front body tail) = readHeader (bodyText front body' tail') := by
    rw [readHeader, readHeader, bodyText, bodyText, String.toList_ofList, String.toList_ofList,
      hmore, hmore', hread _ _ more hdeclares, hread _ _ more' hdeclares']
    exact hsame.trans hsame'.symm
  rw [SourceFile.ofText, hheaders, SourceFile.ofText]

def boxFront : List Char :=
  "package a;\npublic class Box<T extends A<T>> extends Base<T> implements Shape ".toList

def boxHead : List Char :=
  "<T extends A<T>> extends Base<T> implements Shape ".toList

/-- A class within another one has clauses of its own. -/
def nestedBody : List Char :=
  " class B<U> extends C<U> implements D<E>> \x7b ".toList

theorem ofText_body_box :
    SourceFile.ofText (bodyText boxFront " int x;".toList "\n\x7d".toList) "Box.java" false =
      SourceFile.ofText (bodyText boxFront nestedBody "\r\nclass E \x7b\x7d".toList) "Box.java"
        false := by
  have hfirst : firstType? false (lines (boxFront ++ '\x7b' :: " int x;".toList)) =
      some (⟨"public ".toList, .classType, "Box".toList, boxHead ++ '\x7b' :: " int x;".toList⟩,
        []) := by
    decide +kernel
  have hheader : boxHead ++ '\x7b' :: " int x;".toList =
      boxHead ++ '\x7b' :: trimEnd " int x;".toList := by
    decide
  exact ofText_body (forall_mem_of_all (by decide)) (forall_mem_of_all (by decide)) (by decide)
    (by decide) (by decide) hfirst hheader (by decide +kernel) (by decide +kernel) _ _

/-- A class without a superclass is given that of a class in the rest of its line. -/
theorem ofText_body_nested :
    firstType? false (lines ("class A ".toList ++ '\x7b' :: nestedBody)) =
        some (⟨[], .classType, "A".toList, ' ' :: '\x7b' :: trimEnd nestedBody⟩, []) ∧
      (SourceFile.ofText (bodyText "class A ".toList nestedBody []) "A.java" false).superclass = "C" ∧
      (SourceFile.ofText (bodyText "class A ".toList [] []) "A.java" false).superclass = "" := by
  decide +kernel

end JavaProfile.Source

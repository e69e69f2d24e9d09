import JavaProfile.Proofs.Source.Header
import JavaProfile.Proofs.Source.Statements

/-!
Statements that reading drops: what stands on one line with the end of a comment, and what follows an
annotation on its line. Main statements: the file is read as if they were not dropped exactly if it
says the same without them.
-/

namespace JavaProfile.Source

open Text

/-! ### Spare statements -/

/-- Whether a file says the same without a statement. A package may be named again, imports and
annotations are all listed, and for a type reading on has to find the same type and nothing else. -/
def Spare (path : String) (before : List Statement) (s : Statement) (after : List Statement) : Prop :=
  match s with
  | .package (some name) => name = packageOf before ∨ after.filterMap Statement.package? ≠ []
  | .import (some _) => False
  | .annotated (some _) => False
  | .declaration d =>
    packageOf (before ++ after) = packageOf before ∧ after.filterMap Statement.import? = [] ∧
      after.filterMap Statement.annotation? = [] ∧
      (typeOf after).named path = (typeOf [.declaration d]).named path
  | _ => True

namespace Header

theorem named_ofStatements_iff (path : String) (S S' : List Statement) :
    (ofStatements S).named path = (ofStatements S').named path ↔
      packageOf S = packageOf S' ∧ S.filterMap Statement.import? = S'.filterMap Statement.import? ∧
        S.filterMap Statement.annotation? = S'.filterMap Statement.annotation? ∧
        (typeOf S).named path = (typeOf S').named path := by
  rw [named_eq_iff, package_ofStatements, package_ofStatements, imports_ofStatements,
    imports_ofStatements, annotations_ofStatements, annotations_ofStatements,
    typeOnly_ofStatements, typeOnly_ofStatements]

theorem typeOf_append_of_none {before : List Statement} (h : ∀ s ∈ before, s.type? = none)
    (after : List Statement) : typeOf (before ++ after) = typeOf after := by
  have hnone : before.filterMap Statement.type? = [] := List.filterMap_eq_nil_iff.mpr h
  rw [typeOf, List.filterMap_append, hnone, List.nil_append, typeOf]

theorem packageOf_insert (before : List Statement) (s : Statement) (after : List Statement) :
    packageOf (before ++ s :: after) =
      ((after.filterMap Statement.package?).getLast?).getD (s.package?.getD (packageOf before)) := by
  have hsplit : before ++ s :: after = (before ++ [s]) ++ after := by simp
  rw [hsplit, packageOf_append, packageOf_append, filterMap_singleton]
  cases s.package? <;> rfl

theorem packageOf_insert_iff (before : List Statement) (s : Statement) (after : List Statement) :
    packageOf (before ++ after) = packageOf (before ++ s :: after) ↔
      ∀ name ∈ s.package?, name = packageOf before ∨ after.filterMap Statement.package? ≠ [] := by
  rw [packageOf_append, packageOf_insert]
  by_cases hlater : after.filterMap Statement.package? = []
  · rw [hlater]
    cases s.package? <;> simp [eq_comm]
  · obtain ⟨last, hlast⟩ := Option.ne_none_iff_exists'.mp (mt List.getLast?_eq_none_iff.mp hlater)
    rw [hlast]
    simp [hlater]

theorem filterMap_insert_iff {α : Type} (f : Statement → Option α) (before : List Statement)
    (s : Statement) (after : List Statement) :
    (before ++ after).filterMap f = (before ++ s :: after).filterMap f ↔ f s = none := by
  rw [List.filterMap_append, List.filterMap_append, List.append_cancel_left_eq]
  cases hs : f s with
  | none => simp [List.filterMap_cons_none hs]
  | some a =>
    rw [List.filterMap_cons_some hs]
    constructor
    · exact fun h => absurd h (List.cons_ne_self a _).symm
    · exact fun h => absurd h (Option.some_ne_none a)

theorem named_insert_iff (path : String) {before : List Statement}
    (hbefore : ∀ s ∈ before, s.type? = none) {s : Statement} (hs : s.type? = none)
    (after : List Statement) :
    (ofStatements (before ++ after)).named path =
        (ofStatements (before ++ s.followedBy after)).named path ↔
      (∀ name ∈ s.package?, name = packageOf before ∨ after.filterMap Statement.package? ≠ []) ∧
        s.import? = none ∧ s.annotation? = none := by
  have htype : typeOf (s :: after) = typeOf after := by
    rw [typeOf, List.filterMap_cons_none hs, typeOf]
  rw [Statement.followedBy_of_none hs, named_ofStatements_iff, typeOf_append_of_none hbefore,
    typeOf_append_of_none hbefore, htype, packageOf_insert_iff, filterMap_insert_iff,
    filterMap_insert_iff]
  simp

theorem named_declaration_iff (path : String) {before : List Statement}
    (hbefore : ∀ s ∈ before, s.type? = none) (d : Declaration) (after : List Statement) :
    (ofStatements (before ++ after)).named path =
        (ofStatements (before ++ [.declaration d])).named path ↔
      packageOf (before ++ after) = packageOf before ∧ after.filterMap Statement.import? = [] ∧
        after.filterMap Statement.annotation? = [] ∧
        (typeOf after).named path = (typeOf [.declaration d]).named path := by
  have hnone (f : Statement → Option String) (hd : f (.declaration d) = none) :
      (before ++ after).filterMap f = (before ++ [Statement.declaration d]).filterMap f ↔
        after.filterMap f = [] := by
    rw [List.filterMap_append, List.filterMap_append, List.append_cancel_left_eq,
      filterMap_singleton, hd, Option.toList_none]
  rw [named_ofStatements_iff, typeOf_append_of_none hbefore, typeOf_append_of_none hbefore,
    hnone _ rfl, hnone _ rfl, packageOf_insert]
  rfl

theorem named_followedBy_iff (path : String) {before : List Statement}
    (hbefore : ∀ s ∈ before, s.type? = none) (s : Statement) (after : List Statement) :
    (ofStatements (before ++ after)).named path =
        (ofStatements (before ++ s.followedBy after)).named path ↔
      Spare path before s after := by
  cases s with
  | declaration d => exact named_declaration_iff path hbefore d after
  | package name =>
    rw [named_insert_iff path hbefore rfl]
    cases name <;> simp [Spare, Statement.package?, Statement.import?, Statement.annotation?]
  | «import» name =>
    rw [named_insert_iff path hbefore rfl]
    cases name <;> simp [Spare, Statement.package?, Statement.import?, Statement.annotation?]
  | annotated name =>
    rw [named_insert_iff path hbefore rfl]
    cases name <;> simp [Spare, Statement.package?, Statement.import?, Statement.annotation?]
  | other =>
    rw [named_insert_iff path hbefore rfl]
    simp [Spare, Statement.package?, Statement.import?, Statement.annotation?]

end Header

theorem ofText_followedBy_iff {text text' path : String} {isTest : Bool} {before after : List Statement}
    (hbefore : ∀ s ∈ before, s.type? = none) {s : Statement}
    (htext : Position.code.statements (lines text.toList) = before ++ s.followedBy after)
    (htext' : Position.code.statements (lines text'.toList) = before ++ after) :
    SourceFile.ofText text' path isTest = SourceFile.ofText text path isTest ↔
      Spare path before s after := by
  rw [ofText_eq_iff, readHeader_eq, readHeader_eq, htext, htext']
  exact Header.named_followedBy_iff path hbefore s after

/-! ### Comments behind statements -/

/-- A comment behind what a line says. -/
def trailingComment (text : List Char) : List Char :=
  " /* ".toList ++ (text ++ " */".toList)

section

variable {before behind : List (List Char)} {line : List Char} {s : Statement}
  {text text' : String}

theorem type?_of_code (h : Position.code.after before = .code) :
    ∀ s ∈ Position.code.statements before, s.type? = none := by
  apply Position.type?_of_after
  rw [h]
  decide

/-- A line with a comment behind it is read as if it were not there. -/
theorem ofText_trailing_iff (hbefore : Position.code.after before = .code)
    (hline : (Position.code.readLine line).1 = some s) (comment : List Char)
    (htext : lines text.toList = before ++ line :: behind)
    (htext' : lines text'.toList = before ++ (line ++ trailingComment comment) :: behind)
    (path : String) (isTest : Bool) :
    SourceFile.ofText text' path isTest = SourceFile.ofText text path isTest ↔
      Spare path (Position.code.statements before) s (Position.code.statements behind) := by
  have hends : endsComment (trim (line ++ trailingComment comment)) = true := by
    rw [endsComment_trim]
    exact (occursIn_iff _ _).mpr ⟨line ++ (" /* ".toList ++ (comment ++ [' '])), [], by simp [trailingComment]⟩
  have hdropped := Position.readLine_of_endsComment (p := .code) (by decide) hends
  apply ofText_followedBy_iff (type?_of_code hbefore)
  · rw [htext, Position.statements_append, hbefore, Position.statements_cons _ hline]
  · rw [htext', Position.statements_append, hbefore, Position.statements, hdropped]
    rfl

end

/-- A class that is not read is made up for by the name of its file. -/
theorem ofText_trailing_class :
    (Position.code.readLine "class A".toList).1 =
        some (.declaration ⟨[], .classType, "A".toList, []⟩) ∧
      SourceFile.ofText "package a;\nclass A /* c */\n;" "A.java" false =
        SourceFile.ofText "package a;\r\nclass A\n;" "A.java" false := by
  have hline : (Position.code.readLine "class A".toList).1 =
      some (.declaration ⟨[], .classType, "A".toList, []⟩) := by
    decide +kernel
  have htext : lines "package a;\r\nclass A\n;".toList =
      ["package a;".toList] ++ "class A".toList :: [";".toList] := by
    decide +kernel
  have htext' : lines "package a;\nclass A /* c */\n;".toList =
      ["package a;".toList] ++ ("class A".toList ++ trailingComment "c".toList) :: [";".toList] := by
    decide +kernel
  refine ⟨hline, (ofText_trailing_iff (by decide +kernel) hline _ htext htext' _ _).mpr ?_⟩
  exact ⟨by decide +kernel, by decide +kernel, by decide +kernel, by decide +kernel⟩

/-- An annotation with a comment behind it is lost. -/
theorem ofText_trailing_annotated :
    lines "@Service /* c */\nclass A".toList =
        [] ++ ("@Service".toList ++ trailingComment "c".toList) :: ["class A".toList] ∧
      (SourceFile.ofText "@Service /* c */\nclass A" "A.java" false).annotations = [] ∧
      (SourceFile.ofText "@Service\nclass A" "A.java" false).annotations = ["Service"] := by
  decide +kernel

/-! ### Statements behind annotations -/

section

variable {cs rest : List Char}

theorem takeWhile_trimEnd (cs : List Char) :
    (trimEnd cs).takeWhile isNameChar = cs.takeWhile isNameChar := by
  obtain ⟨after, hafter, hblank⟩ := trimEnd_split cs
  have hname : ∀ c ∈ after, isNameChar c = false := by
    intro c hc
    rw [Bool.eq_false_iff]
    intro hname
    have hblank := hblank c hc
    rw [isBlank_of_isNameChar hname] at hblank
    cases hblank
  conv_rhs => rw [hafter]
  rw [takeWhile_append_head (head?_any_eq_false hname)]

theorem annotationName?_congr (h : cs.takeWhile isNameChar = rest.takeWhile isNameChar) :
    annotationName? ('@' :: cs) = annotationName? ('@' :: rest) := by
  change (dottedName? cs).bind _ = (dottedName? rest).bind _
  rw [dottedName?, dottedName?, h]
  split <;> rfl

theorem readLine_annotated {raw : List Char} (hstart : trimStart raw = '@' :: cs)
    (hends : endsComment raw = false) :
    (Position.code.readLine raw).1 = some (.annotated (annotationName? ('@' :: cs))) := by
  have htrim : trim raw = '@' :: trimEnd cs := by
    rw [trim, hstart, trimEnd_cons (by decide)]
  have hstatement : Statement.ofLine ('@' :: trimEnd cs) =
      .annotated (annotationName? ('@' :: trimEnd cs)) :=
    ((if_neg Bool.false_ne_true).trans (if_neg Bool.false_ne_true)).trans (if_pos rfl)
  rw [← endsComment_trim, htrim] at hends
  rw [Position.readLine_eq_some_iff, htrim]
  refine ⟨hends, rfl, rfl, hstatement.trans ?_⟩
  rw [annotationName?_congr (takeWhile_trimEnd cs)]

end

section

variable {before behind : List (List Char)} {marker line : List Char} {s : Statement}
  {text text' : String}

/-- What follows an annotation on its line is not read. -/
theorem ofText_sameLine_iff (hbefore : Position.code.after before = .code)
    (hmarked : (trimStart marker).head? = some '@') (hends : endsComment marker = false)
    (hline : (Position.code.readLine line).1 = some s)
    (htext : lines text.toList = before ++ marker :: line :: behind)
    (htext' : lines text'.toList = before ++ (marker ++ ' ' :: line) :: behind)
    (path : String) (isTest : Bool) :
    SourceFile.ofText text' path isTest = SourceFile.ofText text path isTest ↔
      Spare path
        (Position.code.statements before ++ [.annotated (annotationName? (trimStart marker))])
        s (Position.code.statements behind) := by
  obtain ⟨cs, hstart⟩ := List.head?_eq_some_iff.mp hmarked
  have hends' : endsComment (marker ++ ' ' :: line) = false := by
    obtain ⟨hline, -⟩ := Position.readLine_eq_some_iff.mp hline
    rw [endsComment_trim] at hline
    exact Inline.endsComment_append hends hline (by simp)
  have hspace : isNameChar ' ' = false := by decide
  have hsame : annotationName? ('@' :: (cs ++ ' ' :: line)) = annotationName? ('@' :: cs) :=
    annotationName?_congr (takeWhile_append_head hspace)
  have hread := readLine_annotated (trimStart_append hstart (' ' :: line)) hends'
  rw [hsame] at hread
  rw [hstart]
  apply ofText_followedBy_iff
  · intro s hs
    rcases List.mem_append.mp hs with hs | hs
    · exact type?_of_code hbefore s hs
    · rw [List.mem_singleton.mp hs]
      rfl
  · rw [htext, Position.statements_append, hbefore,
      Position.statements_cons _ (readLine_annotated hstart hends),
      Statement.followedBy_of_none rfl, Position.statements_cons _ hline, List.append_assoc]
    rfl
  · rw [htext', Position.statements_append, hbefore, Position.statements_cons _ hread,
      Statement.followedBy_of_none rfl, List.append_assoc]
    rfl

end

theorem ofText_sameLine_class :
    (Position.code.readLine "class A".toList).1 =
        some (.declaration ⟨[], .classType, "A".toList, []⟩) ∧
      SourceFile.ofText "package a;\n @Table(b) class A\n;" "A.java" false =
        SourceFile.ofText "package a;\n @Table(b)\r\nclass A\n;" "A.java" false := by
  have hline : (Position.code.readLine "class A".toList).1 =
      some (.declaration ⟨[], .classType, "A".toList, []⟩) := by
    decide +kernel
  have htext : lines "package a;\n @Table(b)\r\nclass A\n;".toList =
      ["package a;".toList] ++ " @Table(b)".toList :: "class A".toList :: [";".toList] := by
    decide +kernel
  have htext' : lines "package a;\n @Table(b) class A\n;".toList =
      ["package a;".toList] ++ (" @Table(b)".toList ++ ' ' :: "class A".toList) :: [";".toList] := by
    decide +kernel
  refine ⟨hline, (ofText_sameLine_iff (by decide +kernel) (by decide +kernel) (by decide +kernel)
    hline htext htext' _ _).mpr ?_⟩
  exact ⟨by decide +kernel, by decide +kernel, by decide +kernel, by decide +kernel⟩

/-- A class on the line of its annotation is not read, and reading goes on within it. -/
theorem ofText_sameLine_body :
    (SourceFile.ofText "@Entity class User \x7b\n@Id Long id;" "User.java" false).annotations =
        ["Entity", "Id"] ∧
      (SourceFile.ofText "@Entity\nclass User \x7b\n@Id Long id;" "User.java" false).annotations =
        ["Entity"] := by
  decide +kernel

end JavaProfile.Source

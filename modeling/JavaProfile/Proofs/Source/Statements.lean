import Mathlib.Data.List.Induction
import JavaProfile.Proofs.Source.Reading
import JavaProfile.Proofs.Text.Split

/-!
What is read of the lines of a file, as a list of statements. A header is made of its statements
alone: of the package that is named last, of all imports and annotations in their order, and of the
type. Nothing is read of comments on lines of their own, and they leave the reading of what follows
as it was.
-/

namespace JavaProfile.Source

open Text

/-! ### Positions -/

/-- Where reading stands between two lines: in code, within a comment, or behind the first type. -/
inductive Position where
  | code
  | comment
  | behindType
  deriving DecidableEq, Repr

namespace Statement

def position : Statement → Position
  | .declaration _ => .behindType
  | _ => .code

/-- A statement with those that are read behind it: none behind a type. -/
def followedBy (s : Statement) (rest : List Statement) : List Statement :=
  match s with
  | .declaration d => [.declaration d]
  | s => s :: rest

def package? : Statement → Option String
  | .package name => name
  | _ => none

def import? : Statement → Option String
  | .import name => name
  | _ => none

def annotation? : Statement → Option String
  | .annotated name => name
  | _ => none

def type? : Statement → Option Declaration
  | .declaration d => some d
  | _ => none

theorem followedBy_of_none {s : Statement} (h : s.type? = none) (rest : List Statement) :
    s.followedBy rest = s :: rest := by
  cases s with
  | declaration d => cases h
  | package | «import» | annotated | other => rfl

end Statement

namespace Position

/-- What a line says, if it is read at all, and the position behind it. -/
def readLine (p : Position) (raw : List Char) : Option Statement × Position :=
  let line := trim raw
  if p = .behindType then (none, .behindType)
  else if endsComment line then (none, .code)
  else if opensComment (p = .comment) line then (none, .comment)
  else if isLineComment line then (none, .code)
  else (some (Statement.ofLine line), (Statement.ofLine line).position)

def after (p : Position) (ls : List (List Char)) : Position :=
  ls.foldl (fun p raw => (p.readLine raw).2) p

/-- What is read of lines, up to the first type. -/
def statements (p : Position) : List (List Char) → List Statement
  | [] => []
  | raw :: rest => (p.readLine raw).1.toList ++ (p.readLine raw).2.statements rest

section

variable {p : Position} {raw : List Char} {s : Statement}

theorem readLine_of_endsComment (hp : p ≠ .behindType) (h : endsComment (trim raw) = true) :
    p.readLine raw = (none, .code) := by
  rw [readLine, if_neg hp, if_pos h]

theorem readLine_of_opensComment (hp : p ≠ .behindType) (hends : endsComment (trim raw) = false)
    (h : opensComment (p = .comment) (trim raw) = true) : p.readLine raw = (none, .comment) := by
  rw [readLine, if_neg hp, hends, if_neg Bool.false_ne_true, if_pos h]

theorem readLine_of_isLineComment (hends : endsComment (trim raw) = false)
    (hopens : opensComment false (trim raw) = false) (h : isLineComment (trim raw) = true) :
    code.readLine raw = (none, .code) := by
  have hopen : opensComment (code = .comment) (trim raw) = false := hopens
  rw [readLine, if_neg (by decide), hends, hopen, if_pos h]
  rfl

theorem readLine_eq_some_iff :
    (code.readLine raw).1 = some s ↔
      endsComment (trim raw) = false ∧ opensComment false (trim raw) = false ∧
        isLineComment (trim raw) = false ∧ Statement.ofLine (trim raw) = s := by
  have hopen : opensComment (code = .comment) (trim raw) = opensComment false (trim raw) := rfl
  rw [readLine, if_neg (by decide), hopen]
  split_ifs with hends hopens hcomment <;> simp [*]

theorem readLine_position (h : (p.readLine raw).1 = some s) : (p.readLine raw).2 = s.position := by
  simp only [readLine] at h ⊢
  split_ifs at h ⊢
  exact congrArg Statement.position (Option.some.inj h)

end

/-! ### Statements -/

section

variable (p : Position) (ls ms : List (List Char))

theorem statements_append :
    p.statements (ls ++ ms) = p.statements ls ++ (p.after ls).statements ms := by
  induction ls generalizing p with
  | nil => rfl
  | cons raw ls ih =>
    rw [List.cons_append, statements, ih, statements, List.append_assoc]
    rfl

theorem statements_behindType : behindType.statements ls = [] := by
  induction ls with
  | nil => rfl
  | cons raw ls ih => exact ih

theorem statements_cons {raw : List Char} {s : Statement} (h : (code.readLine raw).1 = some s) :
    code.statements (raw :: ls) = s.followedBy (code.statements ls) := by
  rw [statements, h, readLine_position h]
  cases s with
  | declaration d => exact congrArg _ (statements_behindType ls)
  | package | «import» | annotated | other => rfl

theorem after_behindType : behindType.after ls = .behindType := by
  induction ls with
  | nil => rfl
  | cons raw ls ih => exact ih

theorem type?_of_after (h : p.after ls ≠ .behindType) : ∀ s ∈ p.statements ls, s.type? = none := by
  induction ls generalizing p with
  | nil => exact fun s hs => absurd hs List.not_mem_nil
  | cons raw ls ih =>
    intro s hs
    rcases List.mem_append.mp hs with hs | hs
    · have hposition := readLine_position (Option.mem_toList.mp hs)
      cases s with
      | declaration d =>
        change (p.readLine raw).2.after ls ≠ _ at h
        rw [hposition] at h
        exact absurd (after_behindType ls) h
      | package | «import» | annotated | other => rfl
    · exact ih _ h s hs

end

end Position

/-- Reading adds one statement after the other. -/
theorem readLines_eq (inComment : Bool) (header : Header) (ls : List (List Char)) :
    readLines inComment header ls =
      ((if inComment then Position.comment else .code).statements ls).foldl Header.add header := by
  -- Once a type is declared the rest of the lines adds nothing, so both stop there.
  induction ls generalizing inComment header with
  | nil => rfl
  | cons raw ls ih =>
    have hcode := ih false
    have hcomment := ih true
    rw [if_neg Bool.false_ne_true] at hcode
    rw [if_pos rfl] at hcomment
    have hposition : (if inComment then Position.comment else .code) ≠ .behindType := by
      cases inComment <;> decide
    have hopen : decide ((if inComment then Position.comment else .code) = .comment) = inComment := by
      cases inComment <;> rfl
    rw [readLines, Position.statements, Position.readLine, if_neg hposition, hopen]
    split
    · exact hcode header
    · split
      · exact hcomment header
      · split
        · exact hcode header
        · cases hstatement : Statement.ofLine (trim raw) with
          | declaration d =>
            dsimp only [Statement.position]
            rw [Position.statements_behindType]
            rfl
          | package | «import» | annotated | other => exact hcode _

theorem readHeader_eq (text : String) :
    readHeader text = (Position.code.statements (lines text.toList)).foldl Header.add {} :=
  readLines_eq false {} _

/-! ### Headers -/

/-- The package that is named last. -/
def packageOf (statements : List Statement) : String :=
  ((statements.filterMap Statement.package?).getLast?).getD ""

/-- A header with nothing but the type. -/
def typeOf (statements : List Statement) : Header :=
  ((statements.filterMap Statement.type?).getLast?).elim {} ({} : Header).declare

namespace Header

def ofStatements (statements : List Statement) : Header :=
  statements.foldl add {}

def typeOnly (h : Header) : Header :=
  { h with package := "", annotations := [], imports := [] }

/-- The header with the name of the file where no type is declared. -/
def named (path : String) (h : Header) : Header :=
  { h with className := if h.className = "" then (Path.ofString path).stem else h.className }

section

variable (h : Header) (s : Statement)

theorem package_add : (h.add s).package = s.package?.getD h.package := by
  cases s <;> rfl

theorem imports_add : (h.add s).imports = h.imports ++ s.import?.toList := by
  cases s with
  | «import» => rfl
  | package | annotated | declaration | other => exact (List.append_nil _).symm

theorem annotations_add : (h.add s).annotations = h.annotations ++ s.annotation?.toList := by
  cases s with
  | annotated => rfl
  | package | «import» | declaration | other => exact (List.append_nil _).symm

theorem typeOnly_add : (h.add s).typeOnly = s.type?.elim h.typeOnly ({} : Header).declare := by
  cases s <;> rfl

end

section

variable (statements more : List Statement)

theorem ofStatements_concat (s : Statement) :
    ofStatements (statements ++ [s]) = (ofStatements statements).add s := by
  simp [ofStatements]

theorem packageOf_append : packageOf (statements ++ more) =
    ((more.filterMap Statement.package?).getLast?).getD (packageOf statements) := by
  rw [packageOf, List.filterMap_append, List.getLast?_append]
  cases (more.filterMap Statement.package?).getLast? <;> rfl

theorem typeOf_append : typeOf (statements ++ more) =
    ((more.filterMap Statement.type?).getLast?).elim (typeOf statements) ({} : Header).declare := by
  rw [typeOf, List.filterMap_append, List.getLast?_append]
  cases (more.filterMap Statement.type?).getLast? <;> rfl

theorem filterMap_singleton {α : Type} (f : Statement → Option α) (s : Statement) :
    [s].filterMap f = (f s).toList := by
  cases hs : f s <;> simp [hs]

theorem package_ofStatements : (ofStatements statements).package = packageOf statements := by
  induction statements using List.reverseRecOn with
  | nil => rfl
  | append_singleton statements s ih =>
    rw [ofStatements_concat, package_add, ih, packageOf_append, filterMap_singleton]
    cases s.package? <;> rfl

theorem imports_ofStatements :
    (ofStatements statements).imports = statements.filterMap Statement.import? := by
  induction statements using List.reverseRecOn with
  | nil => rfl
  | append_singleton statements s ih =>
    rw [ofStatements_concat, imports_add, ih, List.filterMap_append, filterMap_singleton]

theorem annotations_ofStatements :
    (ofStatements statements).annotations = statements.filterMap Statement.annotation? := by
  induction statements using List.reverseRecOn with
  | nil => rfl
  | append_singleton statements s ih =>
    rw [ofStatements_concat, annotations_add, ih, List.filterMap_append, filterMap_singleton]

theorem typeOnly_ofStatements : (ofStatements statements).typeOnly = typeOf statements := by
  induction statements using List.reverseRecOn with
  | nil => rfl
  | append_singleton statements s ih =>
    rw [ofStatements_concat, typeOnly_add, ih, typeOf_append, filterMap_singleton]
    cases s.type? <;> rfl

end

theorem named_eq_iff {h h' : Header} (path : String) : h.named path = h'.named path ↔
    h.package = h'.package ∧ h.imports = h'.imports ∧ h.annotations = h'.annotations ∧
      h.typeOnly.named path = h'.typeOnly.named path := by
  simp only [named, typeOnly, Header.mk.injEq, true_and]
  tauto

end Header

/-! ### Files -/

/-- Two texts are read alike if they have the same header, up to the name of the file. -/
theorem ofText_eq_iff (text text' path : String) (isTest : Bool) :
    SourceFile.ofText text path isTest = SourceFile.ofText text' path isTest ↔
      (readHeader text).named path = (readHeader text').named path := by
  constructor
  · intro hfile
    simp only [SourceFile.ofText, SourceFile.mk.injEq] at hfile
    simp only [Header.named, Header.mk.injEq]
    tauto
  · intro hheader
    have hfile (text : String) : SourceFile.ofText text path isTest =
        let h := (readHeader text).named path
        { path
          package := h.package
          className := h.className
          category := if isTest then .test
            else Category.ofHeader h.className h.annotations h.interfaces
          annotations := h.annotations
          superclass := h.superclass
          interfaces := h.interfaces
          imports := h.imports
          isAbstract := h.isAbstract
          isInterface := h.isInterface } :=
      rfl
    rw [hfile, hfile, hheader]

/-! ### Ends of comments -/

theorem endsComment_cons (c : Char) (cs : List Char) :
    endsComment (c :: cs) = ("*/".toList.isPrefixOf (c :: cs) || endsComment cs) :=
  rfl

section

variable {a b : List Char}

theorem endsComment_append_left (hb : '/' ∉ b) : endsComment (a ++ b) = endsComment a := by
  induction a with
  | nil =>
    cases hends : endsComment b with
    | false => exact hends
    | true =>
      obtain ⟨front, behind, rfl⟩ := (occursIn_iff _ _).mp hends
      exact absurd (by simp) hb
  | cons c a ih =>
    have hfirst : "*/".toList.isPrefixOf (c :: (a ++ b)) = "*/".toList.isPrefixOf (c :: a) := by
      cases a with
      | cons d a => rfl
      | nil =>
        cases b with
        | nil => rfl
        | cons d b =>
          have hd : ('/' == d) = false := beq_eq_false_iff_ne.mpr (List.ne_of_not_mem_cons hb)
          change ('*' == c && ('/' == d && _)) = ('*' == c && false)
          rw [hd, Bool.false_and]
    rw [List.cons_append, endsComment_cons, endsComment_cons, hfirst, ih]

theorem endsComment_append_right (ha : '*' ∉ a) : endsComment (a ++ b) = endsComment b := by
  induction a with
  | nil => rfl
  | cons c a ih =>
    rw [List.mem_cons, not_or] at ha
    have hstar : ('*' == c) = false := beq_eq_false_iff_ne.mpr ha.1
    have hfirst : "*/".toList.isPrefixOf (c :: (a ++ b)) = false := by
      change ('*' == c && _) = false
      rw [hstar, Bool.false_and]
    rw [List.cons_append, endsComment_cons, hfirst, Bool.false_or, ih ha.2]

theorem endsComment_trim (raw : List Char) : endsComment (trim raw) = endsComment raw := by
  have hnot {cs : List Char} (h : ∀ c ∈ cs, isBlank c = true) {c : Char} (hc : isBlank c = false) :
      c ∉ cs := by
    intro hmem
    rw [h c hmem] at hc
    cases hc
  obtain ⟨before, hbefore, hblank⟩ := trimStart_split raw
  obtain ⟨after, hafter, hblank'⟩ := trimEnd_split (trimStart raw)
  have hstart : endsComment raw = endsComment (trimStart raw) := by
    conv_lhs => rw [hbefore]
    exact endsComment_append_right (hnot hblank (by decide))
  have hend : endsComment (trimStart raw) = endsComment (trim raw) := by
    conv_lhs => rw [hafter]
    exact endsComment_append_left (hnot hblank' (by decide))
  rw [hstart, hend]

end

/-! ### Comments -/

theorem opensComment_of_isLineComment {line : List Char} (h : isLineComment line = true) :
    opensComment false line = false := by
  obtain ⟨rest, rfl⟩ := List.isPrefixOf_iff_prefix.mp h
  rfl

/-- One line that begins with two slashes, whatever else it holds, or the lines from one that begins
with the start of a comment to the first with the end of one. -/
inductive CommentBlock : List (List Char) → Prop where
  | line {raw : List Char} (hline : isLineComment (trim raw) = true) : CommentBlock [raw]
  | block {within : List (List Char)} {last : List Char}
      (hstart : ∀ first ∈ (within ++ [last]).head?, opensComment false (trim first) = true)
      (hwithin : ∀ raw ∈ within, endsComment raw = false) (hend : endsComment last = true) :
      CommentBlock (within ++ [last])

namespace Position

/-- Nothing is read up to the end of a comment. -/
theorem statements_comment {within : List (List Char)} {last : List Char}
    (hwithin : ∀ raw ∈ within, endsComment raw = false) (hend : endsComment last = true) :
    comment.statements (within ++ [last]) = [] ∧ comment.after (within ++ [last]) = .code := by
  induction within with
  | nil =>
    have hlast := readLine_of_endsComment (p := comment) (by decide) ((endsComment_trim last).trans hend)
    rw [List.nil_append, statements, after, List.foldl_cons, hlast]
    exact ⟨rfl, rfl⟩
  | cons raw within ih =>
    have hraw := readLine_of_opensComment (p := comment) (by decide)
      ((endsComment_trim raw).trans (hwithin raw List.mem_cons_self)) rfl
    rw [List.cons_append, statements, after, List.foldl_cons, hraw]
    exact ih fun raw hmem => hwithin raw (List.mem_cons_of_mem _ hmem)

theorem statements_commentBlock {block : List (List Char)} (h : CommentBlock block) :
    code.statements block = [] ∧ code.after block = .code := by
  cases h with
  | @line raw hline =>
    have hread : code.readLine raw = (none, .code) := by
      cases hends : endsComment (trim raw) with
      | true => exact readLine_of_endsComment (by decide) hends
      | false => exact readLine_of_isLineComment hends (opensComment_of_isLineComment hline) hline
    rw [statements, after, List.foldl_cons, hread]
    exact ⟨rfl, rfl⟩
  | @block within last hstart hwithin hend =>
    cases within with
    | nil =>
      have hlast := readLine_of_endsComment (p := code) (by decide) ((endsComment_trim last).trans hend)
      rw [List.nil_append, statements, after, List.foldl_cons, hlast]
      exact ⟨rfl, rfl⟩
    | cons raw within =>
      have hraw := readLine_of_opensComment (p := code) (by decide)
        ((endsComment_trim raw).trans (hwithin raw List.mem_cons_self)) (hstart raw rfl)
      rw [List.cons_append, statements, after, List.foldl_cons, hraw]
      exact statements_comment (fun raw hmem => hwithin raw (List.mem_cons_of_mem _ hmem)) hend

/-- A comment that does not stand in another one leaves no trace. -/
theorem statements_insert {before block : List (List Char)} (hbefore : code.after before ≠ .comment)
    (hblock : CommentBlock block) (behind : List (List Char)) :
    code.statements (before ++ (block ++ behind)) = code.statements (before ++ behind) := by
  obtain ⟨hnone, hcode⟩ := statements_commentBlock hblock
  rw [statements_append _ before, statements_append _ before]
  cases hafter : code.after before with
  | comment => exact absurd hafter hbefore
  | code => rw [statements_append, hnone, hcode, List.nil_append]
  | behindType => rw [statements_behindType, statements_behindType]

end Position

/-- Two texts are read alike if the lines of one are those of the other with a comment between them. -/
theorem ofText_comment {before block behind : List (List Char)}
    (hbefore : Position.code.after before ≠ .comment) (hblock : CommentBlock block)
    {text text' : String} (htext : lines text.toList = before ++ (block ++ behind))
    (htext' : lines text'.toList = before ++ behind) (path : String) (isTest : Bool) :
    SourceFile.ofText text path isTest = SourceFile.ofText text' path isTest := by
  rw [ofText_eq_iff, readHeader_eq, readHeader_eq, htext, htext',
    Position.statements_insert hbefore hblock]

/-- A comment with what looks like a package, an import and types. -/
def fakeBlock : List (List Char) :=
  ["/** package b; class Fake // x".toList, "import b.C;".toList] ++ [" */ class C".toList]

theorem ofText_comment_fake :
    CommentBlock fakeBlock ∧
      lines "package a;\n/** package b; class Fake // x\r\nimport b.C;\n */ class C\n@Bean\nclass A".toList =
        ["package a;".toList] ++ (fakeBlock ++ ["@Bean".toList, "class A".toList]) ∧
      SourceFile.ofText
          "package a;\n/** package b; class Fake // x\r\nimport b.C;\n */ class C\n@Bean\nclass A"
          "A.java" false =
        SourceFile.ofText "package a;\n@Bean\nclass A\n" "A.java" false := by
  have hblock : CommentBlock fakeBlock :=
    .block (by decide) (by decide) (by decide)
  have htext : lines
      "package a;\n/** package b; class Fake // x\r\nimport b.C;\n */ class C\n@Bean\nclass A".toList =
        ["package a;".toList] ++ (fakeBlock ++ ["@Bean".toList, "class A".toList]) := by
    decide +kernel
  exact ⟨hblock, htext, ofText_comment (by decide +kernel) hblock htext (by decide +kernel) _ _⟩

end JavaProfile.Source

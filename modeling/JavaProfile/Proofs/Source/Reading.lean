import JavaProfile.Source.Header

/-!
Headers of source files as they are meant, and how they are written: a line for each statement, the
last one for the type. Then what the readers of a header find in names, brackets and clauses.
-/

namespace JavaProfile.Source

/-! ### Names -/

def isSegmentChar (c : Char) : Bool :=
  c.isAlphanum || c == '_'

/-- A part of a name. Of the words of the language only the two that open a clause are left out. -/
structure Segment where
  text : List Char
  start : text.head?.any Char.isAlpha = true
  chars : text.all isSegmentChar = true
  notClause : text ≠ "extends".toList ∧ text ≠ "implements".toList

structure DottedName where
  segments : List Segment
  nonempty : segments ≠ []

namespace DottedName

def text (n : DottedName) : List Char :=
  Text.joinWith '.' (n.segments.map (·.text))

def simpleName (n : DottedName) : List Char :=
  (n.segments.getLast n.nonempty).text

end DottedName

/-! ### Types -/

/-- Each opening bracket is closed, and each closing one was opened. -/
inductive Balanced : List Char → Prop where
  | nil : Balanced []
  | plain {c : Char} {cs : List Char} (hc : isPlain c) (hcs : Balanced cs) : Balanced (c :: cs)
  | group {inner cs : List Char} (hinner : Balanced inner) (hcs : Balanced cs) :
      Balanced ('<' :: inner ++ '>' :: cs)

/-- What stands in brackets behind the name of a type, if anything does. -/
structure TypeArguments where
  text : List Char
  closed : text = [] ∨ ∃ inner, Balanced inner ∧ text = '<' :: inner ++ ['>']

structure TypeRef where
  name : DottedName
  arguments : TypeArguments

def TypeRef.text (t : TypeRef) : List Char :=
  t.name.text ++ t.arguments.text

/-- Types with a comma and a blank between them. -/
def typeList : List (List Char) → List Char
  | [] => []
  | [t] => t
  | t :: ts => t ++ ',' :: ' ' :: typeList ts

/-! ### Statements -/

structure Import where
  isStatic : Bool
  name : DottedName
  /-- All that the name holds is imported. -/
  wildcard : Bool

namespace Import

def target (i : Import) : List Char :=
  i.name.text ++ if i.wildcard then ".*".toList else []

def line (i : Import) : List Char :=
  "import".toList ++
    ' ' :: ((if i.isStatic then "static".toList ++ [' '] else []) ++ (i.target ++ [';']))

end Import

structure AnnotationUse where
  name : DottedName
  /-- What stands in parentheses behind the name, if they are there. -/
  argument : Option (List Char)

def AnnotationUse.line (a : AnnotationUse) : List Char :=
  '@' :: (a.name.text ++ a.argument.elim [] fun text => '(' :: (text ++ [')']))

/-- The kind of a type with what only types of that kind can have. -/
inductive Shape where
  | classShape (isAbstract : Bool) (superclass : Option TypeRef)
  | interfaceShape
  | enumShape
  | recordShape

namespace Shape

def kind : Shape → TypeKind
  | classShape _ _ => .classType
  | interfaceShape => .interfaceType
  | enumShape => .enumType
  | recordShape => .recordType

def isAbstract : Shape → Bool
  | classShape b _ => b
  | _ => false

def superclass : Shape → Option TypeRef
  | classShape _ t => t
  | _ => none

/-- The word before the interfaces of the type. -/
def listWord : Shape → List Char
  | interfaceShape => "extends".toList
  | _ => "implements".toList

end Shape

/-! ### Headers -/

/-- A text that breaks no line and has nothing in it that looks like the end of a comment. -/
def Inline (cs : List Char) : Prop :=
  (∀ c ∈ cs, Text.isLineBreak c = false) ∧ endsComment cs = false

instance (cs : List Char) : Decidable (Inline cs) :=
  decidable_of_iff ((cs.all fun c => !Text.isLineBreak c) && !endsComment cs) (by simp [Inline])

/-- A type with the statements before it. -/
structure Outline where
  package : Option DottedName
  imports : List Import
  annotations : List AnnotationUse
  isPublic : Bool
  shape : Shape
  name : Segment
  parameters : TypeArguments
  interfaces : List TypeRef

namespace Outline

variable (o : Outline)

def modifiers : List Char :=
  (if o.isPublic then "public ".toList else []) ++
    if o.shape.isAbstract then "abstract ".toList else []

/-- A superclass with the word before it. -/
def superclassClause (superclass : Option (List Char)) : List Char :=
  superclass.elim [] fun t => " extends ".toList ++ t

/-- Interfaces with the word before them. -/
def interfaceClause (word : List Char) (interfaces : List (List Char)) : List Char :=
  if interfaces = [] then [] else ' ' :: word ++ ' ' :: typeList interfaces

def clauses : List Char :=
  superclassClause (o.shape.superclass.map (·.text)) ++
    interfaceClause o.shape.listWord (o.interfaces.map (·.text)) ++ " \x7b".toList

def declarationLine : List Char :=
  o.modifiers ++ (o.shape.kind.keyword ++ ' ' :: (o.name.text ++ (o.parameters.text ++ o.clauses)))

def packageLine (name : DottedName) : List Char :=
  "package".toList ++ ' ' :: (name.text ++ [';'])

/-- The lines before the one of the type. -/
def statementLines : List (List Char) :=
  o.package.toList.map packageLine ++ o.imports.map (·.line) ++ o.annotations.map (·.line)

/-- The header with any further lines behind it. -/
def write (further : List (List Char)) : String :=
  String.ofList (Text.joinWith '\n' (o.statementLines ++ o.declarationLine :: further))

/-- The texts that are free but for their brackets. -/
def texts : List (List Char) :=
  o.annotations.filterMap (·.argument) ++ o.parameters.text ::
    (o.shape.superclass.toList ++ o.interfaces).map (·.arguments.text)

def Legible : Prop :=
  ∀ text ∈ o.texts, Inline text

instance : Decidable o.Legible :=
  inferInstanceAs (Decidable (∀ text ∈ o.texts, Inline text))

def superclassName : String :=
  let name := (o.shape.superclass.map fun t => String.ofList t.name.text).getD ""
  if name = "Object" ∨ name = "java.lang.Object" then "" else name

/-- The file that the header describes. -/
def sourceFile (path : String) : SourceFile :=
  let annotations := o.annotations.map fun a => String.ofList a.name.simpleName
  let interfaces := o.interfaces.map fun t => String.ofList t.name.text
  { path
    package := (o.package.map fun n => String.ofList n.text).getD ""
    className := String.ofList o.name.text
    category := Category.ofHeader (String.ofList o.name.text) annotations interfaces
    annotations
    superclass := o.superclassName
    interfaces
    imports := o.imports.map fun i => String.ofList i.target
    isAbstract := o.shape.isAbstract
    isInterface := o.shape.kind = .interfaceType }

end Outline

open Text

/-! ### Characters of names -/

theorem forall_mem_of_all {P : Char → Prop} [DecidablePred P] {cs : List Char}
    (h : (cs.all fun c => decide (P c)) = true) : ∀ c ∈ cs, P c := by
  simpa using h

section Characters

variable {c : Char}

theorem toNat_of_isSegmentChar (h : isSegmentChar c = true) :
    48 ≤ c.toNat ∧ c.toNat ≤ 57 ∨ 65 ≤ c.toNat ∧ c.toNat ≤ 90 ∨ c.toNat = 95 ∨
      97 ≤ c.toNat ∧ c.toNat ≤ 122 := by
  -- stated by hand: the tests of the library are compared by unfolding, not rewritten
  have hclass : (((decide (65 ≤ c.toNat ∧ c.toNat ≤ 90) ||
      (decide (97 ≤ c.toNat) && decide (c.toNat ≤ 122))) ||
      (decide (48 ≤ c.toNat) && decide (c.toNat ≤ 57))) || c == '_') = true := h
  simp only [Bool.or_eq_true, Bool.and_eq_true, decide_eq_true_eq, beq_iff_eq] at hclass
  rcases hclass with ((hupper | hlower) | hdigit) | rfl
  · exact .inr (.inl hupper)
  · exact .inr (.inr (.inr hlower))
  · exact .inl hdigit
  · decide

theorem isWord_of_isSegmentChar (h : isSegmentChar c = true) : isWord c = true := by
  have hsmall := toNat_of_isSegmentChar h
  rw [isSegmentChar, Bool.or_eq_true] at h
  rcases h with hletter | hline
  · exact isWord_of_isAlphanum (by omega) hletter
  · rw [isWord, hline, Bool.or_true]

theorem not_isSegmentChar (h : isWord c = false) : isSegmentChar c = false := by
  cases hsegment : isSegmentChar c with
  | false => rfl
  | true =>
    rw [isWord_of_isSegmentChar hsegment] at h
    cases h

theorem isBlank_of_isSegmentChar (h : isSegmentChar c = true) : isBlank c = false := by
  have hrange := toNat_of_isSegmentChar h
  have hsmall : ∀ n < 128, (48 ≤ n ∧ n ≤ 57 ∨ 65 ≤ n ∧ n ≤ 90 ∨ n = 95 ∨ 97 ≤ n ∧ n ≤ 122) →
      inRanges blankRanges n = false := by
    decide
  exact hsmall c.toNat (by omega) hrange

theorem isBlank_of_isWord (h : isWord c = true) : isBlank c = false := by
  rw [isWord, isAlphanumeric, Bool.or_eq_true] at h
  split at h
  · exact isBlank_of_isSegmentChar ((Bool.or_eq_true _ _).mpr h)
  · rcases h with hword | hline
    · have hapart : ∀ r ∈ alphanumericRanges, ∀ b ∈ blankRanges, r.2 < b.1 ∨ b.2 < r.1 := by
        decide +kernel
      obtain ⟨r, hr, hlow, hhigh⟩ := (inRanges_iff _ _).mp hword
      rw [isBlank, Bool.eq_false_iff, Ne, inRanges_iff]
      rintro ⟨b, hb, hlow', hhigh'⟩
      have := hapart r hr b hb
      omega
    · rw [eq_of_beq hline]
      decide

theorem ne_of_isSegmentChar {d : Char} (h : isSegmentChar c = true) (hd : isSegmentChar d = false) :
    c ≠ d := by
  rintro rfl
  rw [h] at hd
  cases hd

theorem isLineBreak_of_isSegmentChar (h : isSegmentChar c = true) : isLineBreak c = false := by
  simp only [isLineBreak, Bool.or_eq_false_iff, beq_eq_false_iff_ne]
  refine ⟨⟨⟨⟨⟨⟨⟨⟨⟨?_, ?_⟩, ?_⟩, ?_⟩, ?_⟩, ?_⟩, ?_⟩, ?_⟩, ?_⟩, ?_⟩
  all_goals exact ne_of_isSegmentChar h (by decide)

theorem isPlain_of_isSegmentChar (h : isSegmentChar c = true) : isPlain c :=
  ⟨ne_of_isSegmentChar h (by decide), ne_of_isSegmentChar h (by decide)⟩

end Characters

/-! ### Names -/

namespace Segment

variable (s : Segment)

theorem isSegmentChar_of_mem {c : Char} (h : c ∈ s.text) : isSegmentChar c = true :=
  List.all_eq_true.mp s.chars c h

theorem text_eq_cons : ∃ c cs, s.text = c :: cs ∧ c.isAlpha = true := by
  have hstart := s.start
  cases htext : s.text with
  | nil =>
    rw [htext] at hstart
    cases hstart
  | cons c cs =>
    rw [htext] at hstart
    exact ⟨c, cs, rfl, hstart⟩

theorem text_ne_nil : s.text ≠ [] := by
  obtain ⟨c, cs, htext, -⟩ := s.text_eq_cons
  rw [htext]
  exact List.cons_ne_nil c cs

end Segment

theorem joinWith_induction {P : List Char → Prop} (segments : List Segment) (hne : segments ≠ [])
    (hlast : ∀ s : Segment, P s.text)
    (hcons : ∀ (s : Segment) cs, P cs → P (s.text ++ '.' :: cs)) :
    P (joinWith '.' (segments.map (·.text))) := by
  induction segments with
  | nil => exact absurd rfl hne
  | cons s segments ih =>
    by_cases hmore : segments = []
    · rw [hmore]
      exact hlast s
    · rw [List.map_cons, joinWith_cons '.' s.text (by simpa using hmore)]
      exact hcons s _ (ih hmore)

namespace DottedName

variable (n : DottedName)

theorem text_induction {P : List Char → Prop} (hlast : ∀ s : Segment, P s.text)
    (hcons : ∀ (s : Segment) cs, P cs → P (s.text ++ '.' :: cs)) : P n.text :=
  joinWith_induction n.segments n.nonempty hlast hcons

theorem mem_text {c : Char} : c ∈ n.text → isSegmentChar c = true ∨ c = '.' := by
  apply n.text_induction (P := fun cs => c ∈ cs → isSegmentChar c = true ∨ c = '.')
  · intro s hc
    exact .inl (s.isSegmentChar_of_mem hc)
  · intro s cs ih hc
    rw [List.mem_append, List.mem_cons] at hc
    rcases hc with hc | rfl | hc
    · exact .inl (s.isSegmentChar_of_mem hc)
    · exact .inr rfl
    · exact ih hc

theorem text_eq_cons : ∃ c cs, n.text = c :: cs ∧ c.isAlpha = true := by
  apply n.text_induction (P := fun text => ∃ c cs, text = c :: cs ∧ c.isAlpha = true)
  · intro s
    exact s.text_eq_cons
  · intro s cs _
    obtain ⟨c, cs', htext, hc⟩ := s.text_eq_cons
    exact ⟨c, cs' ++ '.' :: cs, by rw [htext]; rfl, hc⟩

theorem forall_mem_text {P : Char → Prop} (hchar : ∀ c, isSegmentChar c = true → P c) (hdot : P '.') :
    ∀ c ∈ n.text, P c := by
  intro c hc
  rcases n.mem_text hc with h | rfl
  · exact hchar c h
  · exact hdot

theorem afterLast_text : afterLast '.' n.text = n.simpleName := by
  have hfree : ∀ p ∈ n.segments.map (·.text), '.' ∉ p := by
    intro p hp hdot
    obtain ⟨s, -, rfl⟩ := List.mem_map.mp hp
    exact absurd (s.isSegmentChar_of_mem hdot) (by decide)
  have hne : n.segments.map (·.text) ≠ [] := by simpa using n.nonempty
  rw [afterLast, text, splitOn_joinWith hne hfree, List.getLast?_map,
    List.getLast?_eq_some_getLast n.nonempty]
  rfl

end DottedName

/-! ### Reading names -/

section Reading

variable {rest : List Char}

theorem head?_any_eq_false {p : Char → Bool} {cs : List Char} (h : ∀ c ∈ cs, p c = false) :
    cs.head?.any p = false := by
  cases cs with
  | nil => rfl
  | cons c cs => exact h c List.mem_cons_self

theorem takeWhile_append_stop {p : Char → Bool} {cs : List Char} (hcs : ∀ c ∈ cs, p c = true)
    (hrest : rest.head?.any p = false) :
    (cs ++ rest).takeWhile p = cs ∧ (cs ++ rest).dropWhile p = rest := by
  have hstop : rest.takeWhile p = [] ∧ rest.dropWhile p = rest := by
    cases rest with
    | nil => exact ⟨rfl, rfl⟩
    | cons c rest =>
      have hc : p c = false := hrest
      simp [hc]
  rw [List.takeWhile_append_of_pos hcs, List.dropWhile_append_of_pos hcs, hstop.1, hstop.2,
    List.append_nil]
  exact ⟨rfl, rfl⟩

theorem takeWhile_append_head {p : Char → Bool} {cs : List Char}
    (hrest : rest.head?.any p = false) : (cs ++ rest).takeWhile p = cs.takeWhile p := by
  induction cs with
  | nil =>
    cases rest with
    | nil => rfl
    | cons c rest =>
      have hc : p c = false := hrest
      rw [List.nil_append, List.takeWhile_cons, hc]
      rfl
  | cons c cs ih => rw [List.cons_append, List.takeWhile_cons, List.takeWhile_cons, ih]

theorem trim_append {before cs after : List Char} (hbefore : ∀ c ∈ before, isBlank c = true)
    (hcs : ∀ c ∈ cs, isBlank c = false) (hne : cs ≠ []) (hafter : ∀ c ∈ after, isBlank c = true) :
    trim (before ++ (cs ++ after)) = cs := by
  have hstart : (cs ++ after).head?.any isBlank = false := by
    cases cs with
    | nil => exact absurd rfl hne
    | cons c cs => exact hcs c List.mem_cons_self
  have hend : cs.reverse.head?.any isBlank = false :=
    head?_any_eq_false fun c hc => hcs c (List.mem_reverse.mp hc)
  have hreverse : ∀ c ∈ after.reverse, isBlank c = true := fun c hc =>
    hafter c (List.mem_reverse.mp hc)
  rw [trim, trimStart, (takeWhile_append_stop hbefore hstart).2, trimEnd, trimStart,
    List.reverse_append, (takeWhile_append_stop hreverse hend).2, List.reverse_reverse]

theorem dottedName?_of_chars {cs : List Char} (hne : cs ≠ []) (hcs : ∀ c ∈ cs, isNameChar c = true)
    (hrest : rest.head?.any isNameChar = false) : dottedName? (cs ++ rest) = some (cs, rest) := by
  obtain ⟨htake, hdrop⟩ := takeWhile_append_stop hcs hrest
  rw [dottedName?, htake, hdrop]
  exact if_neg hne

theorem isNameChar_of_isSegmentChar (c : Char) (h : isSegmentChar c = true) : isNameChar c = true := by
  rw [isNameChar, isWord_of_isSegmentChar h, Bool.true_or]

theorem isBlank_of_isNameChar {c : Char} (h : isNameChar c = true) : isBlank c = false := by
  rw [isNameChar, Bool.or_eq_true] at h
  rcases h with hword | hdot
  · exact isBlank_of_isWord hword
  · rw [eq_of_beq hdot]
    decide

theorem DottedName.text_ne_nil (n : DottedName) : n.text ≠ [] := by
  obtain ⟨c, cs, htext, -⟩ := n.text_eq_cons
  rw [htext]
  exact List.cons_ne_nil c cs

theorem dottedName?_text (n : DottedName) (hrest : rest.head?.any isNameChar = false) :
    dottedName? (n.text ++ rest) = some (n.text, rest) :=
  dottedName?_of_chars n.text_ne_nil (n.forall_mem_text isNameChar_of_isSegmentChar (by decide)) hrest

theorem afterPrefix?_append (word rest : List Char) : afterPrefix? word (word ++ rest) = some rest := by
  rw [afterPrefix?, if_pos (List.isPrefixOf_iff_prefix.mpr (List.prefix_append word rest)),
    List.drop_left]

theorem afterBlanks?_cons (hrest : rest.head?.any isBlank = false) :
    afterBlanks? (' ' :: rest) = some rest := by
  have hblank : isBlank ' ' = true := by decide
  have hdrop : (' ' :: rest).dropWhile isBlank = rest := by
    rw [List.dropWhile_cons_of_pos hblank]
    cases rest with
    | nil => rfl
    | cons c rest =>
      have hc : isBlank c = false := hrest
      simp [hc]
  rw [afterBlanks?, if_pos (by exact hblank), hdrop]

theorem afterKeyword?_append (word : List Char) (hrest : rest.head?.any isBlank = false) :
    afterKeyword? word (word ++ ' ' :: rest) = some rest := by
  rw [afterKeyword?, afterPrefix?_append]
  exact afterBlanks?_cons hrest

theorem afterKeyword?_of_no_blank {word cs : List Char} (h : ∀ c ∈ cs, isBlank c = false) :
    afterKeyword? word cs = none := by
  rw [afterKeyword?, afterPrefix?]
  split
  · rw [Option.bind_some, afterBlanks?, if_neg]
    cases hdrop : cs.drop word.length with
    | nil => exact Bool.false_ne_true
    | cons c rest =>
      have hc := h c (List.mem_of_mem_drop (hdrop ▸ List.mem_cons_self))
      exact fun hblank => Bool.false_ne_true (hc.symm.trans hblank)
  · rfl

end Reading

end JavaProfile.Source

import JavaProfile.Proofs.Source.Clause
import JavaProfile.Source.Header

/-!
Reading up to a brace. What is read of a declaration or of one of its clauses ends at an opening
brace, so it does not depend on what follows one.
-/

namespace JavaProfile.Source

open Text

/-! ### Texts with a brace -/

section

variable {p : Char → Bool} {c : Char} {cs b : List Char}

theorem takeWhile_append_of_mem (hmem : c ∈ cs) (hc : p c = false) :
    (cs ++ b).takeWhile p = cs.takeWhile p := by
  induction cs with
  | nil => cases hmem
  | cons d cs ih =>
    rw [List.cons_append, List.takeWhile_cons, List.takeWhile_cons]
    split
    · next hd =>
      have hne : c ≠ d := by
        rintro rfl
        rw [hc] at hd
        cases hd
      rw [ih (List.mem_of_ne_of_mem hne hmem)]
    · rfl

theorem dropWhile_append_of_mem (hmem : c ∈ cs) (hc : p c = false) :
    (cs ++ b).dropWhile p = cs.dropWhile p ++ b ∧ c ∈ cs.dropWhile p := by
  induction cs with
  | nil => cases hmem
  | cons d cs ih =>
    rw [List.cons_append, List.dropWhile_cons, List.dropWhile_cons]
    split
    · next hd =>
      have hne : c ≠ d := by
        rintro rfl
        rw [hc] at hd
        cases hd
      exact ih (List.mem_of_ne_of_mem hne hmem)
    · exact ⟨rfl, hmem⟩

theorem isPrefixOf_append_of_mem {word : List Char} (hmem : c ∈ cs) (hword : c ∉ word) :
    word.isPrefixOf (cs ++ b) = word.isPrefixOf cs := by
  rw [Bool.eq_iff_iff, List.isPrefixOf_iff_prefix, List.isPrefixOf_iff_prefix]
  constructor
  · rintro ⟨rest, hrest⟩
    rcases List.append_eq_append_iff.mp hrest with ⟨more, rfl, -⟩ | ⟨more, rfl, -⟩
    · exact List.prefix_append _ _
    · exact absurd (List.mem_append_left _ hmem) hword
  · exact fun h => h.trans (List.prefix_append _ _)

end

/-! ### Readers -/

/-- The declaration with more text behind it. -/
def Declaration.extended (b : List Char) (d : Declaration) : Declaration :=
  { d with header := d.header ++ b }

section

variable {cs : List Char} (hbrace : '\x7b' ∈ cs) (b : List Char)

include hbrace

theorem afterPrefix?_brace {word : List Char} (hword : '\x7b' ∉ word) :
    afterPrefix? word (cs ++ b) = (afterPrefix? word cs).map (· ++ b) ∧
      ∀ rest ∈ afterPrefix? word cs, '\x7b' ∈ rest := by
  rw [afterPrefix?, afterPrefix?, isPrefixOf_append_of_mem hbrace hword]
  split
  · next hbegins =>
    obtain ⟨rest, rfl⟩ := List.isPrefixOf_iff_prefix.mp hbegins
    have hrest : '\x7b' ∈ rest := (List.mem_append.mp hbrace).resolve_left hword
    simp [hrest]
  · simp

theorem afterBlanks?_brace :
    afterBlanks? (cs ++ b) = (afterBlanks? cs).map (· ++ b) ∧
      ∀ rest ∈ afterBlanks? cs, '\x7b' ∈ rest := by
  have hhead : (cs ++ b).head? = cs.head? := by
    cases cs with
    | nil => cases hbrace
    | cons c cs => rfl
  obtain ⟨hdrop, hmem⟩ := dropWhile_append_of_mem (p := isBlank) (b := b) hbrace (by decide)
  rw [afterBlanks?, afterBlanks?, hhead, hdrop]
  split
  · simpa using hmem
  · simp

theorem afterKeyword?_brace {word : List Char} (hword : '\x7b' ∉ word) :
    afterKeyword? word (cs ++ b) = (afterKeyword? word cs).map (· ++ b) ∧
      ∀ rest ∈ afterKeyword? word cs, '\x7b' ∈ rest := by
  obtain ⟨hbegins, hbraced⟩ := afterPrefix?_brace hbrace b hword
  rw [afterKeyword?, afterKeyword?, hbegins]
  cases hrest : afterPrefix? word cs with
  | none => simp
  | some rest => exact afterBlanks?_brace (hbraced rest hrest) b

theorem identifier?_brace :
    identifier? (cs ++ b) = (identifier? cs).map fun r => (r.1, r.2 ++ b) := by
  cases cs with
  | nil => cases hbrace
  | cons c cs =>
    rw [List.cons_append, identifier?, identifier?]
    split
    · next hstart =>
      have hmem : '\x7b' ∈ cs := by
        refine List.mem_of_ne_of_mem ?_ hbrace
        rintro rfl
        exact absurd hstart (by decide)
      obtain ⟨hdrop, -⟩ := dropWhile_append_of_mem (p := isIdentifierChar) (b := b) hmem (by decide)
      rw [takeWhile_append_of_mem hmem (by decide), hdrop]
      rfl
    · rfl

theorem clauseName?_brace : clauseName? (cs ++ b) = clauseName? cs := by
  obtain ⟨hblanks, hbraced⟩ := afterBlanks?_brace hbrace b
  rw [clauseName?, clauseName?, hblanks]
  cases hrest : afterBlanks? cs with
  | none => rfl
  | some rest =>
    change (dottedName? (rest ++ b)).bind _ = (dottedName? rest).bind _
    rw [dottedName?, dottedName?, takeWhile_append_of_mem (hbraced rest hrest) (by decide)]
    split <;> rfl

theorem clauseTypes?_brace : clauseTypes? (cs ++ b) = clauseTypes? cs := by
  obtain ⟨hblanks, hbraced⟩ := afterBlanks?_brace hbrace b
  rw [clauseTypes?, clauseTypes?, hblanks, takeWhile_append_of_mem hbrace (by decide)]
  cases hrest : afterBlanks? cs with
  | none => rfl
  | some rest =>
    simp only [Option.map_some, Option.bind_eq_bind, Option.bind_some]
    rw [takeWhile_append_of_mem (hbraced rest hrest) (by decide)]

theorem declarationAt?_brace :
    declarationAt? (cs ++ b) = (declarationAt? cs).map (Declaration.extended b) := by
  rw [declarationAt?, declarationAt?, List.map_findSome?]
  congr 1
  funext kind
  have hword : '\x7b' ∉ kind.keyword := by
    cases kind <;> decide
  obtain ⟨hkeyword, hbraced⟩ := afterKeyword?_brace hbrace b hword
  rw [hkeyword, Function.comp_apply]
  cases hrest : afterKeyword? kind.keyword cs with
  | none => rfl
  | some rest =>
    simp only [Option.map_some, Option.bind_eq_bind, Option.bind_some]
    rw [identifier?_brace (hbraced rest hrest)]
    cases identifier? rest <;> rfl

end

variable (b : List Char)

/-! ### Declarations -/

/-- A declaration is found before the brace, whatever follows that, or else behind it. -/
theorem findDeclaration?_split (a : List Char) (inWord : Bool) :
    findDeclaration? inWord (a ++ '\x7b' :: b) =
      ((findDeclaration? inWord (a ++ ['\x7b'])).map (Declaration.extended b)).or
        ((findDeclaration? false b).map fun d => { d with modifiers := a ++ '\x7b' :: d.modifiers }) := by
  -- A brace ends every word, so behind it the search begins anew.
  induction a generalizing inWord with
  | nil =>
    have hnone (rest : List Char) :
        (if inWord then none else declarationAt? ('\x7b' :: rest)) = none := by
      cases inWord <;> rfl
    rw [List.nil_append, List.nil_append, findDeclaration?, findDeclaration?, hnone, hnone]
    rfl
  | cons c a ih =>
    have hbraced : '\x7b' ∈ c :: a ++ ['\x7b'] := by simp
    have hsplit : c :: a ++ '\x7b' :: b = c :: a ++ ['\x7b'] ++ b := by simp
    have hat : (if inWord then none else declarationAt? (c :: (a ++ '\x7b' :: b))) =
        (if inWord then none else declarationAt? (c :: (a ++ ['\x7b']))).map
          (Declaration.extended b) := by
      cases inWord with
      | true => rfl
      | false =>
        have hbrace := declarationAt?_brace hbraced b
        rw [← hsplit] at hbrace
        exact hbrace
    rw [List.cons_append, List.cons_append, findDeclaration?, findDeclaration?, hat]
    cases (if inWord then none else declarationAt? (c :: (a ++ ['\x7b']))) with
    | some d => rfl
    | none =>
      dsimp only [Option.map_none]
      rw [ih]
      cases findDeclaration? (isWord c) (a ++ ['\x7b']) with
      | some d => rfl
      | none => cases findDeclaration? false b <;> rfl

theorem afterKeyword?_suffix {word rest : List Char} (h : afterKeyword? word b = some rest) :
    rest <:+ b := by
  obtain ⟨behind, hbehind, hblanks⟩ := Option.bind_eq_some_iff.mp h
  rw [afterPrefix?] at hbehind
  rw [afterBlanks?] at hblanks
  split at hbehind
  · split at hblanks
    · obtain rfl := Option.some.inj hbehind
      obtain rfl := Option.some.inj hblanks
      exact (List.dropWhile_suffix _).trans (List.drop_suffix _ _)
    · cases hblanks
  · cases hbehind

theorem identifier?_suffix {name header : List Char} (h : identifier? b = some (name, header)) :
    header <:+ b := by
  cases b with
  | nil => cases h
  | cons c b =>
    rw [identifier?] at h
    split at h
    · cases h
      exact (List.dropWhile_suffix _).trans (List.suffix_cons c b)
    · cases h

theorem findDeclaration?_suffix {inWord : Bool} {d : Declaration}
    (h : findDeclaration? inWord b = some d) : d.header <:+ b := by
  induction b generalizing inWord d with
  | nil => cases h
  | cons c b ih =>
    rw [findDeclaration?] at h
    split at h
    · next d' hat =>
      cases inWord with
      | true => cases hat
      | false =>
        cases h
        obtain ⟨kind, -, hkind⟩ := List.exists_of_findSome?_eq_some hat
        obtain ⟨rest, hrest, hname⟩ := Option.bind_eq_some_iff.mp hkind
        obtain ⟨⟨name, header⟩, hidentifier, hd⟩ := Option.bind_eq_some_iff.mp hname
        cases hd
        exact (identifier?_suffix _ hidentifier).trans (afterKeyword?_suffix _ hrest)
    · obtain ⟨d', hd', rfl⟩ := Option.map_eq_some_iff.mp h
      exact (ih hd').trans (List.suffix_cons c b)

theorem findDeclaration?_body {a head : List Char} {inWord : Bool} {d : Declaration}
    (h : findDeclaration? inWord (a ++ '\x7b' :: b) = some d) (hheader : d.header = head ++ '\x7b' :: b)
    (b' : List Char) :
    findDeclaration? inWord (a ++ '\x7b' :: b') = some { d with header := head ++ '\x7b' :: b' } := by
  rw [findDeclaration?_split] at h ⊢
  cases hfound : findDeclaration? inWord (a ++ ['\x7b']) with
  | some d₀ =>
    rw [hfound] at h
    cases h
    have hd₀ : d₀.header = head ++ ['\x7b'] := by
      have hboth : d₀.header ++ b = (head ++ ['\x7b']) ++ b := by simpa [Declaration.extended] using hheader
      exact List.append_cancel_right hboth
    simp [Declaration.extended, hd₀]
  | none =>
    -- Behind the brace there is no room for the brace and what follows it.
    rw [hfound, Option.map_none, Option.none_or] at h
    obtain ⟨d', hd', rfl⟩ := Option.map_eq_some_iff.mp h
    have hlength := (findDeclaration?_suffix b hd').length_le
    have htoo := congrArg List.length hheader
    simp only [List.length_append, List.length_cons] at htoo
    omega

/-! ### Clauses -/

theorem findClause?_split {α : Type} {keyword : List Char} {read : List Char → Option α}
    (hkeyword : ∀ c ∈ keyword, isSegmentChar c = true) (hne : keyword ≠ [])
    (hread : ∀ cs b : List Char, '\x7b' ∈ cs → read (cs ++ b) = read cs) (a : List Char)
    (inWord : Bool) :
    findClause? keyword read inWord (a ++ '\x7b' :: b) =
      (findClause? keyword read inWord (a ++ ['\x7b'])).or (findClause? keyword read false b) := by
  have hword : '\x7b' ∉ keyword := fun hmem => absurd (hkeyword _ hmem) (by decide)
  induction a generalizing inWord with
  | nil =>
    rw [List.nil_append, List.nil_append, findClause?_separator hkeyword hne (by decide),
      findClause?_separator hkeyword hne (by decide)]
    rfl
  | cons c a ih =>
    have hbraced : '\x7b' ∈ c :: a ++ ['\x7b'] := by simp
    have hat : (if inWord then none else (afterPrefix? keyword (c :: (a ++ '\x7b' :: b))).bind read) =
        if inWord then none else (afterPrefix? keyword (c :: (a ++ ['\x7b']))).bind read := by
      cases inWord with
      | true => rfl
      | false =>
        obtain ⟨hbegins, hrest⟩ := afterPrefix?_brace hbraced b hword
        have hsplit : c :: a ++ ['\x7b'] ++ b = c :: (a ++ '\x7b' :: b) := by simp
        rw [hsplit] at hbegins
        rw [if_neg Bool.false_ne_true, if_neg Bool.false_ne_true, hbegins, ← List.cons_append]
        cases hafter : afterPrefix? keyword (c :: a ++ ['\x7b']) with
        | none => rfl
        | some rest => exact hread rest b (hrest rest hafter)
    rw [List.cons_append, List.cons_append, findClause?, findClause?, hat]
    cases (if inWord then none else (afterPrefix? keyword (c :: (a ++ ['\x7b']))).bind read) with
    | some x => rfl
    | none => exact ih _

/-- The superclass before the names of those that every class has are taken out. -/
def superclassClause? (kind : TypeKind) (cs : List Char) : Option (List Char) :=
  if kind = .interfaceType then none else findClause? "extends".toList clauseName? false cs

def interfacesClause? (kind : TypeKind) (cs : List Char) : Option (List String) :=
  findClause? (if kind = .interfaceType then "extends" else "implements").toList clauseTypes? false cs

theorem clauses_split (kind : TypeKind) (a : List Char) :
    superclassClause? kind (a ++ '\x7b' :: b) =
        (superclassClause? kind (a ++ ['\x7b'])).or (superclassClause? kind b) ∧
      interfacesClause? kind (a ++ '\x7b' :: b) =
        (interfacesClause? kind (a ++ ['\x7b'])).or (interfacesClause? kind b) := by
  have hextends := Outline.extends_chars
  have himplements := Outline.implements_chars
  constructor
  · unfold superclassClause?
    split
    · rfl
    · exact findClause?_split b hextends (by decide) (fun _ b h => clauseName?_brace h b) a false
  · unfold interfacesClause?
    split
    · exact findClause?_split b hextends (by decide) (fun _ b h => clauseTypes?_brace h b) a false
    · exact findClause?_split b himplements (by decide) (fun _ b h => clauseTypes?_brace h b) a false

theorem Declaration.superclass_eq (d : Declaration) :
    d.superclass = ((superclassClause? d.kind d.plainHeader).map fun name =>
      if String.ofList name = "Object" ∨ String.ofList name = "java.lang.Object" then ""
      else String.ofList name).getD "" := by
  rw [superclass, superclassClause?]
  split
  · rfl
  · cases findClause? "extends".toList clauseName? false d.plainHeader with
    | none => rfl
    | some name => rfl

theorem Declaration.interfaces_eq (d : Declaration) :
    d.interfaces = (interfacesClause? d.kind d.plainHeader).getD [] :=
  rfl

/-! ### Type arguments -/

/-- No bracket from before the brace is closed behind it. -/
def Parted (head body : List Char) : Prop :=
  (head.foldl Partial.add {}).outer = [] ∨ '>' ∉ body

instance (head body : List Char) : Decidable (Parted head body) :=
  inferInstanceAs (Decidable (_ ∨ _))

theorem joinPieces_concat (outer : List (List Char)) (piece rest : List Char) :
    Partial.joinPieces (outer ++ [piece]) rest =
      piece.reverse ++ '<' :: Partial.joinPieces outer rest := by
  induction outer generalizing rest with
  | nil => rfl
  | cons x outer ih => exact ih _

theorem text_foldl_front (cs q : List Char) :
    (∀ piece, (cs.foldl Partial.add ⟨[], piece ++ q⟩).text =
        q.reverse ++ (cs.foldl Partial.add ⟨[], piece⟩).text) ∧
      ∀ outer first piece, (cs.foldl Partial.add ⟨outer ++ [first ++ q], piece⟩).text =
        q.reverse ++ (cs.foldl Partial.add ⟨outer ++ [first], piece⟩).text := by
  induction cs with
  | nil =>
    refine ⟨fun piece => ?_, fun outer first piece => ?_⟩
    · simp [Partial.text, Partial.joinPieces]
    · simp [Partial.text, joinPieces_concat]
  | cons c cs ih =>
    obtain ⟨hnone, hopen⟩ := ih
    refine ⟨fun piece => ?_, fun outer first piece => ?_⟩
    · rw [List.foldl_cons, List.foldl_cons, Partial.add, Partial.add]
      split
      · exact hopen [] piece []
      · split
        · exact hnone (c :: piece)
        · exact hnone (c :: piece)
    · rw [List.foldl_cons, List.foldl_cons, Partial.add, Partial.add]
      split
      · exact hopen (piece :: outer) first []
      · split
        · cases outer with
          | nil => exact hnone first
          | cons x outer => exact hopen outer first x
        · exact hopen outer first (c :: piece)

theorem dropGroups_split {head : List Char} (h : Parted head b) :
    dropGroups (head ++ '\x7b' :: b) = dropGroups head ++ '\x7b' :: dropGroups b := by
  rw [dropGroups, List.foldl_append, List.foldl_cons, Partial.add_plain (by decide) (by decide)]
  rcases h with hclosed | hplain
  · have hfront := (text_foldl_front b ('\x7b' :: (head.foldl Partial.add {}).piece)).1 []
    have hhead : dropGroups head = (head.foldl Partial.add {}).piece.reverse := by
      rw [dropGroups, Partial.text, hclosed]
      rfl
    rw [hclosed, ← List.nil_append ('\x7b' :: _), hfront, ← dropGroups, hhead]
    simp [dropGroups]
  · have hbody : dropGroups b = b := text_foldl_add hplain {}
    rw [text_foldl_add hplain, Partial.text_cons, hbody, dropGroups, List.append_assoc]
    rfl

/-! ### Bodies -/

/-- The body closes no bracket of the header, and each clause of the type stands before the brace or
is not found behind it either. -/
structure Detached (kind : TypeKind) (head body : List Char) : Prop where
  parted : Parted head body
  superclass : (superclassClause? kind (dropGroups head ++ ['\x7b'])).isSome = true ∨
    superclassClause? kind (dropGroups body) = none
  interfaces : (interfacesClause? kind (dropGroups head ++ ['\x7b'])).isSome = true ∨
    interfacesClause? kind (dropGroups body) = none

instance (kind : TypeKind) (head body : List Char) : Decidable (Detached kind head body) :=
  decidable_of_iff (Parted head body ∧ _ ∧ _)
    ⟨fun h => ⟨h.1, h.2.1, h.2.2⟩, fun h => ⟨h.1, h.2, h.3⟩⟩

theorem or_eq_left {α : Type} {x y : Option α} (h : x.isSome = true ∨ y = none) : x.or y = x := by
  rcases h with h | rfl
  · exact Option.or_of_isSome h
  · exact Option.or_none

theorem declare_body {d : Declaration} {head : List Char} (hheader : d.header = head ++ '\x7b' :: b)
    (hdetached : Detached d.kind head b) (h : Header) :
    h.declare d = h.declare { d with header := head ++ ['\x7b'] } := by
  have hplain : d.plainHeader = dropGroups head ++ '\x7b' :: dropGroups b := by
    rw [Declaration.plainHeader, hheader, dropGroups_split _ hdetached.parted]
  have hbare : ({ d with header := head ++ ['\x7b'] } : Declaration).plainHeader =
      dropGroups head ++ ['\x7b'] :=
    dropGroups_split [] (.inr List.not_mem_nil)
  obtain ⟨hsuperclass, hinterfaces⟩ := clauses_split (dropGroups b) d.kind (dropGroups head)
  rw [or_eq_left hdetached.superclass] at hsuperclass
  rw [or_eq_left hdetached.interfaces] at hinterfaces
  rw [Header.declare, Header.declare, d.superclass_eq, d.interfaces_eq, hplain, hsuperclass,
    hinterfaces, Declaration.superclass_eq, Declaration.interfaces_eq, hbare]
  rfl

end JavaProfile.Source

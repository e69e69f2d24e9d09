import JavaProfile.Proofs.Source.Clause

/-!
Lists of types, also those that end within the type arguments of the last type. Main statement: such
a list is read as the names of its types, unless a part of what was cut off can be taken for a name.
-/

namespace JavaProfile.Source

open Text Partial

/-! ### Lists as they are meant -/

/-- The beginning of a text whose brackets are balanced: no bracket from before it is closed in it. -/
def CutOff (cs : List Char) : Prop :=
  ∃ inner, Balanced inner ∧ cs <+: inner

/-- A name with the blanks around it. -/
structure ListedName where
  before : List Char
  name : List Char
  behind : List Char
  blank_before : before.all isBlank = true
  nonempty : name ≠ []
  chars : name.all isTypeNameChar = true
  blank_behind : behind.all isBlank = true

structure ListedType extends ListedName where
  arguments : TypeArguments
  after : List Char
  blank_after : after.all isBlank = true

/-- A type whose arguments are not closed. -/
structure CutType extends ListedName where
  rest : List Char
  cut : CutOff rest

structure TypeListing where
  types : List ListedType
  /-- The last type, if the list ends within its arguments. -/
  cut : Option CutType

def ListedName.text (n : ListedName) : List Char :=
  n.before ++ (n.name ++ n.behind)

def ListedType.text (t : ListedType) : List Char :=
  t.toListedName.text ++ (t.arguments.text ++ t.after)

def CutType.text (t : CutType) : List Char :=
  t.toListedName.text ++ '<' :: t.rest

/-- The parts of the unclosed arguments behind their first comma. -/
def CutType.openParts (t : CutType) : List (List Char) :=
  (splitOn ',' (dropGroups t.rest)).tail

namespace TypeListing

def text (l : TypeListing) : List Char :=
  joinWith ',' (l.types.map (·.text) ++ l.cut.toList.map (·.text))

def names (l : TypeListing) : List String :=
  l.types.map (String.ofList ·.name) ++ l.cut.toList.map (String.ofList ·.name)

end TypeListing

/-! ### Brackets that stay open -/

theorem foldl_add_group {inner : List Char} (h : Balanced inner) (cs : List Char) (p : Partial) :
    ('<' :: (inner ++ '>' :: cs)).foldl add p = cs.foldl add p := by
  obtain ⟨piece, hpiece⟩ := foldl_add_balanced h ⟨p.piece :: p.outer, []⟩
  rw [List.foldl_cons, add_open, List.foldl_append, hpiece, List.foldl_cons, add_close]

theorem text_foldl_prefix {cs inner : List Char} (h : Balanced inner) (hcs : cs <+: inner)
    (p : Partial) : (cs.foldl add p).text = p.text ++ dropGroups cs := by
  induction h generalizing cs p with
  | nil =>
    rw [List.prefix_nil.mp hcs]
    exact (List.append_nil _).symm
  | @plain c inner hc _ ih =>
    rcases List.prefix_cons_iff.mp hcs with rfl | ⟨rest, rfl, hrest⟩
    · exact (List.append_nil _).symm
    · rw [dropGroups, List.foldl_cons, List.foldl_cons, add_plain hc.1 hc.2, add_plain hc.1 hc.2,
        ih hrest, ih hrest, text_cons]
      exact List.append_assoc ..
  | @group inner behind hinner _ ih ih' =>
    rw [List.cons_append] at hcs
    rcases List.prefix_cons_iff.mp hcs with rfl | ⟨rest, rfl, hrest⟩
    · exact (List.append_nil _).symm
    · -- The text ends within the group, or goes on behind it.
      have hwithin (hrest : rest <+: inner) (p : Partial) :
          (('<' :: rest).foldl add p).text = p.text ++ dropGroups ('<' :: rest) := by
        rw [dropGroups, List.foldl_cons, List.foldl_cons, add_open, add_open, ih hrest, ih hrest,
          text_open, text_open]
        exact List.append_assoc ..
      rcases List.prefix_or_prefix_of_prefix hrest (List.prefix_append inner _) with hrest | ⟨more, rfl⟩
      · exact hwithin hrest p
      · rcases List.prefix_cons_iff.mp ((List.prefix_append_right_inj inner).mp hrest) with
          rfl | ⟨tail, rfl, htail⟩
        · exact hwithin (by simp) p
        · rw [dropGroups, foldl_add_group hinner, foldl_add_group hinner, ih' htail, dropGroups]

/-- A bracket that is not closed remains, with what stands before it. -/
theorem dropGroups_cutOff {front rest : List Char} (hfront : ∀ c ∈ front, isPlain c)
    (h : CutOff rest) : dropGroups (front ++ '<' :: rest) = front ++ '<' :: dropGroups rest := by
  obtain ⟨inner, hinner, hrest⟩ := h
  rw [dropGroups, List.foldl_append, foldl_add_plain hfront, List.foldl_cons, add_open,
    text_foldl_prefix hinner hrest, text_open]
  simp [Partial.text, joinPieces]

/-! ### Parts of a list -/

/-- Parts that leave the same of what has been read can take the place of each other. -/
theorem foldl_add_joinWith {α : Type} {f g : α → List Char} {ts : List α}
    (h : ∀ t ∈ ts, ∀ p, (f t).foldl add p = (g t).foldl add p) (last : List (List Char)) (p : Partial) :
    (joinWith ',' (ts.map f ++ last)).foldl add p = (joinWith ',' (ts.map g ++ last)).foldl add p := by
  induction ts generalizing p with
  | nil => rfl
  | cons t ts ih =>
    have ht := h t List.mem_cons_self
    have hts := ih fun t ht => h t (List.mem_cons_of_mem _ ht)
    by_cases hnone : ts = [] ∧ last = []
    · rw [hnone.1, hnone.2]
      exact ht p
    · have hmore (k : α → List Char) : ts.map k ++ last ≠ [] := by
        simpa [not_and] using hnone
      rw [List.map_cons, List.map_cons, List.cons_append, List.cons_append,
        joinWith_cons ',' _ (hmore f), joinWith_cons ',' _ (hmore g), List.foldl_append,
        List.foldl_append, ht, List.foldl_cons, List.foldl_cons, hts]

theorem forall_mem_joinWith {P : Char → Prop} {sep : Char} (hsep : P sep) {parts : List (List Char)}
    (h : ∀ part ∈ parts, ∀ c ∈ part, P c) : ∀ c ∈ joinWith sep parts, P c := by
  induction parts with
  | nil => exact fun c hc => absurd hc List.not_mem_nil
  | cons part parts ih =>
    have hpart := h part List.mem_cons_self
    by_cases hparts : parts = []
    · rw [hparts]
      exact hpart
    · intro c hc
      rw [joinWith_cons sep part hparts, List.mem_append, List.mem_cons] at hc
      rcases hc with hc | rfl | hc
      · exact hpart c hc
      · exact hsep
      · exact ih (fun part hpart => h part (List.mem_cons_of_mem _ hpart)) c hc

theorem joinWith_concat_append (sep : Char) (parts : List (List Char)) (a b : List Char) :
    joinWith sep (parts ++ [a ++ b]) = joinWith sep (parts ++ [a]) ++ b := by
  induction parts with
  | nil => rfl
  | cons part parts ih =>
    rw [List.cons_append, List.cons_append, joinWith_cons sep _ (by simp),
      joinWith_cons sep _ (by simp), ih, List.append_assoc, List.cons_append]

theorem splitOn_joinWith_concat {sep : Char} {parts : List (List Char)}
    (h : ∀ part ∈ parts, sep ∉ part) (last : List Char) :
    splitOn sep (joinWith sep (parts ++ [last])) = parts ++ splitOn sep last := by
  induction parts with
  | nil => rfl
  | cons part parts ih =>
    rw [List.cons_append, joinWith_cons sep _ (by simp), splitOn_append (h part List.mem_cons_self),
      ih fun part hpart => h part (List.mem_cons_of_mem _ hpart), List.cons_append]

theorem splitOn_append_free {sep : Char} {front : List Char} (h : sep ∉ front) (cs : List Char) :
    ∃ first, splitOn sep (front ++ cs) = (front ++ first) :: (splitOn sep cs).tail := by
  induction front with
  | nil =>
    cases hcs : splitOn sep cs with
    | nil => exact absurd hcs (splitOn_ne_nil sep cs)
    | cons first more => exact ⟨first, hcs⟩
  | cons c front ih =>
    rw [List.mem_cons, not_or] at h
    obtain ⟨first, hfirst⟩ := ih h.2
    refine ⟨first, ?_⟩
    rw [List.cons_append, splitOn, if_neg (Ne.symm h.1), hfirst]
    rfl

/-! ### Names in a list -/

namespace ListedName

variable (n : ListedName)

theorem notMem_text {d : Char} (hblank : isBlank d = false) (hname : isTypeNameChar d = false) :
    d ∉ n.text := by
  intro hd
  rw [text, List.mem_append, List.mem_append] at hd
  rcases hd with hd | hd | hd
  · rw [List.all_eq_true.mp n.blank_before d hd] at hblank
    cases hblank
  · rw [List.all_eq_true.mp n.chars d hd] at hname
    cases hname
  · rw [List.all_eq_true.mp n.blank_behind d hd] at hblank
    cases hblank

theorem isPlain_of_mem {c : Char} (hc : c ∈ n.text) : isPlain c := by
  constructor
  · rintro rfl
    exact n.notMem_text (by decide) (by decide) hc
  · rintro rfl
    exact n.notMem_text (by decide) (by decide) hc

theorem typeName?_append {after rest : List Char} (hafter : after.all isBlank = true)
    (hrest : ∀ c ∈ rest.head?, c = '<') :
    typeName? (n.text ++ (after ++ rest)) = some (String.ofList n.name) := by
  have hblank : ∀ c ∈ n.behind ++ after, isBlank c = true := by
    intro c hc
    rcases List.mem_append.mp hc with hc | hc
    · exact List.all_eq_true.mp n.blank_behind c hc
    · exact List.all_eq_true.mp hafter c hc
  have hname := typeName?_of_chars (List.all_eq_true.mp n.blank_before) n.nonempty
    (List.all_eq_true.mp n.chars) hblank hrest
  simpa only [text, List.append_assoc] using hname

end ListedName

/-- A type without its arguments. -/
def ListedType.plain (t : ListedType) : List Char :=
  t.toListedName.text ++ t.after

/-- A type with what is left of its arguments. -/
def CutType.plain (t : CutType) : List Char :=
  t.toListedName.text ++ '<' :: dropGroups t.rest

theorem ListedType.foldl_add_text (t : ListedType) (p : Partial) :
    t.text.foldl add p = t.plain.foldl add p := by
  rw [text, plain, List.foldl_append, List.foldl_append, foldl_add_arguments, List.foldl_append]

theorem ListedType.isPlain_of_mem (t : ListedType) {c : Char} (hc : c ∈ t.plain) : isPlain c := by
  rcases List.mem_append.mp hc with hc | hc
  · exact t.toListedName.isPlain_of_mem hc
  · have hblank := List.all_eq_true.mp t.blank_after c hc
    constructor <;>
    · rintro rfl
      exact absurd hblank (by decide)

namespace TypeListing

variable (l : TypeListing)

/-- Only the arguments that are cut off are left, without the groups within them. -/
theorem dropGroups_text :
    dropGroups l.text = joinWith ',' (l.types.map (·.plain) ++ l.cut.toList.map (·.plain)) := by
  have hcomma : isPlain ',' := ⟨by decide, by decide⟩
  have htypes : ∀ part ∈ l.types.map (·.plain), ∀ c ∈ part, isPlain c := by
    intro part hpart c hc
    obtain ⟨t, -, rfl⟩ := List.mem_map.mp hpart
    exact t.isPlain_of_mem hc
  rw [dropGroups, text, foldl_add_joinWith fun t _ => t.foldl_add_text, ← dropGroups]
  cases l.cut with
  | none =>
    apply dropGroups_of_plain
    apply forall_mem_joinWith hcomma
    simpa using htypes
  | some t =>
    have hfront : ∀ part ∈ l.types.map (·.plain) ++ [t.toListedName.text], ∀ c ∈ part, isPlain c := by
      intro part hpart c hc
      rcases List.mem_append.mp hpart with hpart | hpart
      · exact htypes part hpart c hc
      · rw [List.mem_singleton.mp hpart] at hc
        exact t.toListedName.isPlain_of_mem hc
    change dropGroups (joinWith ',' (_ ++ [t.toListedName.text ++ '<' :: t.rest])) =
      joinWith ',' (_ ++ [t.toListedName.text ++ '<' :: dropGroups t.rest])
    rw [joinWith_concat_append, joinWith_concat_append,
      dropGroups_cutOff (forall_mem_joinWith hcomma hfront) t.cut]

theorem typeName?_plain (t : ListedType) : typeName? t.plain = some (String.ofList t.name) := by
  have hrest : ∀ c ∈ ([] : List Char).head?, c = '<' := nofun
  have hname := t.toListedName.typeName?_append t.blank_after hrest
  rwa [List.append_nil] at hname

theorem typeNames_text : typeNames l.text =
    l.names ++ (l.cut.toList.flatMap (·.openParts)).filterMap typeName? := by
  have hfree : ∀ part ∈ l.types.map (·.plain), ',' ∉ part := by
    intro part hpart hmem
    obtain ⟨t, -, rfl⟩ := List.mem_map.mp hpart
    rcases List.mem_append.mp hmem with hmem | hmem
    · exact t.toListedName.notMem_text (by decide) (by decide) hmem
    · exact absurd (List.all_eq_true.mp t.blank_after _ hmem) (by decide)
  have htypes : (l.types.map (·.plain)).filterMap typeName? = l.types.map (String.ofList ·.name) := by
    rw [List.filterMap_map, ← List.filterMap_eq_map]
    congr 1
    funext t
    exact typeName?_plain t
  rw [typeNames, dropGroups_text, names]
  cases l.cut with
  | none =>
    by_cases hnone : l.types = []
    · rw [hnone]
      decide
    · simp only [Option.toList_none, List.map_nil, List.append_nil, List.flatMap_nil, List.filterMap_nil]
      rw [splitOn_joinWith (by simpa using hnone) hfree, htypes]
  | some t =>
    have hopen : ',' ∉ t.toListedName.text ++ ['<'] := by
      rw [List.mem_append, not_or]
      exact ⟨t.toListedName.notMem_text (by decide) (by decide), by decide⟩
    obtain ⟨first, hfirst⟩ := splitOn_append_free hopen (dropGroups t.rest)
    have hrest : ∀ c ∈ ('<' :: first).head?, c = '<' := by
      intro c hc
      exact (Option.some.inj hc).symm
    have hblank : ([] : List Char).all isBlank = true := rfl
    have hname : typeName? (t.toListedName.text ++ (['<'] ++ first)) = some (String.ofList t.name) := by
      rw [← t.toListedName.typeName?_append hblank hrest]
      rfl
    simp only [Option.toList_some, List.map_cons, List.map_nil, List.flatMap_singleton]
    rw [splitOn_joinWith_concat hfree, CutType.plain, ← List.singleton_append, ← List.append_assoc,
      hfirst, List.filterMap_append, htypes, List.append_assoc, List.append_assoc,
      List.filterMap_cons_some hname]
    rfl

/-- The names are read and nothing else, exactly if no part behind a comma of the arguments that are
cut off can be taken for a name. -/
theorem typeNames_text_iff :
    typeNames l.text = l.names ↔ ∀ t ∈ l.cut, ∀ part ∈ t.openParts, typeName? part = none := by
  rw [typeNames_text, List.append_right_eq_self, List.filterMap_eq_nil_iff]
  cases l.cut <;> simp

end TypeListing

/-- A map whose arguments end with the line, behind another type. -/
def mapListing : TypeListing where
  types := [⟨⟨[], "A".toList, [], by decide, by decide, by decide, by decide⟩,
    ⟨"<B>".toList, .inr ⟨"B".toList, .of_plain (forall_mem_of_all (by decide)), rfl⟩⟩, [], by decide⟩]
  cut := some ⟨⟨" ".toList, "Map".toList, [], by decide, by decide, by decide, by decide⟩,
    "String, Integer".toList, _, .of_plain (forall_mem_of_all (by decide)), List.prefix_rfl⟩

/-- A type argument behind a comma is taken for a type of the list. -/
theorem typeNames_map :
    mapListing.text = "A<B>, Map<String, Integer".toList ∧
      typeNames mapListing.text = ["A", "Map", "Integer"] ∧ mapListing.names = ["A", "Map"] := by
  decide +kernel

end JavaProfile.Source

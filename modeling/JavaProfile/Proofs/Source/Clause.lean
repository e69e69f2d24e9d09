import JavaProfile.Proofs.Source.Reading

/-!
What the line of a type declares: its name, its kind, and the clauses behind the name, in which type
arguments make no difference.
-/

namespace JavaProfile.Source

open Text Partial

/-! ### Lists of types -/

theorem typeList_cons {ts : List (List Char)} (t : List Char) (h : ts ≠ []) :
    typeList (t :: ts) = t ++ ',' :: ' ' :: typeList ts := by
  cases ts with
  | nil => exact absurd rfl h
  | cons _ _ => rfl

theorem forall_mem_typeList {P : Char → Prop} (hcomma : P ',') (hblank : P ' ')
    {ts : List (List Char)} (h : ∀ t ∈ ts, ∀ c ∈ t, P c) : ∀ c ∈ typeList ts, P c := by
  induction ts with
  | nil => simp [typeList]
  | cons t ts ih =>
    have ht := h t List.mem_cons_self
    by_cases hts : ts = []
    · rw [hts]
      exact ht
    · intro c hc
      rw [typeList_cons t hts, List.mem_append, List.mem_cons, List.mem_cons] at hc
      rcases hc with hc | rfl | rfl | hc
      · exact ht c hc
      · exact hcomma
      · exact hblank
      · exact ih (fun t ht => h t (List.mem_cons_of_mem _ ht)) c hc

/-! ### Type arguments -/

theorem Balanced.of_plain {cs : List Char} (h : ∀ c ∈ cs, c ≠ '<' ∧ c ≠ '>') : Balanced cs := by
  induction cs with
  | nil => exact .nil
  | cons c cs ih =>
    exact .plain (h c List.mem_cons_self) (ih fun d hd => h d (List.mem_cons_of_mem _ hd))

theorem Balanced.append {a b : List Char} (ha : Balanced a) (hb : Balanced b) : Balanced (a ++ b) := by
  induction ha with
  | nil => exact hb
  | plain hc _ ih => exact .plain hc ih
  | group hinner _ _ ih =>
    rw [List.append_assoc, List.cons_append]
    exact .group hinner ih

theorem dropGroups_of_plain {cs : List Char} (h : ∀ c ∈ cs, isPlain c) : dropGroups cs = cs := by
  rw [dropGroups, foldl_add_plain h]
  simp [Partial.text, joinPieces]

/-- What is between brackets leaves no trace but in the piece behind the last open one. -/
theorem foldl_add_balanced {cs : List Char} (h : Balanced cs) (p : Partial) :
    ∃ piece, cs.foldl add p = ⟨p.outer, piece⟩ := by
  induction h generalizing p with
  | nil => exact ⟨p.piece, rfl⟩
  | plain hc _ ih =>
    rw [List.foldl_cons, add_plain hc.1 hc.2]
    exact ih _
  | group _ _ hinner ih =>
    obtain ⟨piece, hpiece⟩ := hinner ⟨p.piece :: p.outer, []⟩
    rw [List.cons_append, List.foldl_cons, add_open, List.foldl_append, hpiece, List.foldl_cons,
      add_close]
    exact ih _

theorem foldl_add_arguments (a : TypeArguments) (p : Partial) : a.text.foldl add p = p := by
  rcases a.closed with h | ⟨inner, hinner, h⟩
  · rw [h, List.foldl_nil]
  · obtain ⟨piece, hpiece⟩ := foldl_add_balanced hinner ⟨p.piece :: p.outer, []⟩
    rw [h, List.cons_append, List.foldl_cons, add_open, List.foldl_append, hpiece, List.foldl_cons,
      add_close, List.foldl_nil]

theorem foldl_add_typeRef (t : TypeRef) (p : Partial) :
    t.text.foldl add p = t.name.text.foldl add p := by
  rw [TypeRef.text, List.foldl_append, foldl_add_arguments]

theorem foldl_add_typeList (ts : List TypeRef) (p : Partial) :
    (typeList (ts.map (·.text))).foldl add p = (typeList (ts.map (·.name.text))).foldl add p := by
  induction ts generalizing p with
  | nil => rfl
  | cons t ts ih =>
    by_cases hts : ts = []
    · rw [hts]
      exact foldl_add_typeRef t p
    · rw [List.map_cons, List.map_cons, typeList_cons _ (by simpa using hts),
        typeList_cons _ (by simpa using hts), List.foldl_append, List.foldl_append,
        foldl_add_typeRef, List.foldl_cons, List.foldl_cons, List.foldl_cons, List.foldl_cons, ih]

namespace Outline

variable (o : Outline)

/-- The clauses without type arguments. -/
def plainClauses : List Char :=
  superclassClause (o.shape.superclass.map (·.name.text)) ++
    interfaceClause o.shape.listWord (o.interfaces.map (·.name.text)) ++ " \x7b".toList

theorem foldl_add_clauses (p : Partial) : o.clauses.foldl add p = o.plainClauses.foldl add p := by
  have hsuperclass (p : Partial) : (superclassClause (o.shape.superclass.map (·.text))).foldl add p =
      (superclassClause (o.shape.superclass.map (·.name.text))).foldl add p := by
    cases o.shape.superclass with
    | none => rfl
    | some t =>
      change (" extends ".toList ++ t.text).foldl add p = (" extends ".toList ++ t.name.text).foldl add p
      rw [List.foldl_append, List.foldl_append, foldl_add_typeRef]
  have hinterfaces (p : Partial) :
      (interfaceClause o.shape.listWord (o.interfaces.map (·.text))).foldl add p =
        (interfaceClause o.shape.listWord (o.interfaces.map (·.name.text))).foldl add p := by
    by_cases hnone : o.interfaces = []
    · rw [hnone]
      rfl
    · rw [interfaceClause, interfaceClause, if_neg (by simpa using hnone),
        if_neg (by simpa using hnone)]
      simp only [List.cons_append, List.foldl_cons, List.foldl_append, foldl_add_typeList]
  rw [clauses, plainClauses]
  simp only [List.foldl_append, hsuperclass, hinterfaces]

theorem listWord_eq :
    o.shape.listWord = "extends".toList ∨ o.shape.listWord = "implements".toList := by
  cases o.shape with
  | interfaceShape => exact .inl rfl
  | classShape | enumShape | recordShape => exact .inr rfl

theorem listWord_chars : ∀ c ∈ o.shape.listWord, isSegmentChar c = true := by
  rcases o.listWord_eq with h | h <;>
  · rw [h]
    exact forall_mem_of_all (by decide)

theorem forall_mem_plainClauses {P : Char → Prop} (hchar : ∀ c, isSegmentChar c = true → P c)
    (hdot : P '.') (hcomma : P ',') (hblank : P ' ') (hbrace : P '\x7b') :
    ∀ c ∈ o.plainClauses, P c := by
  intro c hc
  rw [plainClauses, List.mem_append, List.mem_append] at hc
  rcases hc with (hc | hc) | hc
  · cases hsuper : o.shape.superclass with
    | none =>
      rw [hsuper] at hc
      cases hc
    | some t =>
      rw [hsuper] at hc
      change c ∈ " extends ".toList ++ t.name.text at hc
      rw [List.mem_append] at hc
      rcases hc with hc | hc
      · have hword : ∀ c ∈ " extends ".toList, isSegmentChar c = true ∨ c = ' ' :=
          forall_mem_of_all (by decide)
        rcases hword c hc with h | rfl
        · exact hchar c h
        · exact hblank
      · exact t.name.forall_mem_text hchar hdot c hc
  · rw [interfaceClause] at hc
    split at hc
    · cases hc
    · rw [List.mem_append, List.mem_cons, List.mem_cons] at hc
      rcases hc with (rfl | hc) | rfl | hc
      · exact hblank
      · exact hchar c (o.listWord_chars c hc)
      · exact hblank
      · refine forall_mem_typeList hcomma hblank ?_ c hc
        intro t ht
        obtain ⟨r, -, rfl⟩ := List.mem_map.mp ht
        exact r.name.forall_mem_text hchar hdot
  · have hend : c = ' ' ∨ c = '\x7b' := by simpa using hc
    rcases hend with rfl | rfl
    · exact hblank
    · exact hbrace

theorem dropGroups_clauses : dropGroups (o.parameters.text ++ o.clauses) = o.plainClauses := by
  have hplain : ∀ c ∈ o.plainClauses, isPlain c :=
    o.forall_mem_plainClauses (fun _ h => isPlain_of_isSegmentChar h)
      ⟨by decide, by decide⟩ ⟨by decide, by decide⟩ ⟨by decide, by decide⟩ ⟨by decide, by decide⟩
  rw [dropGroups, List.foldl_append, foldl_add_arguments, foldl_add_clauses]
  exact dropGroups_of_plain hplain

end Outline

/-! ### Words of a header -/

section Clauses

variable {α : Type} {keyword : List Char} {read : List Char → Option α} {rest : List Char}

theorem findClause?_found {a : α} (hne : keyword ≠ []) (h : read rest = some a) :
    findClause? keyword read false (keyword ++ rest) = some a := by
  cases keyword with
  | nil => exact absurd rfl hne
  | cons c cs =>
    rw [List.cons_append, findClause?, if_neg Bool.false_ne_true, ← List.cons_append,
      afterPrefix?_append, Option.bind_some, h]

variable (hkeyword : ∀ c ∈ keyword, isSegmentChar c = true) (hne : keyword ≠ [])

include hkeyword hne

theorem findClause?_separator {c : Char} (hc : isWord c = false) (inWord : Bool) :
    findClause? keyword read inWord (c :: rest) = findClause? keyword read false rest := by
  have hnone : (if inWord then none else (afterPrefix? keyword (c :: rest)).bind read) = none := by
    cases inWord with
    | true => rfl
    | false =>
      rw [if_neg Bool.false_ne_true, afterPrefix?, if_neg]
      · rfl
      · cases keyword with
        | nil => exact absurd rfl hne
        | cons d ds =>
          have hd := isWord_of_isSegmentChar (hkeyword d List.mem_cons_self)
          rw [List.isPrefixOf_cons_cons, Bool.and_eq_true, beq_iff_eq]
          rintro ⟨rfl, -⟩
          rw [hc] at hd
          cases hd
  rw [findClause?, hnone, hc]

omit hkeyword hne in
theorem findClause?_inWord {word : List Char} (hword : ∀ c ∈ word, isSegmentChar c = true) :
    findClause? keyword read true (word ++ rest) = findClause? keyword read true rest := by
  induction word with
  | nil => rfl
  | cons c word ih =>
    rw [List.cons_append, findClause?, if_pos rfl,
      isWord_of_isSegmentChar (hword c List.mem_cons_self)]
    exact ih fun d hd => hword d (List.mem_cons_of_mem _ hd)

variable (hread : ∀ c cs, isBlank c = false → read (c :: cs) = none)

include hread

theorem findClause?_word {word : List Char} (hword : ∀ c ∈ word, isSegmentChar c = true)
    (hother : word ≠ keyword) (hrest : ∀ c ∈ rest.head?, isSegmentChar c = false) :
    findClause? keyword read false (word ++ rest) = findClause? keyword read (word ≠ []) rest := by
  cases word with
  | nil => rfl
  | cons c word =>
    have hnone : (afterPrefix? keyword (c :: word ++ rest)).bind read = none := by
      rw [afterPrefix?]
      split
      · next hprefix =>
        obtain ⟨behind, hbehind⟩ := List.isPrefixOf_iff_prefix.mp hprefix
        rw [← hbehind, List.drop_left, Option.bind_some]
        rcases List.append_eq_append_iff.mp hbehind with ⟨more, hmore, rfl⟩ | ⟨more, rfl, rfl⟩
        · cases more with
          | nil =>
            rw [List.append_nil] at hmore
            exact absurd hmore hother
          | cons d more =>
            exact hread d _ (isBlank_of_isSegmentChar (hword d (by rw [hmore]; simp)))
        · cases more with
          | nil =>
            rw [List.append_nil] at hother
            exact absurd rfl hother
          | cons d more =>
            have hd := hrest d rfl
            rw [hkeyword d (by simp)] at hd
            cases hd
      · rfl
    rw [List.cons_append] at hnone ⊢
    rw [findClause?, if_neg Bool.false_ne_true, hnone,
      isWord_of_isSegmentChar (hword c List.mem_cons_self)]
    dsimp only
    rw [findClause?_inWord fun d hd => hword d (List.mem_cons_of_mem _ hd)]
    rfl

theorem findClause?_name (n : DottedName) (hnot : ∀ s : Segment, s.text ≠ keyword) {c : Char}
    (hc : isWord c = false) :
    findClause? keyword read false (n.text ++ c :: rest) = findClause? keyword read false rest := by
  have hsegment (s : Segment) {d : Char} (hd : isWord d = false) (more : List Char) :
      findClause? keyword read false (s.text ++ d :: more) = findClause? keyword read false more := by
    have hnoSegment : ∀ e ∈ (d :: more).head?, isSegmentChar e = false := by
      intro e he
      cases he
      exact not_isSegmentChar hd
    rw [findClause?_word hkeyword hne hread (fun _ h => s.isSegmentChar_of_mem h) (hnot s) hnoSegment,
      findClause?_separator hkeyword hne hd]
  apply n.text_induction (P := fun cs =>
    findClause? keyword read false (cs ++ c :: rest) = findClause? keyword read false rest)
  · intro s
    exact hsegment s hc rest
  · intro s cs ih
    rw [List.append_assoc, List.cons_append, hsegment s (by decide), ih]

theorem findClause?_typeList (ts : List DottedName) (hnot : ∀ s : Segment, s.text ≠ keyword)
    {c : Char} (hc : isWord c = false) :
    findClause? keyword read false (typeList (ts.map (·.text)) ++ c :: rest) =
      findClause? keyword read false rest := by
  induction ts with
  | nil => exact findClause?_separator hkeyword hne hc false
  | cons t ts ih =>
    by_cases hts : ts = []
    · rw [hts]
      exact findClause?_name hkeyword hne hread t hnot hc
    · rw [List.map_cons, typeList_cons _ (by simpa using hts), List.append_assoc, List.cons_append,
        List.cons_append, findClause?_name hkeyword hne hread t hnot (by decide),
        findClause?_separator hkeyword hne (by decide), ih]

end Clauses

/-! ### What follows the words -/

theorem clauseName?_of_not_blank {c : Char} (cs : List Char) (hc : isBlank c = false) :
    clauseName? (c :: cs) = none := by
  rw [clauseName?, afterBlanks?, if_neg (by simpa using hc)]
  rfl

theorem clauseTypes?_of_not_blank {c : Char} (cs : List Char) (hc : isBlank c = false) :
    clauseTypes? (c :: cs) = none := by
  rw [clauseTypes?, afterBlanks?, if_neg (by simpa using hc)]
  rfl

theorem DottedName.head_not_blank (n : DottedName) (rest : List Char) :
    (n.text ++ rest).head?.any isBlank = false := by
  obtain ⟨c, cs, htext, hc⟩ := n.text_eq_cons
  have hsegment : isSegmentChar c = true := by
    rw [isSegmentChar, Char.isAlphanum, hc]
    rfl
  rw [htext]
  exact isBlank_of_isSegmentChar hsegment

theorem clauseName?_text (n : DottedName) {rest : List Char}
    (hrest : rest.head?.any isNameChar = false) :
    clauseName? (' ' :: (n.text ++ rest)) = some n.text := by
  rw [clauseName?, afterBlanks?_cons (n.head_not_blank rest)]
  change (dottedName? (n.text ++ rest)).bind _ = _
  rw [dottedName?_text n hrest]
  rfl

/-! ### Reading a list of types -/

theorem DottedName.not_blank (n : DottedName) : ∀ c ∈ n.text, isBlank c = false :=
  n.forall_mem_text (fun _ => isBlank_of_isSegmentChar) (by decide)

theorem isBlank_of_isTypeNameChar {c : Char} (h : isTypeNameChar c = true) : isBlank c = false := by
  rw [isTypeNameChar, Bool.or_eq_true] at h
  rcases h with hname | hdollar
  · exact isBlank_of_isNameChar hname
  · rw [eq_of_beq hdollar]
    decide

theorem ne_open_of_isBlank {c : Char} (h : isBlank c = true) : c ≠ '<' := by
  rintro rfl
  exact absurd h (by decide)

theorem ne_open_of_isTypeNameChar {c : Char} (h : isTypeNameChar c = true) : c ≠ '<' := by
  rintro rfl
  exact absurd h (by decide)

theorem typeName?_of_chars {before name after rest : List Char}
    (hbefore : ∀ c ∈ before, isBlank c = true) (hne : name ≠ [])
    (hname : ∀ c ∈ name, isTypeNameChar c = true) (hafter : ∀ c ∈ after, isBlank c = true)
    (hrest : ∀ c ∈ rest.head?, c = '<') :
    typeName? (before ++ (name ++ after) ++ rest) = some (String.ofList name) := by
  have hopen : ∀ c ∈ before ++ (name ++ after), decide (c ≠ '<') = true := by
    intro c hc
    rw [decide_eq_true_eq]
    rw [List.mem_append, List.mem_append] at hc
    rcases hc with hc | hc | hc
    · exact ne_open_of_isBlank (hbefore c hc)
    · exact ne_open_of_isTypeNameChar (hname c hc)
    · exact ne_open_of_isBlank (hafter c hc)
  have hstop : rest.head?.any (· ≠ '<') = false := by
    cases rest with
    | nil => rfl
    | cons c rest =>
      rw [hrest c rfl]
      rfl
  rw [typeName?, (takeWhile_append_stop hopen hstop).1,
    trim_append hbefore (fun c hc => isBlank_of_isTypeNameChar (hname c hc)) hne hafter]
  exact if_pos ⟨hne, List.all_eq_true.mpr hname⟩

theorem typeName?_text (n : DottedName) (before after : List Char)
    (hbefore : ∀ c ∈ before, c = ' ') (hafter : ∀ c ∈ after, c = ' ') :
    typeName? (before ++ (n.text ++ after)) = some (String.ofList n.text) := by
  have hblank {cs : List Char} (h : ∀ c ∈ cs, c = ' ') : ∀ c ∈ cs, isBlank c = true := by
    intro c hc
    rw [h c hc]
    decide
  have hchars : ∀ c ∈ n.text, isTypeNameChar c = true := by
    refine n.forall_mem_text (fun c h => ?_) (by decide)
    rw [isTypeNameChar, isWord_of_isSegmentChar h]
    rfl
  have hrest : ∀ c ∈ ([] : List Char).head?, c = '<' := nofun
  have hname := typeName?_of_chars (hblank hbefore) n.text_ne_nil hchars (hblank hafter) hrest
  rwa [List.append_nil] at hname

theorem splitOn_typeList (ts : List DottedName) (hne : ts ≠ []) (before : List Char)
    (hbefore : ∀ c ∈ before, c = ' ') :
    (splitOn ',' (before ++ (typeList (ts.map (·.text)) ++ [' ']))).filterMap typeName? =
      ts.map (String.ofList ·.text) := by
  have hcomma (n : DottedName) : ',' ∉ n.text := fun h =>
    n.forall_mem_text (P := (· ≠ ',')) (fun _ h => ne_of_isSegmentChar h (by decide)) (by decide) _ h
      rfl
  have hfree : ',' ∉ before := fun h => absurd (hbefore _ h) (by decide)
  induction ts generalizing before with
  | nil => exact absurd rfl hne
  | cons t ts ih =>
    by_cases hts : ts = []
    · have hname := typeName?_text t before [' '] hbefore (by simp)
      have hnone : ',' ∉ before ++ (t.text ++ [' ']) := by
        simp [hfree, hcomma t]
      rw [hts, List.map_cons, List.map_nil, typeList, splitOn_free hnone, List.filterMap_cons, hname]
      rfl
    · have hname := typeName?_text t before [] hbefore (by simp)
      have hpart : ',' ∉ before ++ t.text := by
        simp [hfree, hcomma t]
      have htail := ih hts [' '] (by simp) (by simp)
      rw [List.append_nil] at hname
      rw [List.map_cons, typeList_cons _ (by simpa using hts), List.append_assoc, ← List.append_assoc,
        List.cons_append, splitOn_append hpart, List.filterMap_cons, hname, List.cons_append]
      exact congrArg _ htail

theorem clauseTypes?_typeList (ts : List DottedName) (hne : ts ≠ []) :
    clauseTypes? (' ' :: (typeList (ts.map (·.text)) ++ " \x7b".toList)) =
      some (ts.map (String.ofList ·.text)) := by
  have hchars {P : Char → Prop} (hchar : ∀ c, isSegmentChar c = true → P c) (hdot : P '.')
      (hcomma : P ',') (hblank : P ' ') : ∀ c ∈ typeList (ts.map (·.text)) ++ [' '], P c := by
    intro c hc
    rw [List.mem_append, List.mem_singleton] at hc
    rcases hc with hc | rfl
    · refine forall_mem_typeList hcomma hblank ?_ c hc
      intro t ht
      obtain ⟨n, -, rfl⟩ := List.mem_map.mp ht
      exact n.forall_mem_text hchar hdot
    · exact hblank
  have hhead : (typeList (ts.map (·.text)) ++ " \x7b".toList).head?.any isBlank = false := by
    cases ts with
    | nil => exact absurd rfl hne
    | cons t ts =>
      by_cases hts : ts = []
      · rw [hts]
        exact t.head_not_blank _
      · rw [List.map_cons, typeList_cons _ (by simpa using hts), List.append_assoc]
        exact t.head_not_blank _
  have hbody : (typeList (ts.map (·.text)) ++ " \x7b".toList).takeWhile (· ≠ '\x7b') =
      typeList (ts.map (·.text)) ++ [' '] := by
    have hsplit : typeList (ts.map (·.text)) ++ " \x7b".toList =
        (typeList (ts.map (·.text)) ++ [' ']) ++ ['\x7b'] := by
      rw [List.append_assoc]
      rfl
    rw [hsplit]
    refine (takeWhile_append_stop (fun c hc => ?_) (by decide)).1
    rw [decide_eq_true_eq]
    exact hchars (fun _ h => ne_of_isSegmentChar h (by decide)) (by decide) (by decide) (by decide) c hc
  have hplain : ∀ c ∈ typeList (ts.map (·.text)) ++ [' '], isPlain c :=
    hchars (fun _ h => isPlain_of_isSegmentChar h) ⟨by decide, by decide⟩ ⟨by decide, by decide⟩
      ⟨by decide, by decide⟩
  have hnames := splitOn_typeList ts hne [] (by simp)
  rw [clauseTypes?, afterBlanks?_cons hhead]
  change (if (typeList (ts.map (·.text)) ++ " \x7b".toList).takeWhile (· ≠ '\x7b') ≠ [] then _
    else _) = _
  rw [hbody, if_pos (by simp), typeNames, dropGroups_of_plain hplain]
  exact congrArg some hnames

/-! ### Reading the clauses -/

section

variable {α : Type} {keyword : List Char} {read : List Char → Option α}

theorem findClause?_brace (hkeyword : ∀ c ∈ keyword, isSegmentChar c = true) (hne : keyword ≠ []) :
    findClause? keyword read false " \x7b".toList = none := by
  change findClause? keyword read false [' ', '\x7b'] = none
  rw [findClause?_separator hkeyword hne (by decide), findClause?_separator hkeyword hne (by decide)]
  rfl

namespace Outline

theorem interfaceClause_cons (word : List Char) {ts : List DottedName} (hne : ts ≠ []) :
    interfaceClause word (ts.map (·.text)) ++ " \x7b".toList =
      ' ' :: (word ++ ' ' :: (typeList (ts.map (·.text)) ++ " \x7b".toList)) := by
  rw [interfaceClause, if_neg (by simpa using hne)]
  simp

theorem findClause?_interfaceClause (hkeyword : ∀ c ∈ keyword, isSegmentChar c = true)
    (hne : keyword ≠ []) (hread : ∀ c cs, isBlank c = false → read (c :: cs) = none)
    (hnot : ∀ s : Segment, s.text ≠ keyword) {word : List Char} (hword : ∀ c ∈ word, isSegmentChar c = true)
    (hother : word ≠ keyword) (ts : List DottedName) :
    findClause? keyword read false (interfaceClause word (ts.map (·.text)) ++ " \x7b".toList) =
      none := by
  by_cases hts : ts = []
  · rw [hts]
    exact findClause?_brace hkeyword hne
  · have hblank : ∀ c ∈ (' ' :: (typeList (ts.map (·.text)) ++ " \x7b".toList)).head?,
        isSegmentChar c = false := by
      intro c hc
      cases hc
      decide
    change _ = none
    rw [interfaceClause_cons word hts, findClause?_separator hkeyword hne (by decide),
      findClause?_word hkeyword hne hread hword hother hblank,
      findClause?_separator hkeyword hne (by decide)]
    change findClause? keyword read false (typeList (ts.map (·.text)) ++ ' ' :: ['\x7b']) = none
    rw [findClause?_typeList hkeyword hne hread ts hnot (by decide),
      findClause?_separator hkeyword hne (by decide)]
    rfl

theorem superclassClause_some (n : DottedName) (rest : List Char) :
    superclassClause (some n.text) ++ rest = ' ' :: ("extends".toList ++ ' ' :: (n.text ++ rest)) := by
  change (" extends ".toList ++ n.text) ++ rest = _
  simp

end Outline

end

namespace Outline

variable (o : Outline)

theorem extends_chars : ∀ c ∈ "extends".toList, isSegmentChar c = true :=
  forall_mem_of_all (by decide)

theorem implements_chars : ∀ c ∈ "implements".toList, isSegmentChar c = true :=
  forall_mem_of_all (by decide)

theorem map_interfaces :
    o.interfaces.map (·.name.text) = (o.interfaces.map (·.name)).map (·.text) := by
  rw [List.map_map]
  rfl

theorem rest_eq_cons (word : List Char) (ts : List DottedName) :
    ∃ cs, interfaceClause word (ts.map (·.text)) ++ " \x7b".toList = ' ' :: cs := by
  by_cases hts : ts = []
  · rw [hts]
    exact ⟨['\x7b'], rfl⟩
  · exact ⟨_, interfaceClause_cons word hts⟩

theorem findClause?_extends (h : o.shape.kind ≠ .interfaceType) :
    findClause? "extends".toList clauseName? false o.plainClauses =
      o.shape.superclass.map (·.name.text) := by
  have hword : o.shape.listWord = "implements".toList := by
    cases hshape : o.shape with
    | interfaceShape => exact absurd (by rw [hshape]; rfl) h
    | classShape | enumShape | recordShape => rfl
  have hread := @clauseName?_of_not_blank
  rw [plainClauses, map_interfaces, hword, List.append_assoc]
  cases o.shape.superclass with
  | none =>
    exact findClause?_interfaceClause extends_chars (by decide) (fun _ cs hc => hread cs hc)
      (fun s => s.notClause.1) implements_chars (by decide) _
  | some t =>
    obtain ⟨cs, hrest⟩ := rest_eq_cons "implements".toList (o.interfaces.map (·.name))
    rw [hrest]
    change findClause? _ _ _ (superclassClause (some t.name.text) ++ ' ' :: cs) = _
    rw [superclassClause_some, findClause?_separator extends_chars (by decide) (by decide)]
    have hblank : isNameChar ' ' = false := by decide
    exact findClause?_found (by decide) (clauseName?_text t.name hblank)

/-- Only a class has a superclass, and a class names its interfaces behind `implements`. -/
theorem listWord_of_superclass {t : TypeRef} (h : o.shape.superclass = some t) :
    o.shape.listWord = "implements".toList := by
  cases hshape : o.shape with
  | classShape => rfl
  | interfaceShape | enumShape | recordShape =>
    rw [hshape] at h
    cases h

theorem findClause?_listWord :
    (findClause? o.shape.listWord clauseTypes? false o.plainClauses).getD [] =
      o.interfaces.map fun t => String.ofList t.name.text := by
  have hread := @clauseTypes?_of_not_blank
  have hne : o.shape.listWord ≠ [] := by
    rcases o.listWord_eq with h | h <;>
    · rw [h]
      decide
  have hlist : (findClause? o.shape.listWord clauseTypes? false
      (interfaceClause o.shape.listWord ((o.interfaces.map (·.name)).map (·.text)) ++
        " \x7b".toList)).getD [] = o.interfaces.map fun t => String.ofList t.name.text := by
    by_cases hts : o.interfaces = []
    · rw [hts]
      exact congrArg (Option.getD · []) (findClause?_brace o.listWord_chars hne)
    · rw [interfaceClause_cons _ (by simpa using hts),
        findClause?_separator o.listWord_chars hne (by decide),
        findClause?_found hne (clauseTypes?_typeList _ (by simpa using hts)), List.map_map]
      rfl
  rw [plainClauses, map_interfaces, List.append_assoc]
  -- A superclass comes first, and neither the word of its clause nor its name is the one looked for.
  cases hsuper : o.shape.superclass with
  | none => exact hlist
  | some t =>
    have hword := o.listWord_of_superclass hsuper
    obtain ⟨cs, hrest⟩ := rest_eq_cons o.shape.listWord (o.interfaces.map (·.name))
    have hblank : ∀ c ∈ (' ' :: (t.name.text ++ ' ' :: cs)).head?, isSegmentChar c = false := by
      intro c hc
      cases hc
      decide
    have hnot : ∀ s : Segment, s.text ≠ o.shape.listWord := by
      rw [hword]
      exact fun s => s.notClause.2
    have hother : "extends".toList ≠ o.shape.listWord := by
      rw [hword]
      decide
    rw [← hlist, hrest]
    change (findClause? _ _ _ (superclassClause (some t.name.text) ++ ' ' :: cs)).getD [] = _
    rw [superclassClause_some, findClause?_separator o.listWord_chars hne (by decide),
      findClause?_word o.listWord_chars hne (fun _ cs hc => hread cs hc) extends_chars hother hblank,
      findClause?_separator o.listWord_chars hne (by decide),
      findClause?_name o.listWord_chars hne (fun _ cs hc => hread cs hc) t.name hnot (by decide),
      findClause?_separator o.listWord_chars hne (by decide)]

/-! ### Finding the type -/

end Outline

theorem identifier?_text (name : Segment) {header : List Char}
    (hheader : header.head?.any isIdentifierChar = false) :
    identifier? (name.text ++ header) = some (name.text, header) := by
  obtain ⟨c, cs, htext, hc⟩ := name.text_eq_cons
  have hchars : ∀ d ∈ cs, isIdentifierChar d = true := by
    intro d hd
    have hsegment := name.isSegmentChar_of_mem (htext ▸ List.mem_cons_of_mem c hd)
    rw [isIdentifierChar, isWord_of_isSegmentChar hsegment, Bool.true_or]
  have hstart : isIdentifierStart c = true := by
    rw [isIdentifierStart, hc]
    rfl
  obtain ⟨htake, hdrop⟩ := takeWhile_append_stop hchars hheader
  rw [htext, List.cons_append, identifier?, if_pos hstart, htake, hdrop]

theorem afterKeyword?_other {k kind : TypeKind} (h : k ≠ kind) (rest : List Char) :
    afterKeyword? k.keyword (kind.keyword ++ rest) = none := by
  cases k <;> cases kind <;> first | exact absurd rfl h | rfl

theorem declarationAt?_keyword (kind : TypeKind) (name : Segment) {header : List Char}
    (hheader : header.head?.any isIdentifierChar = false) :
    declarationAt? (kind.keyword ++ ' ' :: (name.text ++ header)) =
      some ⟨[], kind, name.text, header⟩ := by
  have hname : (name.text ++ header).head?.any isBlank = false := by
    obtain ⟨c, cs, htext, -⟩ := name.text_eq_cons
    have hc := name.isSegmentChar_of_mem (htext ▸ List.mem_cons_self)
    rw [htext]
    exact isBlank_of_isSegmentChar hc
  have hother {k : TypeKind} (h : k ≠ kind) := afterKeyword?_other h (' ' :: (name.text ++ header))
  have hkind := afterKeyword?_append kind.keyword hname
  have hidentifier := identifier?_text name hheader
  cases kind <;>
    simp [declarationAt?, TypeKind.all, hother, hkind, hidentifier, List.findSome?]

theorem findDeclaration?_word {word : List Char} (hword : ∀ c ∈ word, isWord c = true)
    (rest : List Char) :
    findDeclaration? true (word ++ ' ' :: rest) =
      (findDeclaration? false rest).map fun d => { d with modifiers := word ++ ' ' :: d.modifiers } := by
  induction word with
  | nil =>
    have hblank : isWord ' ' = false := by decide
    rw [List.nil_append, findDeclaration?, if_pos rfl, hblank]
    rfl
  | cons c word ih =>
    rw [List.cons_append, findDeclaration?, if_pos rfl, hword c List.mem_cons_self]
    dsimp only
    rw [ih fun d hd => hword d (List.mem_cons_of_mem _ hd), Option.map_map]
    rfl

/-- A modifier is passed over, if no keyword starts with its first letter. -/
theorem findDeclaration?_modifier {c : Char} {word : List Char}
    (hnone : ∀ cs, declarationAt? (c :: cs) = none) (hword : ∀ d ∈ c :: word, isWord d = true)
    (rest : List Char) :
    findDeclaration? false (c :: word ++ ' ' :: rest) =
      (findDeclaration? false rest).map fun d =>
        { d with modifiers := c :: word ++ ' ' :: d.modifiers } := by
  rw [List.cons_append, findDeclaration?, if_neg Bool.false_ne_true, hnone,
    hword c List.mem_cons_self]
  dsimp only
  rw [findDeclaration?_word fun d hd => hword d (List.mem_cons_of_mem _ hd), Option.map_map]
  rfl

theorem findDeclaration?_optional {c : Char} {word : List Char}
    (hnone : ∀ cs, declarationAt? (c :: cs) = none) (hword : ∀ d ∈ c :: word, isWord d = true)
    (b : Bool) (rest : List Char) :
    findDeclaration? false ((if b then c :: word ++ [' '] else []) ++ rest) =
      (findDeclaration? false rest).map fun d =>
        { d with modifiers := (if b then c :: word ++ [' '] else []) ++ d.modifiers } := by
  cases b with
  | false => simp
  | true =>
    rw [if_pos rfl, List.append_assoc, List.singleton_append, findDeclaration?_modifier hnone hword]
    simp

namespace Outline

variable (o : Outline)

/-- What the line of the type declares. -/
def declaration : Declaration where
  modifiers := o.modifiers
  kind := o.shape.kind
  name := o.name.text
  header := o.parameters.text ++ o.clauses

theorem clauses_eq_cons : ∃ cs, o.clauses = ' ' :: cs := by
  rw [clauses, List.append_assoc]
  cases o.shape.superclass with
  | some t => exact ⟨_, rfl⟩
  | none =>
    rw [interfaceClause]
    split
    · exact ⟨_, rfl⟩
    · exact ⟨_, rfl⟩

theorem header_not_identifier :
    (o.parameters.text ++ o.clauses).head?.any isIdentifierChar = false := by
  rcases o.parameters.closed with h | ⟨inner, -, h⟩
  · obtain ⟨cs, hcs⟩ := o.clauses_eq_cons
    rw [h, hcs]
    change isIdentifierChar ' ' = false
    decide
  · rw [h]
    change isIdentifierChar '<' = false
    decide

theorem findDeclaration?_line : findDeclaration? false o.declarationLine = some o.declaration := by
  have hfound := declarationAt?_keyword o.shape.kind o.name o.header_not_identifier
  have hkeyword : findDeclaration? false (o.shape.kind.keyword ++ ' ' ::
      (o.name.text ++ (o.parameters.text ++ o.clauses))) =
      some ⟨[], o.shape.kind, o.name.text, o.parameters.text ++ o.clauses⟩ := by
    cases hkind : o.shape.kind <;>
    · rw [hkind] at hfound
      simp only [TypeKind.keyword, List.cons_append] at hfound ⊢
      rw [findDeclaration?, if_neg Bool.false_ne_true, hfound]
  have hpublic := findDeclaration?_optional (c := 'p') (fun _ => rfl)
    (show ∀ d ∈ 'p' :: "ublic".toList, isWord d = true from forall_mem_of_all (by decide)) o.isPublic
  have habstract := findDeclaration?_optional (c := 'a') (fun _ => rfl)
    (show ∀ d ∈ 'a' :: "bstract".toList, isWord d = true from forall_mem_of_all (by decide))
    o.shape.isAbstract
  have hmodifiers : o.modifiers = (if o.isPublic then 'p' :: "ublic".toList ++ [' '] else []) ++
      if o.shape.isAbstract then 'a' :: "bstract".toList ++ [' '] else [] := rfl
  rw [declarationLine, declaration, hmodifiers, List.append_assoc, hpublic, habstract, hkeyword]
  simp only [Option.map_some, List.append_nil]

theorem ofLine_declarationLine : Statement.ofLine o.declarationLine = .declaration o.declaration := by
  have hpackage : "package ".toList.isPrefixOf o.declarationLine = false := by
    rw [declarationLine, modifiers]
    cases o.isPublic <;> cases o.shape.isAbstract <;> cases o.shape.kind <;> rfl
  have himport : "import ".toList.isPrefixOf o.declarationLine = false := by
    rw [declarationLine, modifiers]
    cases o.isPublic <;> cases o.shape.isAbstract <;> cases o.shape.kind <;> rfl
  have hannotated : "@".toList.isPrefixOf o.declarationLine = false := by
    rw [declarationLine, modifiers]
    cases o.isPublic <;> cases o.shape.isAbstract <;> cases o.shape.kind <;> rfl
  rw [Statement.ofLine, hpackage, himport, hannotated, o.findDeclaration?_line]
  rfl

/-! ### What is declared -/

theorem occursIn_modifiers : ∀ isPublic isAbstract : Bool, occursIn "abstract ".toList
    ((if isPublic then "public ".toList else []) ++ if isAbstract then "abstract ".toList else []) =
      isAbstract := by
  decide

theorem isAbstract_declaration : o.declaration.isAbstract = o.shape.isAbstract := by
  rw [Declaration.isAbstract]
  change (o.shape.kind ≠ .interfaceType && occursIn "abstract ".toList o.modifiers) = _
  rw [modifiers, occursIn_modifiers]
  cases o.shape <;> rfl

theorem plainHeader_declaration : o.declaration.plainHeader = o.plainClauses :=
  o.dropGroups_clauses

theorem superclass_declaration : o.declaration.superclass = o.superclassName := by
  by_cases hkind : o.declaration.kind = .interfaceType
  · have hnone : o.shape.superclass = none := by
      cases hshape : o.shape with
      | classShape =>
        rw [declaration, hshape] at hkind
        cases hkind
      | interfaceShape | enumShape | recordShape => rfl
    rw [Declaration.superclass, if_pos hkind, superclassName, hnone]
    decide
  · rw [Declaration.superclass, if_neg hkind, plainHeader_declaration, o.findClause?_extends hkind,
      superclassName]
    cases o.shape.superclass <;> rfl

theorem interfaces_declaration :
    o.declaration.interfaces = o.interfaces.map fun t => String.ofList t.name.text := by
  have hword : (if o.declaration.kind = .interfaceType then "extends" else "implements").toList =
      o.shape.listWord := by
    change (if o.shape.kind = .interfaceType then "extends" else "implements").toList = _
    cases o.shape <;> rfl
  have hclause := o.findClause?_listWord
  rw [← o.plainHeader_declaration, ← hword] at hclause
  exact hclause

end Outline

end JavaProfile.Source

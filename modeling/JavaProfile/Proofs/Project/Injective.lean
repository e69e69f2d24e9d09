import JavaProfile.Proofs.Number.Numeral
import JavaProfile.Proofs.Project.Listing
import JavaProfile.Proofs.Text.Utf8

/-!
What can be told from the text of which the checksum is taken. Its lines are apart where no path
begins like a whole line with a line break behind it.
-/

namespace JavaProfile

namespace SourceFact

variable {f g : SourceFact} {facts facts' : List SourceFact}

/-- The path begins like the line of another source and a line break. -/
def Mimics (f g : SourceFact) : Prop :=
  ∃ rest, f.path = g.line ++ "\n" ++ rest

theorem not_mimics (h : '\n' ∉ f.path.toList) (g : SourceFact) : ¬ f.Mimics g := by
  rintro ⟨rest, hrest⟩
  rw [hrest] at h
  simp at h

/-! ### Lines -/

theorem toList_line (f : SourceFact) :
    f.line.toList =
      (f.path.toList ++ ':' :: (toString f.size).toList) ++ ':' :: (toString f.seconds).toList := by
  simp [line]

theorem notMem_size {c : Char} (hc : c.isDigit = false) (n : ℕ) : c ∉ (toString n).toList := by
  intro h
  rw [isDigit_of_mem_digits h] at hc
  cases hc

theorem notMem_seconds {c : Char} (hc : c.isDigit = false) (hminus : c ≠ '-') (n : ℤ) :
    c ∉ (toString n).toList := by
  rw [Int.toString_eq_repr, Int.repr_eq_if]
  split
  · exact notMem_size hc _
  · rw [String.toList_append, List.mem_append]
    rintro (h | h)
    · exact hminus (List.mem_singleton.mp h)
    · exact notMem_size hc _ h

theorem append_cons_inj {c : Char} {a a' b b' : List Char} (hb : c ∉ b) (hb' : c ∉ b')
    (h : a ++ c :: b = a' ++ c :: b') : a = a' ∧ b = b' := by
  rcases List.append_eq_append_iff.mp h with ⟨as, rfl, htail⟩ | ⟨as, rfl, htail⟩
  all_goals
    cases as with
    | nil => simp_all
    | cons d as =>
      obtain ⟨rfl, rfl⟩ := List.cons_eq_cons.mp htail
      simp at hb hb'

theorem line_injective : Function.Injective line := by
  intro f g h
  have hchars := congrArg String.toList h
  rw [toList_line, toList_line] at hchars
  obtain ⟨hfront, hseconds⟩ := append_cons_inj (notMem_seconds (by decide) (by decide) _)
    (notMem_seconds (by decide) (by decide) _) hchars
  obtain ⟨hpath, hsize⟩ := append_cons_inj (notMem_size (by decide) _) (notMem_size (by decide) _)
    hfront
  have hnat : f.size = g.size := Nat.repr_inj.mp (String.toList_inj.mp hsize)
  have hint : f.seconds = g.seconds := Int.repr_inj.mp (String.toList_inj.mp hseconds)
  cases f
  cases g
  simp_all [String.toList_inj]

theorem mimics_of_begins (h : g.line.toList ++ ['\n'] <+: f.line.toList) : f.Mimics g := by
  obtain ⟨more, hmore⟩ := h
  rw [toList_line f, List.append_assoc, List.append_assoc, List.cons_append, List.nil_append] at hmore
  have htail : '\n' ∉ ':' :: (toString f.size).toList ++ ':' :: (toString f.seconds).toList := by
    rw [List.cons_append, List.mem_cons, List.mem_append, List.mem_cons, not_or, not_or, not_or]
    exact ⟨by decide, notMem_size (by decide) _, by decide, notMem_seconds (by decide) (by decide) _⟩
  rcases List.append_eq_append_iff.mp hmore with ⟨as, hpath, has⟩ | ⟨as, -, has⟩
  · cases as with
    | nil =>
      rw [List.nil_append] at has
      exact absurd (has ▸ List.mem_cons_self) htail
    | cons d as =>
      obtain ⟨rfl, -⟩ := List.cons_eq_cons.mp has
      refine ⟨String.ofList as, String.toList_inj.mp ?_⟩
      simp [hpath]
  · exact absurd (has ▸ by simp) htail

/-! ### Listings -/

theorem intercalate_cons (a : List Char) (lines : List (List Char)) :
    ∃ tail, ['\n'].intercalate (a :: lines) = a ++ tail ∧
      (tail = [] ∧ lines = [] ∨ tail = '\n' :: ['\n'].intercalate lines ∧ lines ≠ []) := by
  cases lines with
  | nil => exact ⟨[], by simp, .inl ⟨rfl, rfl⟩⟩
  | cons b lines =>
    refine ⟨_, ?_, .inr ⟨rfl, List.cons_ne_nil _ _⟩⟩
    rw [List.intercalate_cons_cons, List.append_assoc]
    rfl

theorem first_line_inj {a b tail tail' : List Char} (hab : ¬ a ++ ['\n'] <+: b)
    (hba : ¬ b ++ ['\n'] <+: a) (htail : ∀ c ∈ tail.head?, c = '\n')
    (htail' : ∀ c ∈ tail'.head?, c = '\n') (h : a ++ tail = b ++ tail') :
    a = b ∧ tail = tail' := by
  rcases List.append_eq_append_iff.mp h with ⟨as, rfl, rfl⟩ | ⟨as, rfl, rfl⟩
  all_goals
    cases as with
    | nil => simp
    | cons d as =>
      have hbreak : d = '\n' := by simp_all
      simp [hbreak] at hab hba

/-- Lines of which none begins another with a line break behind it are told from their text. -/
theorem intercalate_inj {lines lines' : List (List Char)} (hne : [] ∉ lines) (hne' : [] ∉ lines')
    (h : ∀ a ∈ lines, ∀ b ∈ lines', ¬ a ++ ['\n'] <+: b ∧ ¬ b ++ ['\n'] <+: a)
    (htext : ['\n'].intercalate lines = ['\n'].intercalate lines') : lines = lines' := by
  -- No first line begins the other one, so both are equal and the rest goes by induction.
  induction lines generalizing lines' with
  | nil =>
    cases lines' with
    | nil => rfl
    | cons b lines' =>
      obtain ⟨tail, htail, -⟩ := intercalate_cons b lines'
      rw [htail, List.intercalate_nil, eq_comm, List.append_eq_nil_iff] at htext
      exact absurd (htext.1 ▸ List.mem_cons_self) hne'
  | cons a lines ih =>
    obtain ⟨tail, htail, hends⟩ := intercalate_cons a lines
    cases lines' with
    | nil =>
      rw [htail, List.intercalate_nil, List.append_eq_nil_iff] at htext
      exact absurd (htext.1 ▸ List.mem_cons_self) hne
    | cons b lines' =>
      obtain ⟨tail', htail', hends'⟩ := intercalate_cons b lines'
      obtain ⟨hab, hba⟩ := h a List.mem_cons_self b List.mem_cons_self
      rw [htail, htail'] at htext
      obtain ⟨rfl, rfl⟩ := first_line_inj hab hba
        (by rcases hends with ⟨rfl, -⟩ | ⟨rfl, -⟩ <;> simp)
        (by rcases hends' with ⟨rfl, -⟩ | ⟨rfl, -⟩ <;> simp) htext
      rcases hends with ⟨rfl, rfl⟩ | ⟨rfl, -⟩
      · rcases hends' with ⟨-, rfl⟩ | ⟨hbreak, -⟩
        · rfl
        · cases hbreak
      · rcases hends' with ⟨hbreak, -⟩ | ⟨hrest, -⟩
        · cases hbreak
        · have hcross : ∀ a ∈ lines, ∀ b ∈ lines', ¬ a ++ ['\n'] <+: b ∧ ¬ b ++ ['\n'] <+: a :=
            fun a ha b hb => h a (List.mem_cons_of_mem _ ha) b (List.mem_cons_of_mem _ hb)
          rw [ih (fun hnil => hne (List.mem_cons_of_mem _ hnil))
            (fun hnil => hne' (List.mem_cons_of_mem _ hnil)) hcross (List.cons_eq_cons.mp hrest).2]

theorem toList_listing (facts : List SourceFact) :
    (listing facts).toList = ['\n'].intercalate
      (((facts.map line).mergeSort fun a b => decide (a ≤ b)).map String.toList) := by
  rw [listing, String.toList_intercalate]
  rfl

theorem mem_lines {cs : List Char} :
    cs ∈ ((facts.map line).mergeSort fun a b => decide (a ≤ b)).map String.toList ↔
      ∃ f ∈ facts, f.line.toList = cs := by
  simp [List.mem_mergeSort]

theorem line_ne_nil (f : SourceFact) : f.line.toList ≠ [] := by
  rw [toList_line]
  simp

theorem listing_perm (h : facts.Perm facts') : listing facts = listing facts' := by
  rw [listing, mergeSort_texts (h.map line), listing]

/-- The text tells which facts it was made of, up to their order. -/
theorem listing_inj (h : ∀ f ∈ facts, ∀ f' ∈ facts', ¬ f.Mimics f' ∧ ¬ f'.Mimics f)
    (htext : listing facts = listing facts') : facts.Perm facts' := by
  have hchars := congrArg String.toList htext
  rw [toList_listing, toList_listing] at hchars
  have hnil (facts : List SourceFact) :
      [] ∉ ((facts.map line).mergeSort fun a b => decide (a ≤ b)).map String.toList := by
    rw [mem_lines]
    rintro ⟨f, -, hf⟩
    exact line_ne_nil f hf
  have hlines := intercalate_inj (hnil facts) (hnil facts') (fun a ha b hb => by
    obtain ⟨f, hf, rfl⟩ := mem_lines.mp ha
    obtain ⟨f', hf', rfl⟩ := mem_lines.mp hb
    obtain ⟨hff', hf'f⟩ := h f hf f' hf'
    exact ⟨fun hbegins => hf'f (mimics_of_begins hbegins), fun hbegins => hff' (mimics_of_begins hbegins)⟩)
    hchars
  have hsorted := List.map_injective_iff.mpr (fun _ _ heq => String.toList_injective heq) hlines
  have hback := List.mergeSort_perm (facts'.map line) fun a b => decide (a ≤ b)
  rw [← hsorted] at hback
  have hperm : (facts.map line).Perm (facts'.map line) := (List.mergeSort_perm _ _).symm.trans hback
  exact (List.map_perm_map_iff line_injective).mp hperm

end SourceFact

/-! ### Texts of trees -/

namespace Project

variable {τ τ' : Type} [FileTree τ] [FileTree τ'] {p p' : Project} {t : τ} {t' : τ'}

/-- The text of which the checksum is taken. -/
def sourceText (p : Project) (t : τ) : Except Failure String :=
  ((p.mainEntries t).mapError Failure.tree).bind fun entries =>
    (p.listing entries).mapError Failure.number

theorem checksum_sourceText (p : Project) (t : τ) :
    p.checksum t = (p.sourceText t).map fun text => Sha256.digest (Text.encode text) := by
  rw [checksum_eq, sourceText]
  cases p.mainEntries t <;> rfl

/-- The two texts are different, and yet have one checksum. -/
def Collide (p : Project) (t : τ) (p' : Project) (t' : τ') : Prop :=
  ∃ text text', p.sourceText t = .ok text ∧ p'.sourceText t' = .ok text' ∧
    Text.encode text ≠ Text.encode text' ∧
    Sha256.digest (Text.encode text) = Sha256.digest (Text.encode text')

/-- Neither tree has a source that mimics one of the other tree. -/
def Unmistakable [FindingTree τ] [FindingTree τ'] (p : Project) (t : τ) (p' : Project) (t' : τ') :
    Prop :=
  ∀ f f', p.Covers t f → p'.Covers t' f' → ¬ f.Mimics f' ∧ ¬ f'.Mimics f

theorem Collide.checksum_eq (h : p.Collide t p' t') : p.checksum t = p'.checksum t' := by
  obtain ⟨text, text', htext, htext', -, hdigest⟩ := h
  rw [checksum_sourceText, checksum_sourceText, htext, htext']
  exact congrArg Except.ok hdigest

theorem Collide.of_checksum {k : String} (hk : p.checksum t = .ok k)
    (hk' : p'.checksum t' = .ok k)
    (h : ∀ text text', p.sourceText t = .ok text → p'.sourceText t' = .ok text' → text ≠ text') :
    p.Collide t p' t' := by
  rw [checksum_sourceText] at hk hk'
  cases htext : p.sourceText t with
  | error e =>
    rw [htext] at hk
    cases hk
  | ok text =>
    cases htext' : p'.sourceText t' with
    | error e =>
      rw [htext'] at hk'
      cases hk'
    | ok text' =>
      rw [htext] at hk
      rw [htext'] at hk'
      have hdigests := (Except.ok.inj hk).trans (Except.ok.inj hk').symm
      exact ⟨text, text', htext, htext', fun heq => h text text' htext htext' (Text.encode_injective heq),
        hdigests⟩

variable [FindingTree τ] [FindingTree τ']

theorem sourceText_of_mainEntries {entries : List FileEntry} (ht : FindingTree.Orderly t)
    (h : p.mainEntries t = .ok entries) :
    p.sourceText t = .ok (SourceFact.listing (p.facts entries)) := by
  have hfacts : ∀ e ∈ entries, ∃ f, e.fact p.directory = .ok f := fun e he =>
    FileEntry.exists_fact _
      (FindingTree.whole_of_finds ht (((mainEntries_lists ht h).2 e).mp he).1)
  rw [sourceText, h]
  change (p.listing entries).mapError Failure.number = _
  rw [listing_facts p hfacts]
  rfl

theorem sourceText_ok {text : String} (ht : FindingTree.Orderly t)
    (h : p.sourceText t = .ok text) : ∃ entries, p.mainEntries t = .ok entries ∧
      text = SourceFact.listing (p.facts entries) := by
  cases hentries : p.mainEntries t with
  | error cause =>
    rw [sourceText, hentries] at h
    cases h
  | ok entries =>
    rw [sourceText_of_mainEntries ht hentries] at h
    exact ⟨entries, rfl, (Except.ok.inj h).symm⟩

theorem sourceText_in_memory {t : MemoryTree} {facts : List SourceFact} (ht : t.Orderly)
    (h : t.hasDirectory (MemoryTree.key (p.sourceRoot .main).text) = true)
    (hfacts : p.facts (t.sourcesUnder (MemoryTree.key (p.sourceRoot .main).text)) = facts) :
    p.sourceText t = .ok (SourceFact.listing facts) := by
  obtain ⟨entries, hentries, hperm⟩ := mainEntries_in_memory h
  have hsame : (p.facts entries).Perm facts := hfacts ▸ hperm.filterMap _
  rw [sourceText_of_mainEntries ht hentries, SourceFact.listing_perm hsame]

theorem covers_of_sourceText {text : String} (ht : FindingTree.Orderly t)
    (ht' : FindingTree.Orderly t') (hapart : p.Unmistakable t p' t')
    (h : p.sourceText t = .ok text) (h' : p'.sourceText t' = .ok text) (f : SourceFact) :
    p.Covers t f ↔ p'.Covers t' f := by
  obtain ⟨entries, hentries, rfl⟩ := sourceText_ok ht h
  obtain ⟨entries', hentries', htext⟩ := sourceText_ok ht' h'
  have hperm := SourceFact.listing_inj (fun g hg g' hg' => hapart g g'
    ((covers_iff ht hentries).mpr hg) ((covers_iff ht' hentries').mpr hg')) htext
  rw [covers_iff ht hentries, covers_iff ht' hentries', hperm.mem_iff]

end Project

end JavaProfile

import JavaProfile.Proofs.Profile.Lock
import JavaProfile.Proofs.Store.Use
import JavaProfile.Proofs.Tree.Recorded

/-!
What a cache keeps. As long as the cached profile protects a field, whatever is done with the cache
returns and writes profiles that protect it too and give it the same value.
-/

namespace JavaProfile.Cache

open Work

/-! ### Documents -/

/-- A text that is read, at any time, as a profile that holds a value. -/
def Document (c : Cache) (f : Field) (v : f.member.Value) (text : String) : Prop :=
  ∀ now, ∃ q, (c.parse now text).result = .ok (some q) ∧ q.Holds f v

variable {c user : Cache} {f : Field} {v : f.member.Value} {p : Profile} {text : String}

theorem document_of_parse {now : Timestamp} (hf : f.Lockable)
    (h : (c.parse now text).result = .ok (some p)) (hp : p.Holds f v) : c.Document f v text := by
  intro later
  obtain ⟨q, hq, hsame⟩ := parse_later h later
  exact ⟨q, by rw [hq]; rfl, hp.of_stamped hf.ne_detectedAt hsame⟩

theorem document_of_storable (c : Cache) (hp : p.Storable) (h : p.Holds f v) :
    c.Document f v p.document := by
  intro now
  exact ⟨p, by rw [parse_document hp]; rfl, h⟩

theorem profilePath_congr (h : user.project.directory = c.project.directory) :
    user.profilePath = c.profilePath := by
  rw [profilePath, directory, h, profilePath, directory]

theorem Document.congr (h : user.project.directory = c.project.directory)
    (hdocument : user.Document f v text) : c.Document f v text := by
  intro now
  have hparse : user.parse now text = c.parse now text := by
    rw [parse, fieldsOf, profilePath_congr h, parse, fieldsOf]
  rw [← hparse]
  exact hdocument now

/-! ### Sessions -/

variable {τ : Type} [FileTree τ] {s s' : Session (Recorded τ)} {base : List WriteRecord}

/-- The cached profile holds a value, and so does every profile that was written since. -/
structure Kept (c : Cache) (f : Field) (v : f.member.Value) (base : List WriteRecord)
    (s : Session (Recorded τ)) : Prop where
  cached : ∃ text, FileTree.read s.tree c.profilePath.text = .ok text ∧ c.Document f v text
  written : s.tree.WrittenSince base fun w => w.path = c.profilePath.text → c.Document f v w.data

namespace Kept

theorem congr (h : user.project.directory = c.project.directory) (hkept : user.Kept f v base s) :
    c.Kept f v base s := by
  obtain ⟨⟨text, hread, hdocument⟩, new, hnew, hwritten⟩ := hkept
  rw [profilePath_congr h] at hread hwritten
  exact ⟨⟨text, hread, hdocument.congr h⟩, new, hnew, fun w hw hpath => (hwritten w hw hpath).congr h⟩

theorem of_tree (hkept : c.Kept f v base s) (htree : s'.tree = s.tree) : c.Kept f v base s' := by
  obtain ⟨hcached, hwritten⟩ := hkept
  rw [← htree] at hcached hwritten
  exact ⟨hcached, hwritten⟩

variable [LawfulTree τ]

theorem load (hkept : c.Kept f v base s) (now : Timestamp) :
    ∃ q, (c.load s.tree now).result = .ok (some q) ∧ q.Storable ∧ q.Holds f v := by
  obtain ⟨text, hread, hdocument⟩ := hkept.cached
  obtain ⟨q, hq, hholds⟩ := hdocument now
  rw [load_of_read hread]
  exact ⟨q, hq, storable_of_parse hq, hholds⟩

theorem place (hkept : c.Kept f v base s) :
    ∃ l, LawfulTree.place? s.tree c.profilePath.text = some l := by
  obtain ⟨text, hread, -⟩ := hkept.cached
  exact LawfulTree.place?_of_read hread

end Kept

theorem writeProfile_failed {e : Failure} {s₂ : Session (Recorded τ)}
    (h : runs (c.writeProfile p) s = (.error e, s₂)) : ¬ s₂.tree.AllWritten := by
  have hstate := c.writeProfile_state p s
  rw [h] at hstate
  obtain rfl : s₂ = _ := hstate
  intro hall
  have hresult := hall _ (List.mem_append_right _ (List.mem_singleton.mpr rfl))
  rw [writeProfile, runs_bind, runs_change] at h
  dsimp only at h
  rw [show (FileTree.write s.tree s.clock c.profilePath.text p.document).2 = .ok () from hresult]
    at h
  cases h

variable [LawfulTree τ]

/-- The checksum has led elsewhere all the time if it does so in the end. -/
theorem Apart.of_grows (h : c.Apart s'.tree) (hgrows : s.tree.Grows s'.tree)
    (hplace : ∃ l, LawfulTree.place? s.tree c.profilePath.text = some l) : c.Apart s.tree := by
  intro heq
  obtain ⟨l, hl⟩ := hplace
  have hprofile : LawfulTree.place? s'.tree c.profilePath.text = some l := hgrows.place hl
  have hchecksum : LawfulTree.place? s'.tree c.checksumPath.text = some l :=
    hgrows.place (heq.trans hl)
  exact h (hchecksum.trans hprofile.symm)

theorem Apart.congr (h : user.project.directory = c.project.directory)
    (hapart : user.Apart s.tree) : c.Apart s.tree := by
  have hchecksum : user.checksumPath = c.checksumPath := by
    rw [checksumPath, directory, h, checksumPath, directory]
  intro heq
  apply hapart
  rw [hchecksum, profilePath_congr h]
  exact heq

/-! ### Saving -/

theorem makeDirectory_grows (c : Cache) (s : Session (Recorded τ)) :
    s.tree.Grows (runs c.makeDirectory s).2.tree := by
  rw [makeDirectory_state]
  exact .makeDirectories _ _

theorem writeProfile_grows (c : Cache) (p : Profile) (s : Session (Recorded τ)) :
    s.tree.Grows (runs (c.writeProfile p) s).2.tree := by
  rw [writeProfile_state]
  exact .write _ _ _ _

theorem sealSources_grows (c : Cache) (s : Session (Recorded τ)) :
    s.tree.Grows (runs c.sealSources s).2.tree := by
  rcases c.sealSources_tree s with htree | ⟨checksum, -, htree⟩
  · rw [htree]
    exact .refl _
  · rw [htree]
    exact .write _ _ _ _

theorem save_grows (c : Cache) (p : Profile) (s : Session (Recorded τ)) :
    s.tree.Grows (runs (c.save p) s).2.tree := by
  have hdirectory := c.makeDirectory_grows s
  have hprofile := c.writeProfile_grows (p.stamped s.now) (runs c.makeDirectory s).2
  rcases c.save_cases p s with ⟨e, -, hsave⟩ | ⟨e, s₂, hwrite, hsave⟩ | ⟨s₂, -, hwrite, hsave⟩
  · rw [hsave]
    exact hdirectory
  · rw [hwrite] at hprofile
    rw [hsave]
    exact hdirectory.trans hprofile
  · rw [hwrite] at hprofile
    rw [hsave]
    exact (hdirectory.trans hprofile).trans (c.sealSources_grows s₂)

theorem makeDirectory_kept (hkept : c.Kept f v base s) :
    c.Kept f v base (runs c.makeDirectory s).2 := by
  obtain ⟨⟨text, hread, hdocument⟩, hwritten⟩ := hkept
  rw [makeDirectory_state]
  exact ⟨⟨text, LawfulTree.read_makeDirectories hread _, hdocument⟩, hwritten⟩

theorem writeProfile_kept (hkept : c.Kept f v base s) (hp : p.Storable) (hholds : p.Holds f v)
    (hok : (runs (c.writeProfile p) s).1 = .ok ()) :
    c.Kept f v base (runs (c.writeProfile p) s).2 := by
  have hdocument := document_of_storable c hp hholds
  have hwrite := c.writeProfile_ok p s hok
  rw [writeProfile_state]
  exact ⟨⟨p.document, LawfulTree.read_write hp.notMem_document (Prod.ext rfl hwrite), hdocument⟩,
    hkept.written.write fun _ => hdocument⟩

theorem sealSources_kept (hkept : c.Kept f v base s)
    (hapart : c.Apart (runs c.sealSources s).2.tree) :
    c.Kept f v base (runs c.sealSources s).2 := by
  obtain ⟨⟨text, hread, hdocument⟩, hwritten⟩ := hkept
  refine ⟨⟨text, sealSources_read hapart hread, hdocument⟩, ?_⟩
  rcases c.sealSources_tree s with htree | ⟨checksum, -, htree⟩
  · rw [htree]
    exact hwritten
  · rw [htree]
    refine hwritten.write fun hpath => absurd ?_ hapart
    rw [show c.checksumPath.text = c.profilePath.text from hpath]

theorem save_kept (hf : f.Lockable) (hkept : c.Kept f v base s) (hp : p.Storable)
    (hholds : p.Holds f v) (hwritten : (runs (c.save p) s).2.tree.AllWritten)
    (hapart : c.Apart (runs (c.save p) s).2.tree) :
    c.Kept f v base (runs (c.save p) s).2 ∧
      ∀ q, (runs (c.save p) s).1 = .ok q → q.Storable ∧ q.Holds f v := by
  have hdirectory := makeDirectory_kept hkept
  have hstamped := hholds.stamped hf.ne_detectedAt s.now
  rcases c.save_cases p s with ⟨e, -, hsave⟩ | ⟨e, s₂, hwrite, hsave⟩ | ⟨s₂, -, hwrite, hsave⟩
  · rw [hsave]
    exact ⟨hdirectory, fun q hq => by cases hq⟩
  · rw [hsave] at hwritten
    exact absurd hwritten (writeProfile_failed hwrite)
  · have hprofile := writeProfile_kept hdirectory (hp.stamped s.now) hstamped (by rw [hwrite])
    rw [hwrite] at hprofile
    rw [hsave] at hapart ⊢
    refine ⟨sealSources_kept hprofile hapart, fun q hq => ?_⟩
    dsimp only at hq
    cases hseal : (runs c.sealSources s₂).1 with
    | error e =>
      rw [hseal] at hq
      cases hq
    | ok =>
      rw [hseal] at hq
      cases hq
      exact ⟨hp.stamped s.now, hstamped⟩

/-! ### Loading or detecting -/

theorem saveIfPossible_kept (hf : f.Lockable) (hkept : c.Kept f v base s) (hp : p.Storable)
    (hholds : p.Holds f v) (hwritten : (runs (c.saveIfPossible p) s).2.tree.AllWritten)
    (hapart : c.Apart (runs (c.saveIfPossible p) s).2.tree) :
    c.Kept f v base (runs (c.saveIfPossible p) s).2 ∧
      ∀ q, (runs (c.saveIfPossible p) s).1 = .ok q → q.Storable ∧ q.Holds f v := by
  obtain ⟨s', hquiet, hrun⟩ := c.saveIfPossible_runs s p
  rw [hrun] at hwritten hapart ⊢
  dsimp only at hwritten hapart
  rw [hquiet.tree] at hwritten hapart
  obtain ⟨hsaved, hresult⟩ := save_kept hf hkept hp hholds hwritten hapart
  refine ⟨hsaved.of_tree hquiet.tree, fun q hq => ?_⟩
  dsimp only at hq
  cases hsave : (runs (c.save p) s).1 with
  | ok q' =>
    rw [hsave] at hq
    cases hq
    exact hresult q hsave
  | error e =>
    rw [hsave] at hq
    cases e
    case cache fault =>
      cases hq
      cases fault
      case write => exact ⟨hp.stamped _, hholds.stamped hf.ne_detectedAt _⟩
      all_goals exact ⟨hp, hholds⟩
    all_goals cases hq

theorem detectAgain_kept (hf : f.Lockable) (hkept : c.Kept f v base s)
    (hwritten : (runs c.detectAgain s).2.tree.AllWritten)
    (hapart : c.Apart (runs c.detectAgain s).2.tree) :
    c.Kept f v base (runs c.detectAgain s).2 ∧
      ∀ q, (runs c.detectAgain s).1 = .ok q → q.Storable ∧ q.Holds f v := by
  rcases c.detectAgain_cases s with ⟨e, s', hquiet, hrun, -⟩ |
    ⟨previous, scan, s', hquiet, hprevious, -, hrun⟩
  · rw [hrun]
    exact ⟨hkept.of_tree hquiet.tree, fun q hq => by cases hq⟩
  · obtain ⟨q, hload, hstorable, hholds⟩ := hkept.load s.now
    rw [hload] at hprevious
    obtain rfl : some q = previous := Except.ok.inj hprevious
    rw [hrun] at hwritten hapart ⊢
    exact saveIfPossible_kept hf (hkept.of_tree hquiet.tree)
      ((scan.storable_profile _ _).carry hstorable) (hholds.carry _) hwritten hapart

theorem loadOrDetect_kept (hf : f.Lockable) (hkept : c.Kept f v base s) (refresh : Bool)
    (hwritten : (runs (c.loadOrDetect refresh) s).2.tree.AllWritten)
    (hapart : c.Apart (runs (c.loadOrDetect refresh) s).2.tree) :
    c.Kept f v base (runs (c.loadOrDetect refresh) s).2 ∧
      ∀ q, (runs (c.loadOrDetect refresh) s).1 = .ok q → q.Storable ∧ q.Holds f v := by
  rcases c.loadOrDetect_cases s refresh with ⟨e, s', hquiet, hrun, -⟩ |
    ⟨p, s', hquiet, hrun, -, -, hload⟩ | ⟨s', hquiet, hrun, -⟩
  · rw [hrun]
    exact ⟨hkept.of_tree hquiet.tree, fun q hq => by cases hq⟩
  · obtain ⟨q, hload', hstorable, hholds⟩ := hkept.load s.now
    rw [hload] at hload'
    cases hload'
    rw [hrun]
    refine ⟨hkept.of_tree hquiet.tree, fun q hq => ?_⟩
    cases hq
    exact ⟨hstorable, hholds⟩
  · rw [hrun] at hwritten hapart ⊢
    exact detectAgain_kept hf (hkept.of_tree hquiet.tree) hwritten hapart

theorem saveIfPossible_grows (c : Cache) (p : Profile) (s : Session (Recorded τ)) :
    s.tree.Grows (runs (c.saveIfPossible p) s).2.tree := by
  obtain ⟨s', hquiet, hrun⟩ := c.saveIfPossible_runs s p
  rw [hrun]
  dsimp only
  rw [hquiet.tree]
  exact c.save_grows p s

theorem detectAgain_grows (c : Cache) (s : Session (Recorded τ)) :
    s.tree.Grows (runs c.detectAgain s).2.tree := by
  rcases c.detectAgain_cases s with ⟨e, s', hquiet, hrun, -⟩ | ⟨previous, scan, s', hquiet, -, -, hrun⟩
  · rw [hrun]
    dsimp only
    rw [hquiet.tree]
    exact .refl _
  · rw [hrun, ← hquiet.tree]
    exact c.saveIfPossible_grows _ s'

theorem loadOrDetect_grows (c : Cache) (refresh : Bool) (s : Session (Recorded τ)) :
    s.tree.Grows (runs (c.loadOrDetect refresh) s).2.tree := by
  rcases c.loadOrDetect_cases s refresh with ⟨e, s', hquiet, hrun, -⟩ |
    ⟨p, s', hquiet, hrun, -⟩ | ⟨s', hquiet, hrun, -⟩
  · rw [hrun]
    dsimp only
    rw [hquiet.tree]
    exact .refl _
  · rw [hrun]
    dsimp only
    rw [hquiet.tree]
    exact .refl _
  · rw [hrun, ← hquiet.tree]
    exact c.detectAgain_grows s'

end JavaProfile.Cache

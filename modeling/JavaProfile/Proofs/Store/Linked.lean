import JavaProfile.Proofs.Store.Root
import JavaProfile.Proofs.Store.Use
import JavaProfile.Proofs.Tree.Disk
import JavaProfile.Proofs.Tree.Names
import JavaProfile.Proofs.Tree.Recorded

/-!
A disk with a project at its root that is nothing but its cache, where the checksum is a link to the
profile. What is written as the checksum is read as the profile, so the checksum is what remains of
both. Where the two files lie apart, saving and loading are inverse to each other.
-/

namespace JavaProfile.DiskTree

def profileLocation : Location := [".stackprint", "profile.json"]

structure Linked (t : DiskTree) : Prop where
  directory : t.node? [".stackprint"] = some .directory
  checksum : t.node? [".stackprint", "checksum"] = some (.link "profile.json")
  profile : t.Open profileLocation
  others {name : String} (h : name ≠ ".stackprint") : t.node? [name] = none

namespace Linked

variable {t : DiskTree} {aim : Aim}

theorem startOf_single (l : Location) : startOf l .single = [] :=
  rfl

theorem resolve_directory (h : Linked t) (links : ℕ) {rest : List String} (hrest : rest ≠ [""]) :
    resolve t aim links [] (".stackprint" :: rest) = resolve t aim links [".stackprint"] rest :=
  resolve_enter ⟨by decide, by decide, fun hfile => hrest hfile.2, by decide +kernel⟩ h.directory

theorem resolve_checksum (h : Linked t) (haim : aim ≠ .name) (links : ℕ) :
    resolve t aim (links + 1) [".stackprint"] ["checksum"] =
      resolve t aim links [".stackprint"] ["profile.json"] := by
  have henters : Enters aim "checksum" [] := ⟨by decide, by decide, by simp, by decide +kernel⟩
  have hstart : startOf [".stackprint"] (Path.rootOf "profile.json".toList) = [".stackprint"] := by
    decide +kernel
  have htarget : targetParts "profile.json" = ["profile.json"] := by decide +kernel
  rw [resolve_follow henters h.checksum fun hname => haim hname.2, hstart, htarget, List.append_nil]

/-- Where the profile is, or is to be. -/
def place (t : DiskTree) : Place :=
  match t.node? profileLocation with
  | some n => .taken profileLocation n
  | none => .free profileLocation

theorem resolve_profile (h : Linked t) (links : ℕ) :
    resolve t aim links [".stackprint"] ["profile.json"] = .ok (Linked.place t) := by
  have henters : Enters aim "profile.json" [] := ⟨by decide, by decide, by simp, by decide +kernel⟩
  rw [resolve_iff, Linked.place]
  rcases h.profile with hnone | ⟨bytes, hfile⟩
  · rw [hnone]
    exact .free henters hnone
  · rw [hfile]
    exact .file henters hfile

theorem resolve_other (h : Linked t) {name : String} (hname : IsName name)
    (hne : name ≠ ".stackprint") (hlong : ¬ maxNameBytes < name.utf8ByteSize) (links : ℕ)
    (rest : List String) :
    resolve t .target links [] (name :: rest) =
      if rest = [] then .ok (.free [name]) else .error .noEntry :=
  resolve_missing (enters_of_isName hname (by simp) (Nat.not_lt.mp hlong)) (h.others hne)

theorem locate_profile (h : Linked t) :
    t.locate aim ("/.stackprint/profile.json" : Path) = .ok (Linked.place t) := by
  apply locate_of_resolve (noNul (by decide +kernel)) (by decide +kernel)
  have hparts : ("/.stackprint/profile.json" : Path).parts = [".stackprint", "profile.json"] := by
    decide +kernel
  have hroot : ("/.stackprint/profile.json" : Path).root = .single := by decide +kernel
  rw [hparts, hroot]
  exact (h.resolve_directory _ (by simp)).trans (h.resolve_profile _)

theorem locate_checksum (h : Linked t) (haim : aim ≠ .name) :
    t.locate aim ("/.stackprint/checksum" : Path) = .ok (Linked.place t) := by
  apply locate_of_resolve (noNul (by decide +kernel)) (by decide +kernel)
  have hparts : ("/.stackprint/checksum" : Path).parts = [".stackprint", "checksum"] := by
    decide +kernel
  have hroot : ("/.stackprint/checksum" : Path).root = .single := by decide +kernel
  rw [hparts, hroot]
  exact (h.resolve_directory _ (by simp)).trans
    ((h.resolve_checksum haim 39).trans (h.resolve_profile _))

theorem find_other (h : Linked t) {p : Path} {name : String} {rest : List String}
    (hp : p = ⟨.single, name :: rest⟩) (hname : IsName name) (hne : name ≠ ".stackprint")
    (hlong : ¬ maxNameBytes < name.utf8ByteSize)
    (hpath : ¬ maxPathBytes ≤ p.text.utf8ByteSize) : t.find? p = .ok none := by
  have hresolve := h.resolve_other hname hne hlong maxLinks rest
  rw [find?, locate]
  by_cases hnul : p.text.contains '\x00' = true
  · rw [if_pos hnul]
  · rw [if_neg hnul, if_neg hpath, hp, startOf_single, hresolve]
    by_cases hrest : rest = []
    · rw [if_pos hrest]
      rfl
    · rw [if_neg hrest]
      rfl

theorem put (h : Linked t) (bytes : List UInt8) : Linked (t.put profileLocation (.file bytes)) where
  directory := by rw [node?_put_other (by decide), h.directory]
  checksum := by rw [node?_put_other (by decide), h.checksum]
  profile := .inr ⟨bytes, node?_put_self (by decide)⟩
  others {name} hne := by rw [node?_put_other (by simp [profileLocation]), h.others hne]

theorem makeDirectories (h : Linked t) :
    t.makeDirectories ("/.stackprint" : Path) = (t, .ok ()) := by
  have hpath : ("/.stackprint" : Path) = ⟨.single, [".stackprint"]⟩ := by decide +kernel
  have hlocate (aim : Aim) :
      t.locate aim ⟨.single, [".stackprint"]⟩ = .ok (.taken [".stackprint"] .directory) := by
    apply locate_of_resolve (noNul (by decide +kernel)) (by decide +kernel)
    change resolve t aim _ [] _ = _
    rw [h.resolve_directory _ (by simp), resolve]
  rw [hpath, DiskTree.makeDirectories, List.reverse_singleton, makeDirectoriesFrom]
  dsimp only
  rw [List.reverse_singleton, hlocate]
  dsimp only
  rw [makeDirectoryAt, settle, hlocate]

theorem writeBytes (h : Linked t) {p : Path}
    (hlocate : t.locate .file p = .ok (Linked.place t)) (bytes : List UInt8) :
    t.writeBytes p bytes = (t.put profileLocation (.file bytes), .ok ()) := by
  rw [DiskTree.writeBytes, hlocate, Linked.place]
  rcases h.profile with hnone | ⟨old, hfile⟩
  · rw [hnone]
  · rw [hfile]

theorem read_put (h : Linked t) (bytes : List UInt8) :
    (t.put profileLocation (.file bytes)).read ("/.stackprint/profile.json" : Path) =
      .ok (String.ofList (Text.unifyBreaks (Text.decode bytes))) := by
  rw [DiskTree.read, (h.put bytes).locate_profile, Linked.place,
    node?_put_self (by decide)]

end Linked

/-- The disk with nothing but a directory of a cache and the link in it. -/
def linkedDisk : DiskTree where
  nodes := [([".stackprint"], .directory), ([".stackprint", "checksum"], .link "profile.json")]

theorem linkedDisk_linked : linkedDisk.Linked where
  directory := rfl
  checksum := rfl
  profile := .inl rfl
  others {name} hne := by
    simp [node?, linkedDisk, hne]

end JavaProfile.DiskTree

namespace JavaProfile.Cache

open Work DiskTree

variable {p : Profile} {s : Session (Recorded DiskTree)} {r : Recorded DiskTree}

/-- A path to something beside the cache. -/
structure Elsewhere (path : String) : Prop where
  parts : ∃ name rest, (path : Path) = ⟨.single, name :: rest⟩ ∧ IsName name ∧
    name ≠ ".stackprint" ∧ ¬ maxNameBytes < name.utf8ByteSize
  short : ¬ maxPathBytes ≤ (path : Path).text.utf8ByteSize

theorem find_of_linked (h : r.tree.Linked) {path : String} (hpath : Elsewhere path) :
    r.tree.find? path = .ok none := by
  obtain ⟨name, rest, hparts, hname, hne, hlong⟩ := hpath.parts
  exact h.find_other hparts hname hne hlong hpath.short

theorem elsewhere_sources : Elsewhere "/src/main/java" where
  parts := ⟨"src", ["main", "java"], by decide +kernel, by constructor <;> decide, by decide,
    by decide +kernel⟩
  short := by decide +kernel

theorem elsewhere_tests : Elsewhere "/src/test/java" where
  parts := ⟨"src", ["test", "java"], by decide +kernel, by constructor <;> decide, by decide,
    by decide +kernel⟩
  short := by decide +kernel

theorem elsewhere_maven : Elsewhere "/pom.xml" where
  parts := ⟨"pom.xml", [], by decide +kernel, by constructor <;> decide, by decide,
    by decide +kernel⟩
  short := by decide +kernel

theorem elsewhere_gradle : Elsewhere "/build.gradle" where
  parts := ⟨"build.gradle", [], by decide +kernel, by constructor <;> decide, by decide,
    by decide +kernel⟩
  short := by decide +kernel

theorem elsewhere_kotlin : Elsewhere "/build.gradle.kts" where
  parts := ⟨"build.gradle.kts", [], by decide +kernel, by constructor <;> decide, by decide,
    by decide +kernel⟩
  short := by decide +kernel

theorem isDirectory_of_linked (h : r.tree.Linked) {path : String} (hpath : Elsewhere path) :
    FileTree.isDirectory r path = .ok false := by
  change r.tree.isDirectory path = .ok false
  rw [DiskTree.isDirectory, find_of_linked h hpath]
  rfl

theorem contains_of_linked (h : r.tree.Linked) {path : String} (hpath : Elsewhere path) :
    FileTree.contains r path = .ok false := by
  change (r.tree.find? path).map Option.isSome = .ok false
  rw [find_of_linked h hpath]
  rfl

theorem scanSet_of_linked (h : r.tree.Linked) (announces : Bool) (set : SourceSet) :
    (atRoot.project.scanSet r announces set).result = .ok [] := by
  have hentries : Project.sourceEntries r (atRoot.project.sourceRoot set) = .ok [] := by
    rw [Project.sourceEntries]
    cases set with
    | main => rw [atRoot_sourceRoot, isDirectory_of_linked h elsewhere_sources]
    | test => rw [atRoot_testRoot, isDirectory_of_linked h elsewhere_tests]
  rw [Project.scanSet, hentries]
  cases announces <;> rfl

theorem manifests_of_linked (h : r.tree.Linked) : atRoot.project.manifests r = .ok {} := by
  have hfile {name : String} {path : String} (hpath : Elsewhere path)
      (htext : (atRoot.project.directory / (name : Path)).text = path) :
      atRoot.project.hasFile r name = .ok false := by
    rw [Project.hasFile, htext]
    exact contains_of_linked h hpath
  rw [Project.manifests, hfile elsewhere_maven (by decide +kernel),
    hfile elsewhere_gradle (by decide +kernel), hfile elsewhere_kotlin (by decide +kernel)]
  rfl

theorem scan_of_linked (h : r.tree.Linked) (announces : Bool) :
    (atRoot.project.scan r announces).result = .ok (Scan.ofFiles [] [] {} {}) := by
  rw [Project.scan_result, manifests_of_linked h, scanSet_of_linked h, scanSet_of_linked h]
  rfl

theorem checksum_of_linked (h : r.tree.Linked) :
    atRoot.project.checksum r = .ok emptyChecksum :=
  checksum_of_missing (isDirectory_of_linked h elsewhere_sources)

/-- A disk with other bytes as its profile, and a record of the write. -/
def written (r : Recorded DiskTree) (path data : String) : Recorded DiskTree :=
  ⟨r.tree.put profileLocation (.file (Text.encode data)), r.writes ++ [⟨path, data, .ok ()⟩]⟩

theorem write_of_linked (h : r.tree.Linked) {path : String}
    (hlocate : r.tree.locate .file path = .ok (Linked.place r.tree)) (now : Float) (data : String) :
    FileTree.write r now path data = (written r path data, .ok ()) := by
  have hcall : FileTree.write r.tree now path data =
      (r.tree.put profileLocation (.file (Text.encode data)), .ok ()) :=
    h.writeBytes hlocate _
  change Recorded.write r now path data = _
  rw [Recorded.write, hcall]
  rfl

theorem makeDirectory_of_linked (h : s.tree.tree.Linked) :
    runs atRoot.makeDirectory s = (.ok (), s) := by
  have hcall : FileTree.makeDirectories s.tree "/.stackprint" = (s.tree, .ok ()) := by
    change (({ s.tree with tree := (s.tree.tree.makeDirectories ("/.stackprint" : Path)).1 } :
      Recorded DiskTree), (s.tree.tree.makeDirectories ("/.stackprint" : Path)).2) = _
    rw [h.makeDirectories]
  rw [makeDirectory, runs_bind, runs_change, atRoot_directory, hcall]
  rfl

theorem writeProfile_of_linked (h : s.tree.tree.Linked) :
    runs (atRoot.writeProfile p) s =
      (.ok (), { s with tree := written s.tree "/.stackprint/profile.json" p.document }) := by
  rw [writeProfile, runs_bind, runs_change, atRoot_profilePath,
    write_of_linked h h.locate_profile]
  rfl

theorem sealSources_of_linked (h : s.tree.tree.Linked) :
    runs atRoot.sealSources s =
      (.ok (), { s with tree := written s.tree "/.stackprint/checksum" emptyChecksum }) := by
  rw [sealSources, runs_bind, runs_get]
  dsimp only
  rw [checksum_of_linked h]
  dsimp only
  rw [writeChecksum, runs_bind, runs_change, atRoot_checksumPath,
    write_of_linked h (h.locate_checksum (by decide))]
  rfl

theorem save_of_linked (h : s.tree.tree.Linked) :
    ∃ r : Recorded DiskTree, r.tree.Linked ∧ (s.tree.AllWritten → r.AllWritten) ∧
      runs (atRoot.save p) s = (.ok (p.stamped s.now),
        { s with tree := written r "/.stackprint/checksum" emptyChecksum }) := by
  have hput : (written s.tree "/.stackprint/profile.json" (p.stamped s.now).document).tree.Linked :=
    h.put _
  refine ⟨_, hput, ?_, ?_⟩
  · intro hall w hw
    rcases List.mem_append.mp hw with hw | hw
    · exact hall w hw
    · obtain rfl := List.mem_singleton.mp hw
      rfl
  · rw [save_runs, makeDirectory_of_linked h]
    dsimp only
    rw [writeProfile_of_linked h]
    dsimp only
    rw [sealSources_of_linked hput]

theorem load_emptyChecksum (h : r.tree.Linked) (path : String) (now : Timestamp) :
    ∃ fault, (atRoot.load (written r path emptyChecksum) now).result = .error (.cache fault) := by
  have hread : FileTree.read (written r path emptyChecksum) atRoot.profilePath.text =
      .ok emptyChecksum := by
    rw [atRoot_profilePath]
    refine (h.read_put _).trans ?_
    rw [Text.decode_encode, Text.unifyBreaks_of_notMem (by decide +kernel), String.ofList_toList]
  have hrefused : ∃ r, Json.read emptyChecksum = .error r ∧ r.isMalformed = true := by
    have heval : (match Json.read emptyChecksum with
      | .ok _ => false
      | .error r => r.isMalformed) = true := by decide +kernel
    split at heval
    · cases heval
    · next r hr => exact ⟨r, hr, heval⟩
  obtain ⟨refusal, hrefusal, hmalformed⟩ := hrefused
  refine ⟨.parse atRoot.profilePath.text refusal, ?_⟩
  rw [load_of_read hread, parse, fieldsOf, hrefusal]
  dsimp only
  rw [if_pos hmalformed]
  rfl

/-- A new detection ends with a checksum for a profile. -/
theorem detectAgain_of_linked (h : s.tree.tree.Linked) {previous : Option Profile}
    (hprevious : previousOf (atRoot.load s.tree s.now).result = .ok previous) :
    ∃ (r : Recorded DiskTree) (s' : Session (Recorded DiskTree)), r.tree.Linked ∧
      (s.tree.AllWritten → s'.tree.AllWritten) ∧
      s'.tree = written r "/.stackprint/checksum" emptyChecksum ∧
      runs atRoot.detectAgain s = (.ok ((((Scan.ofFiles [] [] {} {}).profile
        atRoot.project.directory s.now).carryFrom? previous).stamped s.now), s') := by
  have hscan := scan_of_linked h s.announces
  rcases atRoot.detectAgain_cases s with ⟨e, s', -, -, herror | herror⟩ |
    ⟨previous', scan, s', hquiet, hprevious', hscan', hrun⟩
  · rw [hprevious] at herror
    cases herror
  · rw [hscan] at herror
    cases herror
  · rw [hprevious] at hprevious'
    rw [hscan] at hscan'
    obtain rfl := Except.ok.inj hprevious'
    obtain rfl := Except.ok.inj hscan'
    have hlinked : s'.tree.tree.Linked := by
      rw [hquiet.tree]
      exact h
    obtain ⟨r, hr, hwritten, hsave⟩ := save_of_linked
      (p := ((Scan.ofFiles [] [] {} {}).profile atRoot.project.directory s.now).carryFrom? previous)
      hlinked
    obtain ⟨s'', hquiet', hsaved⟩ := atRoot.saveIfPossible_runs s'
      (((Scan.ofFiles [] [] {} {}).profile atRoot.project.directory s.now).carryFrom? previous)
    rw [hsave] at hquiet' hsaved
    refine ⟨r, s'', hr, fun hall => ?_, hquiet'.tree, ?_⟩
    · rw [hquiet'.tree]
      intro w hw
      rcases List.mem_append.mp hw with hw | hw
      · rw [hquiet.tree] at hwritten
        exact hwritten hall w hw
      · obtain rfl := List.mem_singleton.mp hw
        rfl
    · rw [hrun, hsaved, hquiet.now]
      rfl

end JavaProfile.Cache

namespace JavaProfile.Cache

open Work

variable {τ : Type} [FileTree τ] [LawfulTree τ] {c : Cache} {p : Profile} {s : Session τ}

/-- What was saved is what is loaded, and what is stored is its document. -/
theorem load_save (hp : p.Storable) (hstores : c.Stores p s)
    (hapart : c.Apart (runs (c.save p) s).2.tree) (later : Timestamp) :
    (c.load (runs (c.save p) s).2.tree later).result =
        .ok (some (p.stamped s.now)) ∧
      FileTree.read (runs (c.save p) s).2.tree c.profilePath.text =
        .ok (p.stamped s.now).document := by
  have hread := save_read hp hstores hapart
  rw [load_of_read hread, parse_document (hp.stamped s.now)]
  exact ⟨rfl, hread⟩

def newSession : Session MemoryTree where
  tree := {}
  clock := 0.0

theorem load_save_standard :
    (atRoot.load (runs (atRoot.save (.standard newSession.now)) newSession).2.tree
        newSession.now).result = .ok (some (.standard newSession.now)) ∧
      FileTree.read (runs (atRoot.save (.standard newSession.now)) newSession).2.tree
        atRoot.profilePath.text = .ok (Profile.standard newSession.now).document :=
  have hstores : atRoot.Stores (.standard newSession.now) newSession := ⟨by decide +kernel, by rfl⟩
  load_save ⟨rfl, by decide, by decide⟩ hstores (atRoot.apart_of_memory _) newSession.now

/-- A session on a disk where the checksum is a link to the profile. -/
def linkedSession : Session (Recorded DiskTree) where
  tree := ⟨DiskTree.linkedDisk, []⟩
  clock := 0.0

/-- Where the checksum is a link to the profile, the profile is lost as it is saved. -/
theorem load_save_linked :
    (Profile.standard linkedSession.now).Storable ∧
      atRoot.Stores (.standard linkedSession.now) linkedSession ∧
      (atRoot.load (runs (atRoot.save (.standard linkedSession.now)) linkedSession).2.tree
        linkedSession.now).result ≠ .ok (some (.standard linkedSession.now)) := by
  have hlinked : linkedSession.tree.tree.Linked := DiskTree.linkedDisk_linked
  refine ⟨⟨rfl, by decide, by decide⟩, ⟨?_, ?_⟩, ?_⟩
  · rw [makeDirectory_of_linked hlinked]
  · rw [makeDirectory_of_linked hlinked]
    dsimp only
    rw [writeProfile_of_linked hlinked]
  · obtain ⟨r, hr, -, hsave⟩ := save_of_linked (p := .standard linkedSession.now) hlinked
    obtain ⟨fault, hload⟩ := load_emptyChecksum hr "/.stackprint/checksum" linkedSession.now
    rw [hsave, hload]
    intro h
    cases h

end JavaProfile.Cache

import JavaProfile.Store.Basic

/-!
The cache of a project at the root of a tree, which examples of caches are about.
-/

namespace JavaProfile.Cache

def atRoot : Cache := { project := { directory := ⟨.single, []⟩ } }

theorem atRoot_directory : atRoot.directory.text = "/.stackprint" := by
  decide +kernel

theorem atRoot_profilePath : atRoot.profilePath.text = "/.stackprint/profile.json" := by
  decide +kernel

theorem atRoot_checksumPath : atRoot.checksumPath.text = "/.stackprint/checksum" := by
  decide +kernel

theorem atRoot_sourceRoot : (atRoot.project.sourceRoot .main).text = "/src/main/java" := by
  decide +kernel

theorem atRoot_testRoot : (atRoot.project.sourceRoot .test).text = "/src/test/java" := by
  decide +kernel

def emptyChecksum : String :=
  "e3b0c44298fc1c149afbf4c8996fb92427ae41e4649b934ca495991b7852b855"

theorem digest_nil : Sha256.digest (Text.encode "") = emptyChecksum := by
  decide +kernel

theorem checksum_of_missing {τ : Type} [FileTree τ] {t : τ}
    (h : FileTree.isDirectory t "/src/main/java" = .ok false) :
    atRoot.project.checksum t = .ok emptyChecksum := by
  have hlisting : atRoot.project.listing [] = .ok "" := by
    rw [Project.listing, List.mapM_nil]
    change Except.ok (String.intercalate "\n" (List.mergeSort [] _)) = _
    rw [List.mergeSort_nil, String.intercalate_nil]
  rw [← digest_nil, Project.checksum, atRoot_sourceRoot, h]
  change (((atRoot.project.listing []).mapError Failure.number).bind fun text =>
    .ok (Sha256.digest (Text.encode text))) = _
  rw [hlisting]
  rfl

end JavaProfile.Cache

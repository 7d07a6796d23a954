import Mathlib

/-!
# Patch bundles

The root of a `FederatedPatchBundle` is the hash of the patch and the sorted file names, one after the other. It
tells them apart exactly where it is known how long the names are.
-/
namespace AgentSystem.PatchBundle

/-- `text.encode("utf-8")`. -/
def encode (text : String) : List UInt8 := text.toList.flatMap String.utf8EncodeChar

structure FederatedPatchBundle where
  bundleId : String
  taskId : String
  baseCommit : String
  targetBranch : String
  patchContent : String
  filesAffected : List String
  merkleRoot : String
  signature : String
  authorNodeId : String

/-- `sorted(files)`. -/
def sorted (files : List String) : List String := files.mergeSort fun a b => decide (a ≤ b)

/-- What the hasher is fed with. -/
def hashed (patchContent : String) (files : List String) : List UInt8 :=
  encode patchContent ++ (sorted files).flatMap encode

variable (sha256 : List UInt8 → String)

/-- `verify_integrity`. -/
def FederatedPatchBundle.verifyIntegrity (bundle : FederatedPatchBundle) : Bool :=
  decide (sha256 (hashed bundle.patchContent bundle.filesAffected) = bundle.merkleRoot)

/-- `create_patch_bundle`, with what the two calls of `git diff` gave. -/
def createPatchBundle (nodeId bundleId taskId targetBranch baseCommit : String) (diff : Option String)
    (names : List String) : FederatedPatchBundle :=
  let patchContent := diff.getD ""
  let merkleRoot := sha256 (hashed patchContent names)
  { bundleId, taskId, baseCommit, targetBranch, patchContent, filesAffected := names, merkleRoot
    signature := sha256 (encode (taskId ++ ":" ++ merkleRoot ++ ":" ++ nodeId))
    authorNodeId := nodeId }

/-- A repository with what `git apply` makes of a patch file in it, plainly and as a three-way merge. -/
structure Git (W : Type) where
  writeText : String → String → W → Option W
  apply : String → W → W × Bool
  applyThreeWay : String → W → W × Bool
  unlink : String → W → W

/-- `apply_patch_bundle`: the repository afterwards, the answer and the patch that was handed to git. -/
def applyPatchBundle {W : Type} (git : Git W) (strip : String → String) (bundle : FederatedPatchBundle) (repo : W) :
    W × Bool × Option String :=
  if bundle.verifyIntegrity sha256 = false then (repo, false, none)
  else if strip bundle.patchContent = "" then (repo, true, none)
  else
    let patchFile := ".tmp_" ++ bundle.bundleId ++ ".patch"
    match git.writeText patchFile bundle.patchContent repo with
    | none => (repo, false, none)
    | some repo =>
        let plain := git.apply patchFile repo
        if plain.2 then (git.unlink patchFile plain.1, true, some bundle.patchContent)
        else
          let merged := git.applyThreeWay patchFile plain.1
          (git.unlink patchFile merged.1, merged.2, some bundle.patchContent)

variable {sha256}

lemma verifyIntegrity_iff {bundle : FederatedPatchBundle} : bundle.verifyIntegrity sha256 = true ↔
    sha256 (hashed bundle.patchContent bundle.filesAffected) = bundle.merkleRoot := decide_eq_true_iff

lemma createPatchBundle_verified (nodeId bundleId taskId targetBranch baseCommit : String) (diff : Option String)
    (names : List String) :
    (createPatchBundle sha256 nodeId bundleId taskId targetBranch baseCommit diff names).verifyIntegrity sha256 = true :=
  verifyIntegrity_iff.mpr rfl

/-! ## What the root tells -/

lemma encode_injective : Function.Injective encode := by
  intro s t h
  refine String.toByteArray_inj.mp ?_
  rw [← String.utf8Encode_toList, ← String.utf8Encode_toList]
  exact congrArg List.toByteArray h

/-- The texts behind each other tell their lengths apart from the first one. -/
lemma hashed_eq_iff {patch patch' : String} {files files' : List String} (h : hashed patch files = hashed patch' files') :
    patch = patch' ∧ sorted files = sorted files' ↔
      ((sorted files).map fun name => (encode name).length) = (sorted files').map fun name => (encode name).length := by
  refine ⟨fun heq => by rw [heq.2], fun hlengths => ?_⟩
  have hnames : ((sorted files).flatMap encode).length = ((sorted files').flatMap encode).length := by
    rw [List.length_flatMap, List.length_flatMap, hlengths]
  obtain ⟨hpatch, hfiles⟩ := List.append_inj' h hnames
  refine ⟨encode_injective hpatch, encode_injective.list_map ?_⟩
  rw [List.eq_iff_flatten_eq, List.map_map, List.map_map]
  exact ⟨hfiles, hlengths⟩

/-- Two bundles of one root hold the same patch and files exactly if the names of the files are as long. -/
theorem verifyIntegrity_binds_iff (sha256 : List UInt8 → String) (hinjective : Function.Injective sha256)
    (a b : FederatedPatchBundle) (hroot : a.merkleRoot = b.merkleRoot) (ha : a.verifyIntegrity sha256 = true)
    (hb : b.verifyIntegrity sha256 = true) :
    a.patchContent = b.patchContent ∧ sorted a.filesAffected = sorted b.filesAffected ↔
      ((sorted a.filesAffected).map fun name => (encode name).length) =
        (sorted b.filesAffected).map fun name => (encode name).length := by
  rw [verifyIntegrity_iff] at ha hb
  exact hashed_eq_iff (hinjective (ha.trans (hroot.trans hb.symm)))

/-- A hash that keeps its input. -/
def sampleHash (bytes : List UInt8) : String := String.ofList (bytes.map fun b => Char.ofNat b.toNat)

lemma sampleHash_injective : Function.Injective sampleHash := by
  intro xs ys h
  have hchar : Function.Injective fun b : UInt8 => Char.ofNat b.toNat := by
    intro a b hab
    have hvalid : ∀ c : UInt8, c.toNat.isValidChar := fun c => .inl (c.toNat_lt.trans (by decide))
    have hcode := congrArg Char.toNat hab
    rw [Char.toNat_ofNat, Char.toNat_ofNat, if_pos (hvalid a), if_pos (hvalid b)] at hcode
    exact UInt8.toNat_inj.mp hcode
  exact hchar.list_map (String.ofList_injective h)

/-- The bundle of a change to a file. -/
def sampleBundle : FederatedPatchBundle :=
  createPatchBundle sampleHash "node-a" "bundle-1" "task-1" "main" "HEAD~1" (some "+x\n") ["src/a.py"]

/-- The same change for another task. -/
def otherBundle : FederatedPatchBundle :=
  createPatchBundle sampleHash "node-a" "bundle-2" "task-2" "main" "HEAD~1" (some "+x\n") ["src/a.py"]

/-- The name of the file at the end of the patch. -/
def forgedBundle : FederatedPatchBundle := { sampleBundle with patchContent := "+x\nsrc/a.py", filesAffected := [] }

theorem verifyIntegrity_binds_sample :
    sampleBundle.patchContent = otherBundle.patchContent ∧
        sorted sampleBundle.filesAffected = sorted otherBundle.filesAffected ↔
      ((sorted sampleBundle.filesAffected).map fun name => (encode name).length) =
        (sorted otherBundle.filesAffected).map fun name => (encode name).length :=
  verifyIntegrity_binds_iff sampleHash sampleHash_injective sampleBundle otherBundle rfl
    (createPatchBundle_verified ..) (createPatchBundle_verified ..)

/-- Both bundles pass the check of one root, with different patches. -/
theorem verifyIntegrity_not_bound :
    ¬ ∀ a b : FederatedPatchBundle, a.merkleRoot = b.merkleRoot → a.verifyIntegrity sampleHash = true →
      b.verifyIntegrity sampleHash = true →
        a.patchContent = b.patchContent ∧ sorted a.filesAffected = sorted b.filesAffected := by
  intro hclaim
  have hverified : forgedBundle.verifyIntegrity sampleHash = true := by decide +kernel
  have hequal := hclaim sampleBundle forgedBundle rfl (createPatchBundle_verified ..) hverified
  exact absurd hequal.1 (by decide)

end AgentSystem.PatchBundle

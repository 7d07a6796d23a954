import AgentSystem.JoinedFields
import AgentSystem.PipelineModels

/-!
# Chunked storage

`P2PFileChunkDistributor`: a file is cut into chunks that are spread over directories, and put together again from
the manifest. The number of chunks is the ceiling of a quotient of floats.
-/
namespace AgentSystem.Storage

open JoinedFields Pipeline

/-! ## Division of integers -/

/-- The exponent of the last place of the double next to a positive number. -/
def lastPlace (q : ℚ) : ℤ := max (Int.log 2 q - 52) (-1074)

/-- The double next to a positive number, `none` where it is too large. -/
def toDouble (q : ℚ) : Option ℚ :=
  let place := (2 : ℚ) ^ lastPlace q
  let rounded := roundHalfEven (q / place) * place
  if 2 ^ 1024 ≤ rounded then none else some rounded

/-! ## Files -/

abbrev Bytes := List UInt8

/-- A directory, by its resolved path, and a name in it. -/
abbrev Location := String × List Char

abbrev Files := Location → Option Bytes

structure ChunkInfo where
  index : ℕ
  name : List Char
  size : ℕ
  sha256 : List Char
  tenantDir : String
  deriving DecidableEq

structure Manifest where
  originalFilename : String
  originalSize : ℕ
  originalSha256 : List Char
  chunkSize : ℕ
  chunks : List ChunkInfo
  deriving DecidableEq

structure P2PFileChunkDistributor where
  tenantDirs : List String
  nonempty : tenantDirs ≠ []

/-- `file_bytes[start:end]` of a chunk. -/
def chunkData (fileBytes : Bytes) (chunkSizeBytes idx : ℕ) : Bytes :=
  let start := idx * chunkSizeBytes
  let stop := min (start + chunkSizeBytes) fileBytes.length
  (fileBytes.take stop).drop start

/-- `f"{filename_prefix}_{idx}_{chunk_hash[:8]}.bin"`. -/
def chunkName (filenamePrefix : List Char) (idx : ℕ) (chunkHash : List Char) : List Char :=
  filenamePrefix ++ '_' :: (Nat.toDigits 10 idx ++ '_' :: (chunkHash.take 8 ++ ['.', 'b', 'i', 'n']))

/-- `math.ceil(total_size / chunk_size_bytes) if total_size > 0 else 1`, `none` when the division raises. -/
def numChunks (totalSize chunkSizeBytes : ℕ) : Option ℕ :=
  if 0 < totalSize then (toDouble (totalSize / chunkSizeBytes)).map fun quotient => ⌈quotient⌉.toNat else some 1

namespace P2PFileChunkDistributor

variable (sha256 : Bytes → List Char) (distributor : P2PFileChunkDistributor)

/-- The directories in turn. -/
def tenantDir (idx : ℕ) : String :=
  distributor.tenantDirs.get ⟨idx % distributor.tenantDirs.length,
    Nat.mod_lt _ (List.length_pos_iff.mpr distributor.nonempty)⟩

def chunkInfo (fileBytes : Bytes) (chunkSizeBytes : ℕ) (filenamePrefix : List Char) (idx : ℕ) : ChunkInfo :=
  let data := chunkData fileBytes chunkSizeBytes idx
  { index := idx
    name := chunkName filenamePrefix idx (sha256 data)
    size := data.length
    sha256 := sha256 data
    tenantDir := distributor.tenantDir idx }

/-- The loop over the indices. -/
def writeChunks (fileBytes : Bytes) (chunkSizeBytes : ℕ) (filenamePrefix : List Char) (files : Files) :
    List ℕ → Files × List ChunkInfo
  | [] => (files, [])
  | idx :: rest =>
      let info := distributor.chunkInfo sha256 fileBytes chunkSizeBytes filenamePrefix idx
      let files := Function.update files (info.tenantDir, info.name) (some (chunkData fileBytes chunkSizeBytes idx))
      let (files, infos) := writeChunks fileBytes chunkSizeBytes filenamePrefix files rest
      (files, info :: infos)

/-- `distribute_file` of a file that is there, `none` when it raises. -/
def distributeFile (files : Files) (sourceName : String) (fileBytes : Bytes) (chunkSizeBytes : ℕ)
    (filenamePrefix : List Char) : Option (Files × Manifest) :=
  (numChunks fileBytes.length chunkSizeBytes).map fun count =>
    let (files, infos) := distributor.writeChunks sha256 fileBytes chunkSizeBytes filenamePrefix files (List.range count)
    (files,
      { originalFilename := sourceName
        originalSize := fileBytes.length
        originalSha256 := sha256 fileBytes
        chunkSize := chunkSizeBytes
        chunks := infos })

end P2PFileChunkDistributor

inductive ReassembleError
  | missingChunk (index : ℕ) (location : Location)
  | chunkIntegrity (index : ℕ) (expected actual : List Char)
  | fileIntegrity (expected actual : List Char)

/-- The loop over the chunks, with the data that is assembled. -/
def readChunks (sha256 : Bytes → List Char) (files : Files) : List ChunkInfo → Except ReassembleError Bytes
  | [] => .ok []
  | chunk :: rest =>
      match files (chunk.tenantDir, chunk.name) with
      | none => .error (.missingChunk chunk.index (chunk.tenantDir, chunk.name))
      | some data =>
          if sha256 data ≠ chunk.sha256 then .error (.chunkIntegrity chunk.index chunk.sha256 (sha256 data))
          else
            match readChunks sha256 files rest with
            | .error error => .error error
            | .ok assembled => .ok (data ++ assembled)

/-- `reassemble_file`: the files with the output, or the error before it is written. -/
def reassembleFile (sha256 : Bytes → List Char) (files : Files) (manifest : Manifest) (output : Location) :
    Except ReassembleError Files :=
  match readChunks sha256 files (manifest.chunks.mergeSort fun a b => decide (a.index ≤ b.index)) with
  | .error error => .error error
  | .ok final =>
      if sha256 final ≠ manifest.originalSha256 then .error (.fileIntegrity manifest.originalSha256 (sha256 final))
      else .ok (Function.update files output (some final))

/-! ## The number of chunks -/

variable {totalSize chunkSizeBytes : ℕ}

lemma roundHalfEven_near (x : ℚ) : x - 1 / 2 ≤ roundHalfEven x ∧ roundHalfEven x ≤ x + 1 / 2 := by
  have hfloor := Int.floor_le x
  have hnext := Int.lt_floor_add_one x
  unfold roundHalfEven
  split_ifs <;> push_cast <;> constructor <;> linarith

/-- A double is within half of its last place. -/
lemma toDouble_near {q r : ℚ} (h : toDouble q = some r) : q - 2 ^ lastPlace q / 2 ≤ r := by
  simp only [toDouble, Option.ite_none_left_eq_some, Option.some.injEq] at h
  obtain ⟨-, rfl⟩ := h
  have hplace : (0 : ℚ) < 2 ^ lastPlace q := by positivity
  have hround := (roundHalfEven_near (q / 2 ^ lastPlace q)).1
  calc q - 2 ^ lastPlace q / 2 = (q / 2 ^ lastPlace q - 1 / 2) * 2 ^ lastPlace q := by
        field_simp
    _ ≤ roundHalfEven (q / 2 ^ lastPlace q) * 2 ^ lastPlace q := mul_le_mul_of_nonneg_right hround hplace.le

lemma rounded_le (q : ℚ) : roundHalfEven (q / 2 ^ lastPlace q) * (2 : ℚ) ^ lastPlace q ≤ q + 2 ^ lastPlace q / 2 := by
  have hplace : (0 : ℚ) < 2 ^ lastPlace q := by positivity
  have hround := (roundHalfEven_near (q / 2 ^ lastPlace q)).2
  calc roundHalfEven (q / 2 ^ lastPlace q) * (2 : ℚ) ^ lastPlace q
      ≤ (q / 2 ^ lastPlace q + 1 / 2) * 2 ^ lastPlace q := mul_le_mul_of_nonneg_right hround hplace.le
    _ = q + 2 ^ lastPlace q / 2 := by field_simp

/-- No integer is at least the double of the quotient and less than the quotient. -/
def Covers (totalSize chunkSizeBytes : ℕ) : Prop :=
  totalSize = 0 ∨ ∃ quotient, toDouble (totalSize / chunkSizeBytes) = some quotient ∧
    ∀ m : ℕ, quotient ≤ m → (totalSize : ℚ) / chunkSizeBytes ≤ m

lemma covers_iff (hchunk : 1 ≤ chunkSizeBytes) :
    (∃ count, numChunks totalSize chunkSizeBytes = some count ∧ totalSize ≤ count * chunkSizeBytes) ↔
      Covers totalSize chunkSizeBytes := by
  have hpos : (0 : ℚ) < chunkSizeBytes := by exact_mod_cast hchunk
  rcases Nat.eq_zero_or_pos totalSize with rfl | htotal
  · exact iff_of_true ⟨1, rfl, Nat.zero_le _⟩ (.inl rfl)
  · rw [numChunks, if_pos htotal, Covers, or_iff_right htotal.ne']
    constructor
    · rintro ⟨count, hcount, hall⟩
      obtain ⟨quotient, hquotient, rfl⟩ := Option.map_eq_some_iff.mp hcount
      refine ⟨quotient, hquotient, fun m hm => (div_le_iff₀ hpos).mpr ?_⟩
      have hceil : ⌈quotient⌉.toNat ≤ m := by
        have : ⌈quotient⌉ ≤ m := Int.ceil_le.mpr (by exact_mod_cast hm)
        omega
      exact_mod_cast hall.trans (Nat.mul_le_mul_right _ hceil)
    · rintro ⟨quotient, hquotient, hcovers⟩
      refine ⟨_, Option.map_eq_some_iff.mpr ⟨quotient, hquotient, rfl⟩, ?_⟩
      have hceil : quotient ≤ (⌈quotient⌉.toNat : ℕ) :=
        (Int.le_ceil quotient).trans (by exact_mod_cast Int.self_le_toNat _)
      exact_mod_cast (div_le_iff₀ hpos).mp (hcovers _ hceil)

/-- Half of the last place of a quotient is less than the step between quotients of the chunk size. -/
lemma lastPlace_lt (htotal : totalSize < 2 ^ 53) (hpos : 0 < totalSize) (hchunk : 1 ≤ chunkSizeBytes)
    (husual : chunkSizeBytes < 2 ^ 1075) :
    (2 : ℚ) ^ lastPlace (totalSize / chunkSizeBytes) / 2 < 1 / chunkSizeBytes := by
  have hchunk' : (0 : ℚ) < chunkSizeBytes := by exact_mod_cast hchunk
  have hquotient : (0 : ℚ) < totalSize / chunkSizeBytes := div_pos (by exact_mod_cast hpos) hchunk'
  rcases max_choice (Int.log 2 ((totalSize : ℚ) / chunkSizeBytes) - 52) (-1074) with hplace | hplace
  · have hlog := Int.zpow_log_le_self (b := 2) one_lt_two hquotient
    rw [Nat.cast_ofNat] at hlog
    have hsize : (totalSize : ℚ) < 2 ^ 53 := by exact_mod_cast htotal
    rw [lastPlace, hplace, zpow_sub₀ two_ne_zero]
    calc (2 : ℚ) ^ Int.log 2 ((totalSize : ℚ) / chunkSizeBytes) / 2 ^ (52 : ℤ) / 2
        ≤ totalSize / chunkSizeBytes / 2 ^ (52 : ℤ) / 2 := by gcongr
      _ = totalSize / 2 ^ 53 / chunkSizeBytes := by
        have hpow : (2 : ℚ) ^ (52 : ℤ) * 2 = 2 ^ 53 := by norm_num
        rw [div_div, div_div, hpow, div_div, mul_comm]
      _ < 1 / chunkSizeBytes := by
        refine div_lt_div_of_pos_right ?_ hchunk'
        rwa [div_lt_one (by positivity)]
  · have husual' : (chunkSizeBytes : ℚ) < 2 ^ 1075 := by exact_mod_cast husual
    have hpow : (2 : ℚ) ^ (-1074 : ℤ) / 2 = 1 / 2 ^ 1075 := by
      rw [zpow_neg, div_eq_mul_inv, ← mul_inv, one_div]
      congr 1
      rw [show (2 : ℚ) ^ (1074 : ℤ) = 2 ^ 1074 from zpow_natCast 2 1074, ← pow_succ]
    rw [lastPlace, hplace, hpow]
    exact one_div_lt_one_div_of_lt hchunk' husual'

/-- Files below eight pebibytes are covered by chunks of any usual size. -/
theorem covers_of_lt (htotal : totalSize < 2 ^ 53) (hchunk : 1 ≤ chunkSizeBytes)
    (husual : chunkSizeBytes < 2 ^ 1075) : Covers totalSize chunkSizeBytes := by
  rcases Nat.eq_zero_or_pos totalSize with rfl | hpos
  · exact .inl rfl
  refine .inr ?_
  have hchunk' : (1 : ℚ) ≤ chunkSizeBytes := by exact_mod_cast hchunk
  have hplace := lastPlace_lt htotal hpos hchunk husual
  have hsize : (totalSize : ℚ) / chunkSizeBytes < 2 ^ 53 :=
    (div_le_self (Nat.cast_nonneg _) hchunk').trans_lt (by exact_mod_cast htotal)
  obtain ⟨quotient, hquotient⟩ : ∃ quotient, toDouble (totalSize / chunkSizeBytes) = some quotient := by
    refine ⟨_, if_neg (not_le.mpr ?_)⟩
    have hround := rounded_le (totalSize / chunkSizeBytes : ℚ)
    have hone : (1 : ℚ) / chunkSizeBytes ≤ 1 := div_le_self zero_le_one hchunk'
    calc _ < (2 : ℚ) ^ 53 + 1 := by linarith
      _ ≤ 2 ^ 54 := by norm_num
      _ ≤ 2 ^ 1024 := pow_le_pow_right₀ one_le_two (by decide)
  refine ⟨quotient, hquotient, fun m hm => ?_⟩
  by_contra hless
  have hstep : (m : ℚ) + 1 / chunkSizeBytes ≤ totalSize / chunkSizeBytes := by
    have hpos' : (0 : ℚ) < chunkSizeBytes := zero_lt_one.trans_le hchunk'
    have hbefore : m * chunkSizeBytes < totalSize := by exact_mod_cast (lt_div_iff₀ hpos').mp (not_le.mp hless)
    have hnext : (m : ℚ) * chunkSizeBytes + 1 ≤ totalSize := by exact_mod_cast hbefore
    rwa [le_div_iff₀ hpos', add_mul, one_div_mul_cancel hpos'.ne']
  have hnear := toDouble_near hquotient
  linarith

/-! ## Chunks and their places -/

section RoundTrip

variable {sha256 : Bytes → List Char} {distributor : P2PFileChunkDistributor} {fileBytes : Bytes}
  {filenamePrefix : List Char} {files : Files}

/-- The chunks up to a place are the bytes up to its start. -/
lemma chunkData_flatten (count : ℕ) :
    ((List.range count).map (chunkData fileBytes chunkSizeBytes)).flatten =
      fileBytes.take (count * chunkSizeBytes) := by
  induction count with
  | zero => simp
  | succ count ih =>
    rw [List.range_succ, List.map_append, List.flatten_append, ih, Nat.succ_mul, List.take_add]
    congr 1
    simp only [List.map_singleton, List.flatten_singleton, chunkData, List.drop_take]
    rw [List.take_eq_take_iff, List.length_drop]
    omega

/-- The names of two places of a file are different. -/
lemma chunkName_inj {i j : ℕ} {hash hash' : List Char}
    (h : chunkName filenamePrefix i hash = chunkName filenamePrefix j hash') : i = j := by
  have hrest := (List.cons.inj (List.append_cancel_left h)).2
  have hcount (n : ℕ) : (Nat.toDigits 10 n).count '_' = 0 := List.count_eq_zero.mpr Nat.underscore_not_in_toDigits
  have hdigits := (append_sep_inj hrest (by rw [hcount, hcount])).1
  rw [← Nat.ofDigitChars_toDigits (n := i) (b := 10) (by decide) (by decide), hdigits,
    Nat.ofDigitChars_toDigits (by decide) (by decide)]

/-- Where the chunk of a place is. -/
def location (sha256 : Bytes → List Char) (distributor : P2PFileChunkDistributor) (fileBytes : Bytes)
    (chunkSizeBytes : ℕ) (filenamePrefix : List Char) (idx : ℕ) : Location :=
  let info := distributor.chunkInfo sha256 fileBytes chunkSizeBytes filenamePrefix idx
  (info.tenantDir, info.name)

variable (sha256 distributor fileBytes chunkSizeBytes filenamePrefix files) in
/-- The written chunks are the described ones, and they are where they are described. -/
lemma writeChunks_spec {idxs : List ℕ} (hnodup : idxs.Nodup) :
    (distributor.writeChunks sha256 fileBytes chunkSizeBytes filenamePrefix files idxs).2 =
        idxs.map (distributor.chunkInfo sha256 fileBytes chunkSizeBytes filenamePrefix) ∧
      (∀ idx ∈ idxs, (distributor.writeChunks sha256 fileBytes chunkSizeBytes filenamePrefix files idxs).1
        (location sha256 distributor fileBytes chunkSizeBytes filenamePrefix idx) =
          some (chunkData fileBytes chunkSizeBytes idx)) ∧
      ∀ idx ∉ idxs, (distributor.writeChunks sha256 fileBytes chunkSizeBytes filenamePrefix files idxs).1
        (location sha256 distributor fileBytes chunkSizeBytes filenamePrefix idx) =
          files (location sha256 distributor fileBytes chunkSizeBytes filenamePrefix idx) := by
  induction idxs generalizing files with
  | nil => exact ⟨rfl, fun _ h => absurd h List.not_mem_nil, fun _ _ => rfl⟩
  | cons idx idxs ih =>
    obtain ⟨hnew, hnodup⟩ := List.nodup_cons.mp hnodup
    obtain ⟨hinfos, hwritten, hkept⟩ := ih (Function.update files
      (location sha256 distributor fileBytes chunkSizeBytes filenamePrefix idx)
      (some (chunkData fileBytes chunkSizeBytes idx))) hnodup
    refine ⟨congrArg (_ :: ·) hinfos, ?_, ?_⟩
    · intro other hother
      rcases List.mem_cons.mp hother with rfl | hother
      · exact (hkept other hnew).trans (Function.update_self _ _ _)
      · exact hwritten other hother
    · intro other hother
      rw [List.mem_cons, not_or] at hother
      refine (hkept other hother.2).trans (Function.update_of_ne ?_ _ _)
      exact fun heq => hother.1 (chunkName_inj (Prod.mk.inj heq).2)

/-- Chunks that are where they are described, with their hashes, are read one after the other. -/
lemma readChunks_ok (infos : List ChunkInfo) (data : ChunkInfo → Bytes)
    (h : ∀ info ∈ infos, files (info.tenantDir, info.name) = some (data info) ∧ sha256 (data info) = info.sha256) :
    readChunks sha256 files infos = .ok (infos.map data).flatten := by
  induction infos with
  | nil => rfl
  | cons info infos ih =>
    obtain ⟨⟨hfile, hhash⟩, hrest⟩ := List.forall_mem_cons.mp h
    simp only [readChunks, hfile, ne_eq, hhash, not_true_eq_false, if_false, ih hrest, List.map_cons,
      List.flatten_cons]

/-! ## The round trip -/

variable {sourceName : String} {stored : Files} {manifest : Manifest} {output : Location}

/-- What a distribution leaves, and what is read of it. -/
lemma distributeFile_spec (h : distributor.distributeFile sha256 files sourceName fileBytes chunkSizeBytes
    filenamePrefix = some (stored, manifest)) :
    manifest.originalSha256 = sha256 fileBytes ∧ ∃ count, numChunks fileBytes.length chunkSizeBytes = some count ∧
      readChunks sha256 stored (manifest.chunks.mergeSort fun a b => decide (a.index ≤ b.index)) =
        .ok (fileBytes.take (count * chunkSizeBytes)) := by
  obtain ⟨count, hcount, heq⟩ := Option.map_eq_some_iff.mp h
  obtain ⟨rfl, rfl⟩ := Prod.mk.inj heq
  refine ⟨rfl, count, hcount, ?_⟩
  obtain ⟨hinfos, hwritten, -⟩ := writeChunks_spec chunkSizeBytes sha256 distributor fileBytes filenamePrefix files
    (List.nodup_range (n := count))
  have hsorted : ((List.range count).map (distributor.chunkInfo sha256 fileBytes chunkSizeBytes
      filenamePrefix)).Pairwise fun a b => decide (a.index ≤ b.index) = true := by
    rw [List.pairwise_map]
    exact List.pairwise_le_range.imp fun h => decide_eq_true h
  have hread := readChunks_ok
    ((List.range count).map (distributor.chunkInfo sha256 fileBytes chunkSizeBytes filenamePrefix))
    (fun info => chunkData fileBytes chunkSizeBytes info.index)
    (List.forall_mem_map.mpr fun idx hidx => ⟨hwritten idx hidx, rfl⟩)
  simp only [hinfos, List.mergeSort_of_pairwise hsorted, hread]
  rw [List.map_map, ← chunkData_flatten]
  rfl

variable (sha256 distributor files sourceName filenamePrefix) in
lemma distributeFile_isSome {count : ℕ} (h : numChunks fileBytes.length chunkSizeBytes = some count) :
    ∃ stored manifest, distributor.distributeFile sha256 files sourceName fileBytes chunkSizeBytes filenamePrefix =
      some (stored, manifest) := by
  rw [P2PFileChunkDistributor.distributeFile, h]
  exact ⟨_, _, rfl⟩

/-- What comes back is the file exactly if its chunks cover it. -/
lemma roundTrip_iff (hinjective : Function.Injective sha256) (hchunk : 1 ≤ chunkSizeBytes) :
    (∃ stored manifest, distributor.distributeFile sha256 files sourceName fileBytes chunkSizeBytes filenamePrefix =
        some (stored, manifest) ∧
      reassembleFile sha256 stored manifest output = .ok (Function.update stored output (some fileBytes))) ↔
      Covers fileBytes.length chunkSizeBytes := by
  rw [← covers_iff hchunk]
  constructor
  · rintro ⟨stored, manifest, hdistribute, hreassemble⟩
    obtain ⟨hhash, count, hcount, hread⟩ := distributeFile_spec hdistribute
    refine ⟨count, hcount, ?_⟩
    rw [reassembleFile, hread] at hreassemble
    simp only [hhash, ne_eq, hinjective.eq_iff] at hreassemble
    split_ifs at hreassemble with hsame
    exact List.take_eq_self_iff _ |>.mp hsame
  · rintro ⟨count, hcount, hall⟩
    obtain ⟨stored, manifest, hdistribute⟩ := distributeFile_isSome sha256 distributor filenamePrefix files
      sourceName hcount
    refine ⟨stored, manifest, hdistribute, ?_⟩
    obtain ⟨hhash, count', hcount', hread⟩ := distributeFile_spec hdistribute
    obtain rfl := Option.some.inj (hcount.symm.trans hcount')
    rw [reassembleFile, hread, List.take_of_length_le hall]
    simp only [hhash, ne_eq, not_true_eq_false, if_false]

/-- A file is reassembled as it was exactly if its chunks cover it. Whatever is done to the stored files, what is
written is the file. -/
theorem reassembleFile_distributed_iff (sha256 : Bytes → List Char) (hinjective : Function.Injective sha256)
    (distributor : P2PFileChunkDistributor) (files : Files) (sourceName : String) (fileBytes : Bytes)
    (chunkSizeBytes : ℕ) (hchunk : 1 ≤ chunkSizeBytes) (filenamePrefix : List Char) (output : Location) :
    ((∃ stored manifest, distributor.distributeFile sha256 files sourceName fileBytes chunkSizeBytes filenamePrefix =
          some (stored, manifest) ∧
        reassembleFile sha256 stored manifest output = .ok (Function.update stored output (some fileBytes))) ↔
        Covers fileBytes.length chunkSizeBytes) ∧
      ∀ stored manifest, distributor.distributeFile sha256 files sourceName fileBytes chunkSizeBytes filenamePrefix =
          some (stored, manifest) → ∀ changed : Files,
        (∃ error, reassembleFile sha256 changed manifest output = .error error) ∨
          reassembleFile sha256 changed manifest output = .ok (Function.update changed output (some fileBytes)) := by
  refine ⟨roundTrip_iff hinjective hchunk, fun stored manifest hdistribute changed => ?_⟩
  obtain ⟨hhash, -⟩ := distributeFile_spec hdistribute
  cases hread : readChunks sha256 changed (manifest.chunks.mergeSort fun a b => decide (a.index ≤ b.index)) with
  | error error => exact .inl ⟨error, by rw [reassembleFile, hread]⟩
  | ok final =>
    by_cases hsame : final = fileBytes
    · refine .inr ?_
      rw [reassembleFile, hread, hsame]
      simp only [hhash, ne_eq, not_true_eq_false, if_false]
    · refine .inl ⟨.fileIntegrity manifest.originalSha256 (sha256 final), ?_⟩
      rw [reassembleFile, hread]
      simp only [hhash, ne_eq, hinjective.eq_iff, hsame, not_false_eq_true, if_true]

/-- The bytes as characters. -/
def plainHash (bytes : Bytes) : List Char := bytes.map fun b => Char.ofNat b.toNat

lemma plainHash_injective : Function.Injective plainHash := by
  refine List.map_injective_iff.mpr fun a b h => ?_
  have hcode (c : UInt8) : (Char.ofNat c.toNat).toNat = c.toNat := by
    have hc : c.toNat < 256 := c.toNat_lt
    rw [Char.toNat_ofNat, if_pos (.inl (by omega))]
  have htext := congrArg Char.toNat h
  rw [hcode, hcode] at htext
  exact UInt8.toNat_inj.mp htext

def sampleDistributor : P2PFileChunkDistributor := ⟨["/srv/a", "/srv/b"], List.cons_ne_nil _ _⟩

theorem reassembleFile_distributed_sample :
    ((∃ stored manifest, sampleDistributor.distributeFile plainHash (fun _ => none) "f" [1, 2, 3] 2 [] =
          some (stored, manifest) ∧
        reassembleFile plainHash stored manifest ("/srv", []) =
          .ok (Function.update stored ("/srv", []) (some [1, 2, 3]))) ↔ Covers 3 2) ∧
      ∀ stored manifest, sampleDistributor.distributeFile plainHash (fun _ => none) "f" [1, 2, 3] 2 [] =
          some (stored, manifest) → ∀ changed : Files,
        (∃ error, reassembleFile plainHash changed manifest ("/srv", []) = .error error) ∨
          reassembleFile plainHash changed manifest ("/srv", []) =
            .ok (Function.update changed ("/srv", []) (some [1, 2, 3])) :=
  reassembleFile_distributed_iff plainHash plainHash_injective sampleDistributor (fun _ => none) "f" [1, 2, 3] 2
    (by decide) [] ("/srv", [])

def hugeChunk : ℕ := 2 ^ 1100

/-- The quotient of one byte and a huge chunk is rounded to zero. -/
lemma toDouble_huge : toDouble ((1 : ℕ) / hugeChunk) = some 0 := by
  have hquotient : ((1 : ℕ) : ℚ) / hugeChunk = 2 ^ (-1100 : ℤ) := by
    rw [hugeChunk, zpow_neg, show (2 : ℚ) ^ (1100 : ℤ) = 2 ^ 1100 from zpow_natCast 2 1100, Nat.cast_one, Nat.cast_pow,
      Nat.cast_ofNat, one_div]
  have hlog : Int.log 2 ((2 : ℚ) ^ (-1100 : ℤ)) = -1100 := by
    have h := Int.log_zpow (R := ℚ) (b := 2) one_lt_two (-1100)
    rwa [Nat.cast_ofNat] at h
  have hplace : lastPlace ((2 : ℚ) ^ (-1100 : ℤ)) = -1074 := by
    rw [lastPlace, hlog]
    rfl
  have hsmall : (2 : ℚ) ^ (-1100 : ℤ) / 2 ^ (-1074 : ℤ) = 1 / 67108864 := by
    rw [← zpow_sub₀ two_ne_zero]
    norm_num
  have hround : roundHalfEven (1 / 67108864) = 0 := by
    norm_num [roundHalfEven]
  rw [hquotient]
  simp only [toDouble, hplace, hsmall, hround, Int.cast_zero, zero_mul]
  exact if_neg (not_le.mpr (by positivity))

/-- A file of one byte is lost in one huge chunk. -/
theorem reassembleFile_loses_file :
    ¬ ∀ (fileBytes : Bytes) (chunkSizeBytes : ℕ), 1 ≤ chunkSizeBytes →
      ∃ stored manifest, sampleDistributor.distributeFile plainHash (fun _ => none) "f" fileBytes chunkSizeBytes [] =
          some (stored, manifest) ∧
        reassembleFile plainHash stored manifest ("/srv", []) =
          .ok (Function.update stored ("/srv", []) (some fileBytes)) := by
  intro hclaim
  have hpos : 1 ≤ hugeChunk := Nat.one_le_two_pow
  have hcovers := (roundTrip_iff plainHash_injective hpos).mp (hclaim [0] hugeChunk hpos)
  rcases hcovers with hempty | ⟨quotient, hquotient, hall⟩
  · cases hempty
  · rw [List.length_singleton, toDouble_huge] at hquotient
    obtain rfl := Option.some.inj hquotient
    have hzero := hall 0 Nat.cast_zero.ge
    rw [Nat.cast_zero] at hzero
    exact absurd hzero (div_pos (Nat.cast_pos.mpr Nat.one_pos) (Nat.cast_pos.mpr hpos)).not_ge

end RoundTrip

end AgentSystem.Storage

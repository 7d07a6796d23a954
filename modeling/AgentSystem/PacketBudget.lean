import AgentSystem.DelegationPacket

/-!
# The budget of a delegation packet

The tokens of the bounded files. Every file gets at least fifty, and the notice of a cut is added after the cut: the
total is kept for all files and counters exactly if so many files of fifty tokens, and so many notices, fit in it.
-/
namespace AgentSystem.Advisor

open Json Executor ProtocolRepair

/-- The count of a text is at most that of a text around it. -/
def MonotoneCount (count : PyStr → ℕ) : Prop := ∀ before text after, count text ≤ count (before ++ text ++ after)

namespace SanitizedContextExtractor

variable {extractor : SanitizedContextExtractor} {budget maxTotalTokens : ℤ} {content : PyStr} {files : FileTexts}

variable (extractor budget) in
lemma popLines_fits (retained : List PyStr) : popLines extractor budget retained = [] ∨
    (extractor.estimateTokens (joinTexts "\n" (popLines extractor budget retained ++ [truncationNotice])) : ℤ) ≤
      budget := by
  induction retained using popLines.induct extractor budget with
  | case1 retained h ih =>
    rw [popLines, dif_pos h]
    exact ih
  | case2 retained h =>
    rw [popLines, dif_neg h]
    by_cases hempty : retained = []
    · exact .inl hempty
    · exact .inr (not_lt.mp fun hover => h ⟨hempty, hover⟩)

variable (extractor budget content) in
/-- A bounded text is within its budget, or it is the notice. -/
lemma boundFile_fits : (extractor.estimateTokens (extractor.boundFile budget content) : ℤ) ≤ budget ∨
    extractor.boundFile budget content = truncationNotice := by
  unfold boundFile
  split_ifs with h
  · exact .inl h
  · rw [truncate]
    rcases popLines_fits extractor budget (retainLines extractor
      (max 20 (budget - extractor.estimateTokens truncationNotice)) [] (splitlines content)) with hempty | hfits
    · rw [hempty]
      exact .inr rfl
    · exact .inl hfits

variable (extractor files maxTotalTokens) in
/-- So many files of fifty tokens and so many notices in the total keep the files in it. -/
lemma extract_within (hfiles : 50 * (files.length : ℤ) ≤ maxTotalTokens)
    (hnotices : files.length * (extractor.estimateTokens truncationNotice : ℤ) ≤ maxTotalTokens) :
    (extractor.totalTokens (extractor.extractAndBoundFiles files maxTotalTokens) : ℤ) ≤ maxTotalTokens := by
  simp only [extractAndBoundFiles, List.map_eq_nil_iff, List.length_map]
  split_ifs with hempty htotal
  · rw [hempty] at hfiles
    simpa [totalTokens] using hfiles
  · exact htotal
  · have hpos : (0 : ℤ) < files.length := by exact_mod_cast List.length_pos_iff.mpr hempty
    have hshare : (50 : ℤ) ≤ maxTotalTokens / files.length := (Int.le_ediv_iff_mul_le hpos).mpr hfiles
    have hnotice : (extractor.estimateTokens truncationNotice : ℤ) ≤ maxTotalTokens / files.length :=
      (Int.le_ediv_iff_mul_le hpos).mpr (by rwa [mul_comm])
    have hnonneg : (0 : ℤ) ≤ maxTotalTokens / files.length := le_trans (by decide) hshare
    have hbounded (text : PyStr) : extractor.estimateTokens
        (extractor.boundFile (perFileBudget maxTotalTokens files.length) text) ≤
          (maxTotalTokens / files.length).toNat := by
      rw [perFileBudget, max_eq_right hshare]
      rcases boundFile_fits extractor (maxTotalTokens / files.length) text with hfits | hcut
      · exact (Int.le_toNat hnonneg).mpr hfits
      · rw [hcut]
        exact (Int.le_toNat hnonneg).mpr hnotice
    have hsum := List.sum_le_card_nsmul (files.map fun file => extractor.estimateTokens (extractor.boundFile
      (perFileBudget maxTotalTokens files.length) (extractor.scrubSensitiveData file.2)))
      (maxTotalTokens / files.length).toNat (by simp only [List.forall_mem_map]; exact fun file _ => hbounded _)
    rw [List.length_map, smul_eq_mul] at hsum
    have hmul : files.length * (maxTotalTokens / files.length) ≤ maxTotalTokens := Int.mul_ediv_self_le hpos.ne'
    calc _ ≤ ((files.length * (maxTotalTokens / files.length).toNat : ℕ) : ℤ) := by
          simpa only [totalTokens, List.map_map, Function.comp_def, Nat.cast_le] using hsum
      _ = files.length * (maxTotalTokens / files.length) := by rw [Nat.cast_mul, Int.toNat_of_nonneg hnonneg]
      _ ≤ maxTotalTokens := hmul

/-- So many files with the same text. -/
def copies (n : ℕ) (text : PyStr) : FileTexts := (List.range n).map fun i => (toPyStr (toString i), text)

lemma copies_length (n : ℕ) (text : PyStr) : (copies n text).length = n := by
  rw [copies, List.length_map, List.length_range]

lemma totalTokens_copies (n : ℕ) (text : PyStr) :
    extractor.totalTokens ((copies n text).map fun file => (file.1, content)) =
      n * extractor.estimateTokens content := by
  simp [totalTokens, copies, Function.comp_def]

/-- Copies that are over the total together are bounded each. -/
lemma extract_copies (extractor : SanitizedContextExtractor) (maxTotalTokens : ℤ) (n : ℕ) (text : PyStr)
    (h : maxTotalTokens < n * (extractor.estimateTokens (extractor.scrubSensitiveData text) : ℤ)) :
    extractor.totalTokens (extractor.extractAndBoundFiles (copies n text) maxTotalTokens) =
      n * extractor.estimateTokens
        (extractor.boundFile (perFileBudget maxTotalTokens n) (extractor.scrubSensitiveData text)) := by
  have hscrubbed : (copies n text).map (fun file => (file.1, extractor.scrubSensitiveData file.2)) =
      (copies n text).map fun file => (file.1, extractor.scrubSensitiveData text) := by
    simp [copies]
  simp only [extractAndBoundFiles, hscrubbed, totalTokens_copies, Nat.cast_mul, if_neg h.not_ge, List.map_eq_nil_iff,
    List.length_map, copies_length, List.map_map, Function.comp_def]
  split_ifs with hempty
  · have hn : n = 0 := by rw [← copies_length n text, hempty, List.length_nil]
    simp [totalTokens, hn]
  · exact totalTokens_copies n text

end SanitizedContextExtractor

/-! ## A counter for a letter and the notice -/

def letter : PyStr := toPyStr "Q"

/-- So many tokens for the letter, and so many for the notice. -/
def letterCount (k notice : ℕ) (text : PyStr) : ℕ :=
  (if letter <:+: text then k else 0) + if truncationNotice <:+: text then notice else 0

lemma infix_around {part text : PyStr} (before after : PyStr) (h : part <:+: text) : part <:+: before ++ text ++ after :=
  h.trans ⟨before, after, rfl⟩

lemma letterCount_monotone (k notice : ℕ) : MonotoneCount (letterCount k notice) := by
  intro before text after
  unfold letterCount
  refine Nat.add_le_add ?_ ?_
  · split_ifs with h h'
    · exact le_rfl
    · exact absurd (infix_around before after h) h'
    · exact Nat.zero_le _
    · exact le_rfl
  · split_ifs with h h'
    · exact le_rfl
    · exact absurd (infix_around before after h) h'
    · exact Nat.zero_le _
    · exact le_rfl

lemma letterCount_notice (k notice : ℕ) : letterCount k notice truncationNotice = notice := by
  have hletter : ¬ letter <:+: truncationNotice := by decide
  rw [letterCount, if_neg hletter, if_pos List.infix_rfl, Nat.zero_add]

lemma letterCount_letter (k notice : ℕ) : letterCount k notice letter = k := by
  have hnotice : ¬ truncationNotice <:+: letter := by decide
  rw [letterCount, if_pos List.infix_rfl, if_neg hnotice, Nat.add_zero]

section Letter

open SanitizedContextExtractor

variable {sub : Pattern → PyStr → PyStr}

/-- A text that no pattern matches stays. -/
lemma scrub_of_sub {extractor : SanitizedContextExtractor} {text : PyStr}
    (h : ∀ pattern, extractor.sub pattern text = text) : extractor.scrubSensitiveData text = text := by
  simp [scrubSensitiveData, secretPatterns, pathPatterns, h]

/-- The letter is cut to the notice where it is over its budget by more than the notice leaves. -/
lemma boundFile_letter {k notice : ℕ} {budget : ℤ} (hover : budget < k) (htwenty : 20 < k) :
    boundFile ⟨sub, letterCount k notice⟩ budget letter = truncationNotice := by
  have hlines : splitlines letter = [letter] := by decide
  have hcandidate : strip ([] ++ toPyStr "\n" ++ letter) = letter := by decide
  have htarget : max 20 (budget - notice) < (k : ℤ) := by omega
  have hpop : popLines ⟨sub, letterCount k notice⟩ budget [] = [] := by
    rw [popLines]
    simp
  simp only [boundFile, letterCount_letter, if_neg hover.not_ge, truncate, letterCount_notice, hlines, retainLines,
    hcandidate, if_pos htarget, hpop]
  rfl

variable {maxTotalTokens : ℤ} {n notice : ℕ}

/-- Every set of so many files stays in the total, for every counter of the notice. -/
def FilesWithin (sub : Pattern → PyStr → PyStr) (maxTotalTokens : ℤ) (n notice : ℕ) : Prop :=
  ∀ count, MonotoneCount count → count truncationNotice = notice → ∀ files : FileTexts, files.length = n →
    (totalTokens ⟨sub, count⟩ (extractAndBoundFiles ⟨sub, count⟩ files maxTotalTokens) : ℤ) ≤ maxTotalTokens

/-- Copies of a text that are over the total are in it once they are bounded. -/
lemma FilesWithin.copies {count : PyStr → ℕ} (h : FilesWithin sub maxTotalTokens n notice)
    (hcount : MonotoneCount count) (hnotice : count truncationNotice = notice) {text : PyStr}
    (htext : ∀ pattern, sub pattern text = text) (hover : maxTotalTokens < n * (count text : ℤ)) :
    n * (count (boundFile ⟨sub, count⟩ (perFileBudget maxTotalTokens n) text) : ℤ) ≤ maxTotalTokens := by
  have hscrub : scrubSensitiveData ⟨sub, count⟩ text = text := scrub_of_sub htext
  have htotal := extract_copies ⟨sub, count⟩ maxTotalTokens n text
    (by rw [hscrub]; exact hover)
  have hwithin := h count hcount hnotice (SanitizedContextExtractor.copies n text) (copies_length n text)
  rw [htotal, hscrub] at hwithin
  exact_mod_cast hwithin

lemma FilesWithin.fifty (h : FilesWithin sub maxTotalTokens n notice) (hletter : ∀ pattern, sub pattern letter = letter) :
    50 * (n : ℤ) ≤ maxTotalTokens := by
  by_contra hover
  have hkept : boundFile ⟨sub, letterCount 50 notice⟩ (perFileBudget maxTotalTokens n) letter = letter := by
    simp only [boundFile, letterCount_letter]
    exact if_pos (le_max_left _ _)
  have hwithin := h.copies (letterCount_monotone 50 notice) (letterCount_notice 50 notice) hletter
    (by rw [letterCount_letter]; push_cast; linarith)
  rw [hkept, letterCount_letter] at hwithin
  push_cast at hwithin
  linarith

lemma FilesWithin.notices (h : FilesWithin sub maxTotalTokens n notice)
    (hletter : ∀ pattern, sub pattern letter = letter) (hfifty : 50 * (n : ℤ) ≤ maxTotalTokens) :
    n * (notice : ℤ) ≤ maxTotalTokens := by
  rcases Nat.eq_zero_or_pos n with rfl | hpos
  · simpa using hfifty
  have hone : (1 : ℤ) ≤ n := by exact_mod_cast hpos
  -- a letter that is over the total is cut to its notice
  obtain ⟨k, hk⟩ : ∃ k : ℕ, maxTotalTokens < k := ⟨maxTotalTokens.toNat + 1, by omega⟩
  have htwenty : 20 < k := by omega
  have hshare : perFileBudget maxTotalTokens n < k :=
    max_lt (by omega) (lt_of_le_of_lt (Int.ediv_le_self _ (by omega)) hk)
  have hwithin := h.copies (letterCount_monotone k notice) (letterCount_notice k notice) hletter
    (by rw [letterCount_letter]; nlinarith)
  rwa [boundFile_letter hshare htwenty, letterCount_notice] at hwithin

/-- Nothing matches, and a text has as many tokens as characters. -/
def charExtractor : SanitizedContextExtractor := ⟨fun _ text => text, List.length⟩

end Letter

/-! ## Counters that add up -/

section Subadditive

variable {extractor : SanitizedContextExtractor} {call : Consultation}

/-- The scrubbed texts of a call without its files. -/
def Consultation.headText (extractor : SanitizedContextExtractor) (call : Consultation) : PyStr :=
  extractor.scrubSensitiveData call.objective ++
    joinTexts " " (call.constraints.map extractor.scrubSensitiveData) ++
    joinTexts " " (call.questions.map extractor.scrubSensitiveData)

lemma joinTexts_empty (texts : List PyStr) : joinTexts "" texts = texts.flatten := by
  induction texts with
  | nil => rfl
  | cons text texts ih =>
    cases texts with
    | nil => simp [joinTexts]
    | cons next texts =>
      rw [joinTexts, List.intercalate_cons_cons, List.flatten_cons, ← ih, show toPyStr "" = [] from rfl,
        List.append_nil]
      rfl

lemma estimateTokens_append_le
    (hadd : ∀ a b, extractor.estimateTokens (a ++ b) ≤ extractor.estimateTokens a + extractor.estimateTokens b)
    (head : PyStr) (files : FileTexts) : extractor.estimateTokens (head ++ joinTexts "" (files.map Prod.snd)) ≤
      extractor.estimateTokens head + extractor.totalTokens files := by
  rw [joinTexts_empty]
  induction files generalizing head with
  | nil => simp [SanitizedContextExtractor.totalTokens]
  | cons file files ih =>
    have hrest := ih (head ++ file.2)
    have hfile := hadd head file.2
    simp only [List.map_cons, List.flatten_cons, SanitizedContextExtractor.totalTokens, List.sum_cons,
      List.append_assoc] at hrest ⊢
    omega

/-- With a counter that adds up at most, thirty files leave room for the other texts. -/
theorem createPacket_within
    (hadd : ∀ a b, extractor.estimateTokens (a ++ b) ≤ extractor.estimateTokens a + extractor.estimateTokens b)
    (hfiles : call.files.length ≤ 30)
    (hnotices : call.files.length * extractor.estimateTokens truncationNotice ≤ 1500)
    (hhead : (extractor.estimateTokens (call.headText extractor) : ℤ) + 1500 ≤ min call.maxTokens 2000)
    (packetId : PyStr) :
    ((call.createPacket extractor packetId).estimatedTokens : ℤ) ≤
      (call.createPacket extractor packetId).tokenBudget := by
  have hwithin := SanitizedContextExtractor.extract_within extractor 1500 call.files (by omega) (by exact_mod_cast hnotices)
  have hsum := estimateTokens_append_le hadd (call.headText extractor) (extractor.extractAndBoundFiles call.files 1500)
  have htext : (call.createPacket extractor packetId).estimatedTokens =
      extractor.estimateTokens (call.headText extractor ++
        joinTexts "" ((extractor.extractAndBoundFiles call.files 1500).map Prod.snd)) := rfl
  rw [htext]
  exact le_trans (by omega) hhead

end Subadditive

end AgentSystem.Advisor

import AgentSystem.TaskScopes

/-!
# Protected paths

Two guards read the list of protected patterns: the executor before it applies a plan, and the
environment before it lets a file be changed. What each of them refuses is compared with what the
entries of the list say as globs and directories.
-/
namespace AgentSystem.Executor

open Json Audit

/-! ## Globs -/

section Globs

variable {α : Type} [DecidableEq α]

/-- `fnmatch` for patterns whose one wildcard is the star. -/
def globMatch (star : α) : List α → List α → Bool
  | [], text => text.isEmpty
  | c :: pattern, text =>
      if c = star then text.tails.any (globMatch star pattern)
      else text.head? = some c && globMatch star pattern text.tail

lemma globMatch_cons (star c : α) (pattern text : List α) :
    globMatch star (c :: pattern) text =
      if c = star then text.tails.any (globMatch star pattern)
      else decide (text.head? = some c) && globMatch star pattern text.tail := rfl

lemma globMatch_literal {star : α} {literal : List α} (h : star ∉ literal) (pattern text : List α) :
    globMatch star (literal ++ pattern) text = true ↔
      ∃ rest, text = literal ++ rest ∧ globMatch star pattern rest = true := by
  induction literal generalizing text with
  | nil => simp
  | cons c literal ih =>
      rw [List.mem_cons, not_or] at h
      rw [List.cons_append, globMatch_cons, if_neg (Ne.symm h.1)]
      cases text with
      | nil => simp
      | cons d text =>
          rw [List.head?_cons, List.tail_cons, Bool.and_eq_true, decide_eq_true_iff,
            Option.some.injEq, ih h.2]
          constructor
          · rintro ⟨rfl, rest, rfl, hrest⟩
            exact ⟨rest, rfl, hrest⟩
          · rintro ⟨rest, heq, hrest⟩
            cases heq
            exact ⟨rfl, rest, rfl, hrest⟩

/-- A pattern without a star matches itself. -/
lemma globMatch_plain {star : α} {literal : List α} (h : star ∉ literal) (text : List α) :
    globMatch star literal text = true ↔ text = literal := by
  have hliteral := globMatch_literal h [] text
  rw [List.append_nil] at hliteral
  simp [hliteral, globMatch]

/-- A star at the end matches every text that starts with the rest. -/
lemma globMatch_stem {star : α} {literal : List α} (h : star ∉ literal) (text : List α) :
    globMatch star (literal ++ [star]) text = true ↔ literal <+: text := by
  rw [globMatch_literal h]
  constructor
  · rintro ⟨rest, rfl, -⟩
    exact List.prefix_append _ _
  · rintro ⟨rest, rfl⟩
    refine ⟨rest, rfl, ?_⟩
    rw [globMatch_cons, if_pos rfl, List.any_eq_true]
    exact ⟨[], (List.mem_tails _ _).mpr List.nil_suffix, rfl⟩

/-- A star at the start matches every text that ends with the rest. -/
lemma globMatch_extension {star : α} {literal : List α} (h : star ∉ literal) (text : List α) :
    globMatch star (star :: literal) text = true ↔ literal <:+ text := by
  rw [globMatch_cons, if_pos rfl, List.any_eq_true]
  constructor
  · rintro ⟨rest, hrest, hmatch⟩
    rw [(globMatch_plain h rest).mp hmatch] at hrest
    exact (List.mem_tails _ _).mp hrest
  · intro hsuffix
    exact ⟨literal, (List.mem_tails _ _).mpr hsuffix, (globMatch_plain h literal).mpr rfl⟩

end Globs

/-! ## The entries of the list -/

/-- An entry of the protected patterns matches a path: an entry that ends with a slash as a
directory that the path lies in, every other one as a glob of the path or of its name. -/
def matchesEntry (path : PyStr) (pattern : String) : Bool :=
  let clean := cleanPath path
  let cleanPat := cleanPath (toPyStr pattern)
  if endsWith cleanPat [slash] then
    startsWith clean cleanPat || decide (slash :: cleanPat <:+: slash :: clean)
  else
    globMatch (codePoint '*') cleanPat clean || globMatch (codePoint '*') cleanPat (pathName clean)

def stems : List String := [".env", "id_rsa"]

def directories : List String := [".git/", ".github/workflows/"]

def plainNames : List String := [".git", "credentials.json", "secrets.yaml"]

def extensions : List String := [".pem", ".key"]

section Entries

variable (clean : PyStr)

/-- The text or its name starts with a stem, or the text is an entry or ends with one behind a
slash. -/
def Refused : Prop :=
  (∃ stem ∈ stems, startsWith clean (toPyStr stem) = true ∨
    startsWith (pathName clean) (toPyStr stem) = true) ∨
  ∃ pattern ∈ defaultProtectedPatterns, clean = toPyStr pattern ∨
    endsWith clean (slash :: toPyStr pattern) = true

/-- The text lies in a protected directory. -/
def Inside : Prop :=
  ∃ directory ∈ directories, startsWith clean (toPyStr directory) = true ∨
    slash :: toPyStr directory <:+: slash :: clean

/-- The name is a protected one. -/
def Named : Prop := ∃ name ∈ plainNames, pathName clean = toPyStr name

/-- The text or its name has the extension of a key. -/
def KeyFile : Prop :=
  ∃ extension ∈ extensions, endsWith clean (toPyStr extension) = true ∨
    endsWith (pathName clean) (toPyStr extension) = true

/-- The name is the pattern of an extension itself. -/
def StarNamed : Prop :=
  ∃ extension ∈ extensions, pathName clean = codePoint '*' :: toPyStr extension

instance : Decidable (Refused clean) := inferInstanceAs (Decidable (_ ∨ _))

instance : Decidable (Inside clean) :=
  inferInstanceAs (Decidable (∃ directory ∈ directories, _))

instance : Decidable (Named clean) := inferInstanceAs (Decidable (∃ name ∈ plainNames, _))

instance : Decidable (KeyFile clean) :=
  inferInstanceAs (Decidable (∃ extension ∈ extensions, _))

instance : Decidable (StarNamed clean) :=
  inferInstanceAs (Decidable (∃ extension ∈ extensions, _))

end Entries

/-! ## The entries as they are compared -/

lemma star_notMem {text : String} (h : text ∈ stems ++ directories ++ plainNames ++ extensions) :
    codePoint '*' ∉ toPyStr text := by
  revert text
  decide

/-- Nothing is stripped from an entry. -/
lemma cleanPath_entry {pattern : String} (h : pattern ∈ defaultProtectedPatterns) :
    cleanPath (toPyStr pattern) = toPyStr pattern := by
  simp only [defaultProtectedPatterns, List.mem_cons, List.not_mem_nil, or_false] at h
  rcases h with rfl | rfl | rfl | rfl | rfl | rfl | rfl | rfl | rfl <;> rfl

/-- The name behind the last slash of a text. -/
lemma pathName_of_endsWith {text name : PyStr} (hslash : slash ∉ name) (hempty : name ≠ [])
    (hdot : name ≠ toPyStr ".") (h : endsWith text (slash :: name) = true) :
    pathName text = name := by
  obtain ⟨directory, rfl⟩ := List.isSuffixOf_iff_suffix.mp h
  have hparts : components (directory ++ slash :: name) = components directory ++ [name] := by
    rw [components, List.splitOn_append_cons_self, List.splitOn_eq_singleton hslash,
      List.filter_append, components]
    congr 1
    simp [hempty, hdot]
  rw [pathName, hparts, List.getLast?_concat, Option.getD_some]

lemma protectedTarget_ne_none {path pattern : String} (h : pattern ∈ defaultProtectedPatterns) :
    protectedTarget path pattern ≠ none ↔
      endsWith (toPyStr pattern) (toPyStr "*") = true ∧
          (startsWith (cleanPath (toPyStr path)) (toPyStr pattern).dropLast = true ∨
            startsWith (pathName (cleanPath (toPyStr path))) (toPyStr pattern).dropLast = true) ∨
        cleanPath (toPyStr path) = toPyStr pattern ∨
        endsWith (cleanPath (toPyStr path)) (slash :: toPyStr pattern) = true := by
  rw [protectedTarget, cleanPath_entry h]
  split_ifs with hstem hplain
  · simp only [Bool.and_eq_true, Bool.or_eq_true] at hstem
    exact iff_of_true (Option.some_ne_none _) (.inl hstem)
  · simp only [Bool.or_eq_true, decide_eq_true_eq] at hplain
    exact iff_of_true (Option.some_ne_none _) (.inr hplain)
  · simp only [Bool.and_eq_true, Bool.or_eq_true] at hstem
    simp only [Bool.or_eq_true, decide_eq_true_eq] at hplain
    exact iff_of_false (fun hne => hne rfl) fun hsome => hsome.elim hstem hplain

/-- The four kinds of entries. -/
lemma entry_cases {pattern : String} (h : pattern ∈ defaultProtectedPatterns) :
    (∃ stem ∈ stems, toPyStr pattern = toPyStr stem ++ [codePoint '*']) ∨
      pattern ∈ directories ∨ pattern ∈ plainNames ∨
        ∃ extension ∈ extensions, toPyStr pattern = codePoint '*' :: toPyStr extension := by
  simp only [defaultProtectedPatterns, List.mem_cons, List.not_mem_nil, or_false] at h
  rcases h with rfl | rfl | rfl | rfl | rfl | rfl | rfl | rfl | rfl
  · exact .inl ⟨".env", by decide, rfl⟩
  · exact .inr (.inl (by decide))
  · exact .inr (.inr (.inl (by decide)))
  · exact .inr (.inl (by decide))
  · exact .inl ⟨"id_rsa", by decide, rfl⟩
  · exact .inr (.inr (.inr ⟨".pem", by decide, rfl⟩))
  · exact .inr (.inr (.inr ⟨".key", by decide, rfl⟩))
  · exact .inr (.inr (.inl (by decide)))
  · exact .inr (.inr (.inl (by decide)))

lemma exists_stem {stem : String} (h : stem ∈ stems) :
    ∃ pattern ∈ defaultProtectedPatterns, toPyStr pattern = toPyStr stem ++ [codePoint '*'] := by
  simp only [stems, List.mem_cons, List.not_mem_nil, or_false] at h
  rcases h with rfl | rfl
  · exact ⟨".env*", by decide, rfl⟩
  · exact ⟨"id_rsa*", by decide, rfl⟩

lemma exists_extension {extension : String} (h : extension ∈ extensions) :
    ∃ pattern ∈ defaultProtectedPatterns,
      toPyStr pattern = codePoint '*' :: toPyStr extension := by
  simp only [extensions, List.mem_cons, List.not_mem_nil, or_false] at h
  rcases h with rfl | rfl
  · exact ⟨"*.pem", by decide, rfl⟩
  · exact ⟨"*.key", by decide, rfl⟩

lemma mem_of_directory {directory : String} (h : directory ∈ directories) :
    directory ∈ defaultProtectedPatterns := by
  revert directory
  decide

lemma mem_of_plainName {name : String} (h : name ∈ plainNames) :
    name ∈ defaultProtectedPatterns := by
  revert name
  decide

lemma endsWith_concat (text : PyStr) (c d : CodePoint) :
    endsWith (text ++ [c]) [d] = decide (c = d) := by
  rw [endsWith, Bool.eq_iff_iff, List.isSuffixOf_iff_suffix, decide_eq_true_iff]
  constructor
  · rintro ⟨rest, heq⟩
    exact (List.append_inj' heq.symm rfl).2 |> List.singleton_inj.mp
  · rintro rfl
    exact List.suffix_append _ _

/-- A directory ends with a slash. -/
lemma directory_ends {directory : String} (h : directory ∈ directories) :
    endsWith (toPyStr directory) (toPyStr "*") = false ∧
      endsWith (toPyStr directory) [slash] = true := by
  revert directory
  decide

/-- The plain names and the extensions end with neither a star nor a slash. -/
lemma plain_ends {pattern : String} (h : pattern ∈ defaultProtectedPatterns)
    (hkind : pattern ∈ plainNames ∨
      ∃ extension ∈ extensions, toPyStr pattern = codePoint '*' :: toPyStr extension) :
    endsWith (toPyStr pattern) (toPyStr "*") = false ∧
      endsWith (toPyStr pattern) [slash] = false := by
  rcases hkind with hname | ⟨extension, hextension, heq⟩
  · revert pattern
    decide
  · rw [heq]
    clear heq
    revert extension
    decide

/-! ## What one entry says -/

section Kinds

variable {path : PyStr} {pattern stem : String}

/-- What an entry that ends with a star says, in each of the guards and as a glob. -/
def StemTest (path : PyStr) (stem : String) : Prop :=
  startsWith (cleanPath path) (toPyStr stem) = true ∨
    startsWith (pathName (cleanPath path)) (toPyStr stem) = true

lemma stem_ends (heq : toPyStr pattern = toPyStr stem ++ [codePoint '*']) :
    endsWith (toPyStr pattern) (toPyStr "*") = true ∧
      endsWith (toPyStr pattern) [slash] = false := by
  rw [heq, show toPyStr "*" = [codePoint '*'] from rfl, endsWith_concat, endsWith_concat]
  decide

lemma protectedReason_stem (h : pattern ∈ defaultProtectedPatterns)
    (heq : toPyStr pattern = toPyStr stem ++ [codePoint '*']) :
    protectedReason path pattern ≠ none ↔ StemTest path stem := by
  rw [protectedReason, cleanPath_entry h, if_pos (stem_ends heq).1, heq, List.dropLast_concat,
    StemTest, ← Bool.or_eq_true]
  split_ifs with htest
  · exact iff_of_true (Option.some_ne_none _) htest
  · exact iff_of_false (fun hne => hne rfl) htest

lemma matchesEntry_stem (h : pattern ∈ defaultProtectedPatterns) (hstem : stem ∈ stems)
    (heq : toPyStr pattern = toPyStr stem ++ [codePoint '*']) :
    matchesEntry path pattern = true ↔ StemTest path stem := by
  have hstar : codePoint '*' ∉ toPyStr stem := star_notMem (by simp [hstem])
  rw [matchesEntry, cleanPath_entry h, if_neg (by simp [(stem_ends heq).2]), heq,
    Bool.or_eq_true, globMatch_stem hstar, globMatch_stem hstar, StemTest, startsWith, startsWith,
    List.isPrefixOf_iff_prefix, List.isPrefixOf_iff_prefix]

/-- What an entry that ends with a slash says. -/
def DirectoryTest (path : PyStr) (directory : String) : Prop :=
  startsWith (cleanPath path) (toPyStr directory) = true ∨
    slash :: toPyStr directory <:+: slash :: cleanPath path

lemma protectedReason_directory (h : pattern ∈ defaultProtectedPatterns)
    (hdir : pattern ∈ directories) :
    protectedReason path pattern ≠ none ↔ DirectoryTest path pattern := by
  obtain ⟨hstar, hslash⟩ := directory_ends hdir
  rw [protectedReason, cleanPath_entry h, if_neg (by simp [hstar]), if_pos hslash]
  split_ifs with htest
  · rw [Bool.or_eq_true, decide_eq_true_iff] at htest
    exact iff_of_true (Option.some_ne_none _) htest
  · rw [Bool.or_eq_true, decide_eq_true_iff] at htest
    exact iff_of_false (fun hne => hne rfl) htest

lemma matchesEntry_directory (h : pattern ∈ defaultProtectedPatterns)
    (hdir : pattern ∈ directories) :
    matchesEntry path pattern = true ↔ DirectoryTest path pattern := by
  rw [matchesEntry, cleanPath_entry h, if_pos (directory_ends hdir).2, DirectoryTest,
    Bool.or_eq_true, decide_eq_true_iff]

lemma protectedReason_plain (h : pattern ∈ defaultProtectedPatterns)
    (hkind : pattern ∈ plainNames ∨
      ∃ extension ∈ extensions, toPyStr pattern = codePoint '*' :: toPyStr extension) :
    protectedReason path pattern ≠ none ↔ cleanPath path = toPyStr pattern ∨
      endsWith (cleanPath path) (slash :: toPyStr pattern) = true ∨
      pathName (cleanPath path) = toPyStr pattern := by
  obtain ⟨hstar, hslash⟩ := plain_ends h hkind
  rw [protectedReason, cleanPath_entry h, if_neg (by simp [hstar]), if_neg (by simp [hslash])]
  split_ifs with htest
  · simp only [Bool.or_eq_true, decide_eq_true_eq, or_assoc] at htest
    exact iff_of_true (Option.some_ne_none _) htest
  · simp only [Bool.or_eq_true, decide_eq_true_eq, or_assoc] at htest
    exact iff_of_false (fun hne => hne rfl) htest

lemma matchesEntry_plain (h : pattern ∈ defaultProtectedPatterns) (hname : pattern ∈ plainNames) :
    matchesEntry path pattern = true ↔
      cleanPath path = toPyStr pattern ∨ pathName (cleanPath path) = toPyStr pattern := by
  have hstar : codePoint '*' ∉ toPyStr pattern := star_notMem (by simp [hname])
  rw [matchesEntry, cleanPath_entry h, if_neg (by simp [(plain_ends h (.inl hname)).2]),
    Bool.or_eq_true, globMatch_plain hstar, globMatch_plain hstar]

lemma matchesEntry_extension {extension : String} (h : pattern ∈ defaultProtectedPatterns)
    (hmem : extension ∈ extensions)
    (heq : toPyStr pattern = codePoint '*' :: toPyStr extension) :
    matchesEntry path pattern = true ↔ endsWith (cleanPath path) (toPyStr extension) = true ∨
      endsWith (pathName (cleanPath path)) (toPyStr extension) = true := by
  have hstar : codePoint '*' ∉ toPyStr extension := star_notMem (by simp [hmem])
  rw [matchesEntry, cleanPath_entry h,
    if_neg (by simp [(plain_ends h (.inr ⟨extension, hmem, heq⟩)).2]), heq, Bool.or_eq_true,
    globMatch_extension hstar, globMatch_extension hstar, endsWith, endsWith,
    List.isSuffixOf_iff_suffix, List.isSuffixOf_iff_suffix]

end Kinds

/-! ## What the list says -/

section Lists

variable {path : PyStr}

/-- An entry as the end of a text is what it says as a stem. -/
lemma stemTest_of_literal {pattern stem : String}
    (hstem : stem ∈ stems) (heq : toPyStr pattern = toPyStr stem ++ [codePoint '*'])
    (h : cleanPath path = toPyStr pattern ∨
      endsWith (cleanPath path) (slash :: toPyStr pattern) = true) : StemTest path stem := by
  have hstarts : startsWith (toPyStr pattern) (toPyStr stem) = true := by
    rw [heq, startsWith, List.isPrefixOf_iff_prefix]
    exact List.prefix_append _ _
  rcases h with h | h
  · exact .inl (by rwa [h])
  · have hplain : slash ∉ toPyStr pattern ∧ toPyStr pattern ≠ toPyStr "." := by
      rw [heq]
      clear heq hstarts h
      revert stem
      decide
    have hname := pathName_of_endsWith hplain.1 (by simp [heq]) hplain.2 h
    exact .inr (by rwa [hname])

lemma directoryTest_of_literal {directory : String}
    (h : cleanPath path = toPyStr directory ∨
      endsWith (cleanPath path) (slash :: toPyStr directory) = true) :
    DirectoryTest path directory := by
  rcases h with h | h
  · refine .inl ?_
    rw [h, startsWith, List.isPrefixOf_iff_prefix]
  · refine .inr ?_
    have hsuffix := List.isSuffixOf_iff_suffix.mp h
    exact (hsuffix.trans (List.suffix_cons _ _)).isInfix

lemma pathName_of_plainName {name : String} (hname : name ∈ plainNames)
    (h : endsWith (cleanPath path) (slash :: toPyStr name) = true) :
    pathName (cleanPath path) = toPyStr name := by
  have hplain : slash ∉ toPyStr name ∧ toPyStr name ≠ [] ∧ toPyStr name ≠ toPyStr "." := by
    clear h
    revert name
    decide
  exact pathName_of_endsWith hplain.1 hplain.2.1 hplain.2.2 h

/-- What the executor refuses. -/
lemma exists_protectedTarget (path : String) :
    (∃ pattern ∈ defaultProtectedPatterns, protectedTarget path pattern ≠ none) ↔
      Refused (cleanPath (toPyStr path)) := by
  constructor
  · rintro ⟨pattern, hmem, hne⟩
    rcases (protectedTarget_ne_none hmem).mp hne with ⟨hstar, hstem⟩ | hliteral
    · rcases entry_cases hmem with ⟨stem, hin, heq⟩ | hdir | hkind
      · rw [heq, List.dropLast_concat] at hstem
        exact .inl ⟨stem, hin, hstem⟩
      · rw [(directory_ends hdir).1] at hstar
        cases hstar
      · rw [(plain_ends hmem hkind).1] at hstar
        cases hstar
    · exact .inr ⟨pattern, hmem, hliteral⟩
  · rintro (⟨stem, hin, hstem⟩ | ⟨pattern, hmem, hliteral⟩)
    · obtain ⟨pattern, hmem, heq⟩ := exists_stem hin
      refine ⟨pattern, hmem, (protectedTarget_ne_none hmem).mpr (.inl ⟨(stem_ends heq).1, ?_⟩)⟩
      rwa [heq, List.dropLast_concat]
    · exact ⟨pattern, hmem, (protectedTarget_ne_none hmem).mpr (.inr hliteral)⟩

/-- What the environment refuses. -/
lemma exists_protectedReason :
    (∃ pattern ∈ defaultProtectedPatterns, protectedReason path pattern ≠ none) ↔
      Refused (cleanPath path) ∨ Inside (cleanPath path) ∨ Named (cleanPath path) ∨
        StarNamed (cleanPath path) := by
  constructor
  · rintro ⟨pattern, hmem, hne⟩
    rcases entry_cases hmem with ⟨stem, hin, heq⟩ | hdir | hkind
    · exact .inl (.inl ⟨stem, hin, (protectedReason_stem hmem heq).mp hne⟩)
    · exact .inr (.inl ⟨pattern, hdir, (protectedReason_directory hmem hdir).mp hne⟩)
    · rcases (protectedReason_plain hmem hkind).mp hne with heq | hends | hname
      · exact .inl (.inr ⟨pattern, hmem, .inl heq⟩)
      · exact .inl (.inr ⟨pattern, hmem, .inr hends⟩)
      · rcases hkind with hplain | ⟨extension, hin, heq⟩
        · exact .inr (.inr (.inl ⟨pattern, hplain, hname⟩))
        · exact .inr (.inr (.inr ⟨extension, hin, hname.trans heq⟩))
  · rintro ((⟨stem, hin, hstem⟩ | ⟨pattern, hmem, hliteral⟩) | ⟨directory, hdir, htest⟩ |
      ⟨name, hplain, hname⟩ | ⟨extension, hin, hname⟩)
    · obtain ⟨pattern, hmem, heq⟩ := exists_stem hin
      exact ⟨pattern, hmem, (protectedReason_stem hmem heq).mpr hstem⟩
    · refine ⟨pattern, hmem, ?_⟩
      rcases entry_cases hmem with ⟨stem, hin, heq⟩ | hdir | hkind
      · exact (protectedReason_stem hmem heq).mpr (stemTest_of_literal hin heq hliteral)
      · exact (protectedReason_directory hmem hdir).mpr (directoryTest_of_literal hliteral)
      · exact (protectedReason_plain hmem hkind).mpr (hliteral.imp_right .inl)
    · have hmem := mem_of_directory hdir
      exact ⟨directory, hmem, (protectedReason_directory hmem hdir).mpr htest⟩
    · have hmem := mem_of_plainName hplain
      exact ⟨name, hmem, (protectedReason_plain hmem (.inl hplain)).mpr (.inr (.inr hname))⟩
    · obtain ⟨pattern, hmem, heq⟩ := exists_extension hin
      exact ⟨pattern, hmem, (protectedReason_plain hmem (.inr ⟨extension, hin, heq⟩)).mpr
        (.inr (.inr (hname.trans heq.symm)))⟩

/-- What the entries match. -/
lemma exists_matchesEntry :
    (∃ pattern ∈ defaultProtectedPatterns, matchesEntry path pattern = true) ↔
      Refused (cleanPath path) ∨ Inside (cleanPath path) ∨ Named (cleanPath path) ∨
        KeyFile (cleanPath path) := by
  constructor
  · rintro ⟨pattern, hmem, hmatch⟩
    rcases entry_cases hmem with ⟨stem, hin, heq⟩ | hdir | hplain | ⟨extension, hin, heq⟩
    · exact .inl (.inl ⟨stem, hin, (matchesEntry_stem hmem hin heq).mp hmatch⟩)
    · exact .inr (.inl ⟨pattern, hdir, (matchesEntry_directory hmem hdir).mp hmatch⟩)
    · rcases (matchesEntry_plain hmem hplain).mp hmatch with heq | hname
      · exact .inl (.inr ⟨pattern, hmem, .inl heq⟩)
      · exact .inr (.inr (.inl ⟨pattern, hplain, hname⟩))
    · exact .inr (.inr (.inr ⟨extension, hin, (matchesEntry_extension hmem hin heq).mp hmatch⟩))
  · rintro ((⟨stem, hin, hstem⟩ | ⟨pattern, hmem, hliteral⟩) | ⟨directory, hdir, htest⟩ |
      ⟨name, hplain, hname⟩ | ⟨extension, hin, hkey⟩)
    · obtain ⟨pattern, hmem, heq⟩ := exists_stem hin
      exact ⟨pattern, hmem, (matchesEntry_stem hmem hin heq).mpr hstem⟩
    · refine ⟨pattern, hmem, ?_⟩
      rcases entry_cases hmem with ⟨stem, hin, heq⟩ | hdir | hplain | ⟨extension, hin, heq⟩
      · exact (matchesEntry_stem hmem hin heq).mpr (stemTest_of_literal hin heq hliteral)
      · exact (matchesEntry_directory hmem hdir).mpr (directoryTest_of_literal hliteral)
      · exact (matchesEntry_plain hmem hplain).mpr
          (hliteral.imp_right (pathName_of_plainName hplain))
      · refine (matchesEntry_extension hmem hin heq).mpr (.inl ?_)
        rw [endsWith, List.isSuffixOf_iff_suffix]
        have hsuffix : toPyStr extension <:+ toPyStr pattern := by
          rw [heq]
          exact List.suffix_cons _ _
        rcases hliteral with hclean | hends
        · rwa [hclean]
        · exact (hsuffix.trans (List.suffix_cons _ _)).trans (List.isSuffixOf_iff_suffix.mp hends)
    · have hmem := mem_of_directory hdir
      exact ⟨directory, hmem, (matchesEntry_directory hmem hdir).mpr htest⟩
    · have hmem := mem_of_plainName hplain
      exact ⟨name, hmem, (matchesEntry_plain hmem hplain).mpr (.inr hname)⟩
    · obtain ⟨pattern, hmem, heq⟩ := exists_extension hin
      exact ⟨pattern, hmem, (matchesEntry_extension hmem hin heq).mpr hkey⟩

end Lists

/-! ## The two guards -/

section Guards

variable {D : Type} [Coercion D] {env : TaskEnvironment D} {role path : String}

/-- The two guards refuse the same path, and neither lets one through that an entry of the list
matches. -/
def GuardsAgree (env : TaskEnvironment D) (role path : String) : Prop :=
  (validateScopeCompliance role [path] ≠ none ↔ env.isPathMutable (toPyStr path) ≠ none) ∧
  ∀ pattern ∈ defaultProtectedPatterns, matchesEntry (toPyStr path) pattern = true →
    validateScopeCompliance role [path] ≠ none ∧ env.isPathMutable (toPyStr path) ≠ none

lemma allows_self (path : String) : allows (toPyStr path) path = true := by
  rw [allows]
  split_ifs
  · rw [startsWith, List.isPrefixOf_iff_prefix]
  · exact decide_eq_true rfl

/-- A path in the allowlist is refused only as a protected one. -/
lemma isPathMutable_ne_none (hscope : env.protectedScope = defaultProtectedPatterns)
    (hmem : path ∈ env.mutableScope) :
    env.isPathMutable (toPyStr path) ≠ none ↔
      ∃ pattern ∈ defaultProtectedPatterns, protectedReason (toPyStr path) pattern ≠ none := by
  have hin : env.InScope (toPyStr path) := .inr ⟨path, hmem, allows_self path⟩
  rw [Ne, env.isPathMutable_eq_none, and_iff_left hin, not_not, TaskEnvironment.Protects, hscope]

lemma validateScopeCompliance_ne_none (hrole : (roleRule role).forbiddenPrefixes = [])
    (path : String) :
    validateScopeCompliance role [path] ≠ none ↔ (roleRule role).readOnly = true ∨
      ∃ pattern ∈ defaultProtectedPatterns, protectedTarget path pattern ≠ none := by
  have hforbidden : forbiddenPrefix role (cleanPath (toPyStr path)) = none := by
    rw [forbiddenPrefix, hrole, List.find?_nil]
  rw [validateScopeCompliance]
  cases hreadOnly : (roleRule role).readOnly with
  | true => simp
  | false => simp [hforbidden, List.findSome?_eq_none_iff]

lemma keyFile_of_starNamed {clean : PyStr} (h : StarNamed clean) : KeyFile clean := by
  obtain ⟨extension, hin, hname⟩ := h
  refine ⟨extension, hin, .inr ?_⟩
  rw [hname, endsWith, List.isSuffixOf_iff_suffix]
  exact List.suffix_cons _ _

/-- The guards agree with each other and with the list exactly on a path whose directory, name or
extension is protected only if the executor finds the entry in its text too; a role that may not
write at all agrees on the paths that the environment protects. -/
theorem guardsAgree_iff (hrole : (roleRule role).forbiddenPrefixes = [])
    (hscope : env.protectedScope = defaultProtectedPatterns) (hmem : path ∈ env.mutableScope) :
    GuardsAgree env role path ↔
      if (roleRule role).readOnly then
        Refused (cleanPath (toPyStr path)) ∨ Inside (cleanPath (toPyStr path)) ∨
          Named (cleanPath (toPyStr path)) ∨ StarNamed (cleanPath (toPyStr path))
      else
        Inside (cleanPath (toPyStr path)) ∨ Named (cleanPath (toPyStr path)) ∨
          KeyFile (cleanPath (toPyStr path)) → Refused (cleanPath (toPyStr path)) := by
  have hexecutor := validateScopeCompliance_ne_none hrole path
  rw [exists_protectedTarget] at hexecutor
  have henvironment := isPathMutable_ne_none hscope hmem
  rw [exists_protectedReason] at henvironment
  have hlist : (∀ pattern ∈ defaultProtectedPatterns, matchesEntry (toPyStr path) pattern = true →
      validateScopeCompliance role [path] ≠ none ∧ env.isPathMutable (toPyStr path) ≠ none) ↔
      ((∃ pattern ∈ defaultProtectedPatterns, matchesEntry (toPyStr path) pattern = true) →
        validateScopeCompliance role [path] ≠ none ∧ env.isPathMutable (toPyStr path) ≠ none) :=
    ⟨fun h ⟨pattern, hin, hmatch⟩ => h pattern hin hmatch,
      fun h pattern hin hmatch => h ⟨pattern, hin, hmatch⟩⟩
  rw [GuardsAgree, hlist, exists_matchesEntry, hexecutor, henvironment]
  cases (roleRule role).readOnly with
  | true =>
      rw [if_pos rfl]
      constructor
      · rintro ⟨hsame, -⟩
        exact hsame.mp (.inl rfl)
      · intro hprotected
        exact ⟨⟨fun _ => hprotected, fun _ => .inl rfl⟩, fun _ => ⟨.inl rfl, hprotected⟩⟩
  | false =>
      rw [if_neg Bool.false_ne_true, or_iff_right Bool.false_ne_true]
      constructor
      · rintro ⟨-, hmatched⟩ hkind
        exact (hmatched (.inr hkind)).1
      · intro hkind
        refine ⟨⟨.inl, ?_⟩, ?_⟩
        · rintro (hrefused | hinside | hnamed | hstar)
          · exact hrefused
          · exact hkind (.inl hinside)
          · exact hkind (.inr (.inl hnamed))
          · exact hkind (.inr (.inr (keyFile_of_starNamed hstar)))
        · rintro (hrefused | hrest)
          · exact ⟨hrefused, .inl hrefused⟩
          · exact ⟨hkind hrest, .inl (hkind hrest)⟩

/-- An environment for one file. -/
def environmentFor (path : String) : TaskEnvironment D where
  agentRole := "INTEGRATION_MERGE_AGENT"
  mutableScope := [path]

/-- The guards agree on a plain source file. -/
theorem guardsAgree_source :
    GuardsAgree (environmentFor (D := Empty) "src/app.py") "INTEGRATION_MERGE_AGENT" "src/app.py" := by
  refine (guardsAgree_iff rfl rfl (List.mem_singleton.mpr rfl)).mpr ?_
  decide

/-- The executor lets a file in the directory of the repository through, which the environment
refuses, and both let a key through. -/
theorem guards_disagree :
    ¬GuardsAgree (environmentFor (D := Empty) ".git/config") "INTEGRATION_MERGE_AGENT"
      ".git/config" ∧
    ¬GuardsAgree (environmentFor (D := Empty) "keys/server.pem") "INTEGRATION_MERGE_AGENT"
      "keys/server.pem" := by
  constructor
  · intro hagree
    refine hagree.1.mpr ?_ ?_
    · decide
    · decide
  · intro hagree
    refine (hagree.2 "*.pem" (by decide) ?_).1 ?_
    · decide
    · decide

end Guards

end AgentSystem.Executor

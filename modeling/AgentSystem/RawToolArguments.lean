import AgentSystem.CheckpointFile
import AgentSystem.JsonWrite
import AgentSystem.ProtocolRepair

/-!
# Raw tool arguments

`parse_raw_arguments`: the texts in which a model writes the arguments of a call, with code fences and tags
around them, and the parsers that are tried on what is left.
-/
namespace AgentSystem.ProtocolRepair

open Json CheckpointFile Executor

variable {D : Type}

/-! ## Texts -/

/-- What stands before and after the first occurrence of a mark. -/
def cut (mark : PyStr) : PyStr → Option (PyStr × PyStr)
  | [] => none
  | c :: text =>
      if startsWith (c :: text) mark then some ([], (c :: text).drop mark.length)
      else (cut mark text).map (Prod.map (c :: ·) id)

def fence : PyStr := toPyStr "```"

/-- The characters that match a letter of `json` in any case. -/
def jsonLetters : List PyStr := [toPyStr "jJ", toPyStr "sSſ", toPyStr "oO", toPyStr "nN"]

/-- `(?:json)?`, in any case. -/
def dropJson (text : PyStr) : PyStr :=
  if text.length ≥ 4 ∧ (List.zipWith (fun c letters => decide (c ∈ letters)) text jsonLetters).all id then
    text.drop 4
  else text

/-- What stands between the first fence and the next one. -/
def fenced (text : PyStr) : Option PyStr :=
  (cut fence text).bind fun parts => (cut fence (dropJson parts.2)).map fun inner => strip inner.1

/-- The characters at which `splitlines` ends a line. -/
def isLineEnd (c : CodePoint) : Bool :=
  (10 ≤ c.val && c.val ≤ 13) || (28 ≤ c.val && c.val ≤ 30) || c.val = 0x85 || c.val = 0x2028 || c.val = 0x2029

/-- The pairs of a carriage return and a line feed as line feeds. -/
def joinLineEnds : PyStr → PyStr
  | [] => []
  | c :: text => if c.val = 13 ∧ text.head? = some 10 then joinLineEnds text else c :: joinLineEnds text

/-- The lines of a text, where this one has begun. -/
def linesFrom (line : PyStr) : PyStr → List PyStr
  | [] => if line = [] then [] else [line]
  | c :: text => if isLineEnd c then line :: linesFrom [] text else linesFrom (line ++ [c]) text

/-- `text.splitlines()`. -/
def splitlines (text : PyStr) : List PyStr := linesFrom [] (joinLineEnds text)

/-- The text in its fences, or without the lines that begin with one. -/
def stripFences (text : PyStr) : PyStr :=
  if (cut fence text).isSome then
    (fenced text).getD (strip ((toPyStr "\n").intercalate
      ((splitlines text).filter fun line => !startsWith (strip line) fence)))
  else text

/-- `[a-zA-Z0-9_\-]`. -/
def isTagChar (c : CodePoint) : Bool :=
  (48 ≤ c.val && c.val ≤ 57) || (65 ≤ c.val && c.val ≤ 90) || (97 ≤ c.val && c.val ≤ 122) || c.val = 95 ||
    c.val = 45

/-- What follows `<name>` at the start. -/
def afterTag : PyStr → Option PyStr
  | [] => none
  | c :: text =>
      if c = codePoint '<' ∧ text.takeWhile isTagChar ≠ [] then
        match text.dropWhile isTagChar with
        | [] => none
        | c :: body => if c = codePoint '>' then some body else none
      else none

/-- What stands before `</name>` at the end. -/
def beforeTag (text : PyStr) : Option PyStr :=
  match text.reverse with
  | [] => none
  | c :: rest =>
      if c = codePoint '>' ∧ rest.takeWhile isTagChar ≠ [] then
        match rest.dropWhile isTagChar with
        | slash :: open_ :: body =>
            if slash = codePoint '/' ∧ open_ = codePoint '<' then some body.reverse else none
        | _ => none
      else none

/-- The text without a tag around it. -/
def stripTag (text : PyStr) : PyStr := strip (((afterTag text).bind beforeTag).getD text)

/-- The text without its `<tool_call>` elements, at most so many. -/
def removeCalls : ℕ → PyStr → PyStr
  | 0, text => text
  | count + 1, text =>
      match cut (toPyStr "<tool_call>") text with
      | none => text
      | some (before, after) =>
          match cut (toPyStr "</tool_call>") after with
          | none => text
          | some (_, rest) => before ++ removeCalls count rest

def stripCalls (text : PyStr) : PyStr :=
  if startsWith text (toPyStr "\x7b") then text else removeCalls text.length text

/-- `re.sub(r",\s*([}\]])", r"\1", text)`, where the spaces after a comma that is gone are skipped. -/
def fixCommas (skip : Bool) : PyStr → PyStr
  | [] => []
  | c :: text =>
      if skip ∧ Executor.isSpace c then fixCommas true text
      else if c = codePoint ',' ∧ ((text.dropWhile Executor.isSpace).head?.any fun d =>
          d = codePoint '\x7d' || d = codePoint ']') then
        fixCommas true text
      else c :: fixCommas false text

/-! ## Parsers -/

/-- `json.loads` and `ast.literal_eval`; and whether a text that `json.loads` refuses makes it raise another
`ValueError` than a `JSONDecodeError`, for an integer with too many digits. -/
structure ArgumentParsers (D : Type) extends Parsers D where
  tooManyDigits : PyStr → Bool

/-- What `parse_raw_arguments` returns. -/
structure Parsed (D : Type) where
  ok : Bool
  value : PyData D
  error : Option PyStr := none

/-- `type(value).__name__`. -/
def dataTypeName : PyData D → String
  | .none => "NoneType"
  | .ellipsis => "ellipsis"
  | .number (.bool _) => "bool"
  | .number (.int _) => "int"
  | .number (.float _) => "float"
  | .number (.complex _ _) => "complex"
  | .str _ => "str"
  | .bytes _ => "bytes"
  | .list _ => "list"
  | .tuple _ => "tuple"
  | .set _ => "set"
  | .dict _ => "dict"

/-- The text that the parsers get. -/
def clean (raw : PyStr) : PyStr := stripCalls (stripTag (stripFences (strip raw)))

section Parse

variable [Doubles D] (parsers : ArgumentParsers D)

/-- The parsers that are tried on a text that is no JSON. -/
def repairText (raw cleaned : PyStr) : Parsed D :=
  match jsonLoads parsers.toParsers (fixCommas false cleaned) with
  | some (.dict items) => { ok := true, value := fromJson (.dict items) }
  | _ =>
      match parsers.literalEval cleaned with
      | some (.dict items) => { ok := true, value := .dict items }
      | _ =>
          { ok := false
            value := .str raw
            error := some (toPyStr "Failed to parse raw arguments as JSON: " ++ raw.take 120) }

/-- `none` when an exception of `json.loads` goes through. -/
def parseText (raw : PyStr) : Option (Parsed D) :=
  match jsonLoads parsers.toParsers (clean raw) with
  | some (.dict items) => some { ok := true, value := fromJson (.dict items) }
  | some value =>
      some
        { ok := false
          value := fromJson value
          error := some (toPyStr s!"Parsed JSON is not a dictionary (got {typeName value})") }
  | none =>
      if parsers.tooManyDigits (clean raw) then none else some (repairText parsers raw (clean raw))

/-- `parse_raw_arguments`. -/
def parseRawArguments : PyData D → Option (Parsed D)
  | .dict items => some { ok := true, value := .dict items }
  | .str raw => parseText parsers raw
  | value =>
      some
        { ok := false
          value
          error := some (toPyStr s!"Expected dict or str arguments, got {dataTypeName value}") }

end Parse

/-! ## Texts that are left alone -/

/-- No two fences, one after the other. -/
def Unfenced (text : PyStr) : Prop := ¬ ∃ before inner after, text = before ++ fence ++ inner ++ fence ++ after

lemma cut_eq_some {mark text before after : PyStr} (h : cut mark text = some (before, after)) :
    text = before ++ mark ++ after := by
  induction text generalizing before with
  | nil => cases h
  | cons c text ih =>
    unfold cut at h
    split_ifs at h with hstart
    · obtain ⟨rest, hrest⟩ := List.isPrefixOf_iff_prefix.mp hstart
      cases h
      rw [← hrest, List.drop_left]
      rfl
    · obtain ⟨⟨before', after'⟩, hcut, heq⟩ := Option.map_eq_some_iff.mp h
      cases heq
      rw [ih hcut]
      rfl

lemma cut_drop {mark text : PyStr} (h : cut mark text = none) (n : ℕ) : cut mark (text.drop n) = none := by
  induction text generalizing n with
  | nil => simpa using h
  | cons c text ih =>
    cases n with
    | zero => exact h
    | succ n =>
      unfold cut at h
      split_ifs at h
      exact ih (Option.map_eq_none_iff.mp h) n

lemma fenced_of_unfenced {text : PyStr} (h : Unfenced text) : fenced text = none := by
  unfold fenced
  cases hfirst : cut fence text with
  | none => rfl
  | some parts =>
    obtain ⟨before, after⟩ := parts
    have hnone : cut fence after = none := by
      cases hsecond : cut fence after with
      | none => rfl
      | some rest =>
        refine absurd ⟨before, rest.1, rest.2, ?_⟩ h
        rw [cut_eq_some hfirst, cut_eq_some hsecond]
        simp only [List.append_assoc]
    have hjson : cut fence (dropJson after) = none := by
      unfold dropJson
      split_ifs
      · exact cut_drop hnone 4
      · exact hnone
    rw [Option.bind_some, hjson]
    rfl

lemma strip_of_ends {first last : CodePoint} {inner : PyStr} (hfirst : Executor.isSpace first = false)
    (hlast : Executor.isSpace last = false) :
    strip (first :: (inner ++ [last])) = first :: (inner ++ [last]) := by
  unfold strip
  rw [List.dropWhile_cons_of_neg (by simp [hfirst])]
  have hreverse : (first :: (inner ++ [last])).reverse = last :: (inner.reverse ++ [first]) := by
    simp
  rw [hreverse, List.dropWhile_cons_of_neg (by simp [hlast]), ← hreverse, List.reverse_reverse]

lemma joinLineEnds_of_noEnd {text : PyStr} (h : ∀ c ∈ text, isLineEnd c = false) : joinLineEnds text = text := by
  induction text with
  | nil => rfl
  | cons c text ih =>
    obtain ⟨hc, htext⟩ := List.forall_mem_cons.mp h
    have hreturn : ¬ (c.val = 13 ∧ text.head? = some 10) := by
      rintro ⟨hval, -⟩
      simp [isLineEnd, hval] at hc
    rw [joinLineEnds, if_neg hreturn, ih htext]

lemma linesFrom_of_noEnd {text : PyStr} (h : ∀ c ∈ text, isLineEnd c = false) (line : PyStr) :
    linesFrom line text = if line ++ text = [] then [] else [line ++ text] := by
  induction text generalizing line with
  | nil => simp [linesFrom]
  | cons c text ih =>
    obtain ⟨hc, htext⟩ := List.forall_mem_cons.mp h
    rw [linesFrom, hc, if_neg Bool.false_ne_true, ih htext, List.append_assoc]
    rfl

/-- A text in one line that begins with no fence keeps what it has. -/
lemma stripFences_of_unfenced {text : PyStr} (hunfenced : Unfenced text)
    (hline : ∀ c ∈ text, isLineEnd c = false) (hstrip : strip text = text)
    (hstart : startsWith text fence = false) : stripFences text = text := by
  unfold stripFences
  split_ifs with hsome
  · have hne : text ≠ [] := by
      rintro rfl
      cases hsome
    have hlines : splitlines text = [text] := by
      unfold splitlines
      rw [joinLineEnds_of_noEnd hline, linesFrom_of_noEnd hline, List.nil_append, if_neg hne]
    have hkept : [text].filter (fun line => !startsWith (strip line) fence) = [text] := by
      simp [hstrip, hstart]
    have hjson : (toPyStr "\n").intercalate [text] = text := by
      simp [List.intercalate]
    rw [fenced_of_unfenced hunfenced, Option.getD_none, hlines, hkept, hjson, hstrip]
  · rfl

/-- The text of an object without fences is what the parsers get. -/
lemma clean_of_object {inner : PyStr}
    (hunfenced : Unfenced (codePoint '\x7b' :: (inner ++ [codePoint '\x7d'])))
    (hline : ∀ c ∈ inner, isLineEnd c = false) :
    clean (codePoint '\x7b' :: (inner ++ [codePoint '\x7d'])) =
      codePoint '\x7b' :: (inner ++ [codePoint '\x7d']) := by
  have hstrip : strip (codePoint '\x7b' :: (inner ++ [codePoint '\x7d'])) =
      codePoint '\x7b' :: (inner ++ [codePoint '\x7d']) :=
    strip_of_ends (by decide) (by decide)
  have hlines : ∀ c ∈ codePoint '\x7b' :: (inner ++ [codePoint '\x7d']), isLineEnd c = false := by
    refine List.forall_mem_cons.mpr ⟨by decide, List.forall_mem_append.mpr ⟨hline, ?_⟩⟩
    simp only [List.mem_singleton, forall_eq]
    decide
  have hfences := stripFences_of_unfenced hunfenced hlines hstrip rfl
  have htag : afterTag (codePoint '\x7b' :: (inner ++ [codePoint '\x7d'])) = none := by
    unfold afterTag
    refine if_neg ?_
    rintro ⟨hopen, -⟩
    exact absurd hopen (by decide)
  unfold clean
  rw [hstrip, hfences]
  unfold stripTag
  rw [htag, Option.bind_none, Option.getD_none, hstrip]
  rfl

/-! ## The round trip -/

lemma jsonLoads_write [Doubles D] (parsers : Parsers D) {value : PyValue D} {text : List Char}
    (h : write value = some text) (hjson : IsJson value) :
    jsonLoads parsers (text.map codePoint) = some value := by
  have hencode := encode_toPyStr (String.ofList text)
  unfold toPyStr at hencode
  rw [String.toList_ofList] at hencode
  unfold jsonLoads
  rw [hencode]
  dsimp only
  rw [String.toList_ofList, loads_write h hjson]

lemma isLineEnd_printable {c : Char} (h : printable c = true) : isLineEnd (codePoint c) = false := by
  simp only [printable, Bool.and_eq_true, decide_eq_true_eq] at h
  simp only [isLineEnd, codePoint_val, Bool.or_eq_false_iff, Bool.and_eq_false_iff, decide_eq_false_iff_not]
  omega

/-- `parse_raw_arguments(json.dumps(d))` gives back `d` where its text has no two fences. -/
theorem parse_write [Doubles D] (parsers : ArgumentParsers D) {items : List (PyKey D × PyValue D)}
    {text : List Char} (h : write (.dict items) = some text) (hjson : IsJson (.dict items))
    (hunfenced : Unfenced (text.map codePoint)) :
    parseRawArguments parsers (.str (text.map codePoint)) =
      some { ok := true, value := fromJson (.dict items), error := none } := by
  have hloads := jsonLoads_write parsers.toParsers h hjson
  have hprintable := write_printable h
  obtain ⟨members, -, rfl⟩ := write_dict_eq_some.mp h
  rw [List.map_cons, List.map_append] at hunfenced
  have hline : ∀ c ∈ (separate members).map codePoint, isLineEnd c = false := by
    intro c hc
    obtain ⟨d, hd, rfl⟩ := List.mem_map.mp hc
    exact isLineEnd_printable (hprintable d (List.mem_cons_of_mem _ (List.mem_append_left _ hd)))
  have hclean := clean_of_object hunfenced hline
  rw [List.map_cons, List.map_append] at hloads ⊢
  unfold parseRawArguments parseText
  dsimp only
  rw [List.map_singleton, hclean]
  rw [List.map_singleton] at hloads
  rw [hloads]

/-! ## Calls -/

/-- Parsers that no text gets to that is no JSON. -/
def jsonParsers : ArgumentParsers Empty where
  loadsHalves _ := none
  literalEval _ := none
  tooManyDigits _ := false

def readCall : PyValue Empty := .dict [(.str (toPyStr "file_path"), .str (toPyStr "a.md"))]

def readText : List Char := ['\x7b'] ++ "\"file_path\": \"a.md\"".toList ++ ['\x7d']

/-- A call that reads a file comes back. -/
theorem read_call_parsed : parseRawArguments jsonParsers (.str (readText.map codePoint)) =
    some { ok := true, value := fromJson readCall, error := none } :=
  parse_write jsonParsers (by decide) (by simp [IsJson, IsJsonMembers, keyText, joinSurrogates_toPyStr]) (by
    rintro ⟨before, inner, after, h⟩
    have hmem : codePoint (Char.ofNat 96) ∈ readText.map codePoint := by
      rw [h]
      simp [fence, toPyStr]
    exact absurd hmem (by decide))

/-- A file that is written with a code block in it. -/
def fencedCall : PyValue Empty := .dict [(.str (toPyStr "content"), .str (toPyStr "```\nx\n```"))]

/-- The code block is taken for the call, and is no JSON. -/
theorem fenced_call_lost : IsJson fencedCall ∧ ∃ text, write fencedCall = some text ∧
    (parseRawArguments jsonParsers (.str (text.map codePoint))).map Parsed.ok = some false :=
  ⟨by simp [fencedCall, IsJson, IsJsonMembers, keyText, joinSurrogates_toPyStr], _, rfl, by decide +kernel⟩

end AgentSystem.ProtocolRepair

import AgentSystem.JsonNumber
import AgentSystem.JsonText
import AgentSystem.PySequence

/-!
# JSON values

The Python values that `json.dumps(…, sort_keys=True)` accepts, with dictionaries as lists of items
in insertion order, the text that it writes, and `json.loads`.
-/
namespace AgentSystem.Json

open PySequence

/-- A key of a dictionary that has a name in JSON. -/
inductive PyKey (D : Type)
  | none
  | bool (b : Bool)
  | int (n : ℤ)
  | float (x : PyFloat D)
  | str (s : PyStr)

/-- A value that has a text in JSON; tuples are written like lists. -/
inductive PyValue (D : Type)
  | none
  | bool (b : Bool)
  | int (n : ℤ)
  | float (x : PyFloat D)
  | str (s : PyStr)
  | list (items : List (PyValue D))
  | dict (items : List (PyKey D × PyValue D))

/-- The elements at these positions. -/
def reorder {α : Type} (positions : List ℕ) (xs : List α) : List α :=
  positions.filterMap (xs[·]?)

/-- Floats, and the positions of the keys of a dictionary in the order that `sorted` gives them.
Only strings are promised to come in ascending order here: where a NaN is among the keys the order
depends on the algorithm. -/
class Interpreter (D : Type) extends Doubles D where
  order : List (PyKey D) → List ℕ
  order_perm : ∀ keys, (order keys).Perm (List.range keys.length)
  order_str : ∀ names : List PyStr,
    (reorder (order (names.map PyKey.str)) names).Pairwise (· ≤ ·)

/-! ## Interpreters without finite floats -/

/-- Integers by their value, strings by their code points. -/
def sortKey : PyKey Empty → ℤ ×ₗ PyStr
  | .int n => toLex (n, [])
  | .bool b => toLex (if b then 1 else 0, [])
  | .str s => toLex (0, s)
  | _ => toLex (0, [])

def sortKeyAt (keys : List (PyKey Empty)) (i : ℕ) : ℤ ×ₗ PyStr :=
  (keys[i]?.map sortKey).getD (toLex (0, []))

instance : Interpreter Empty where
  literal x := x.elim
  read _ := .nan
  wellFormed x := x.elim
  notInt x := x.elim
  read_literal x := x.elim
  order keys := (List.range keys.length).insertionSort fun i j => sortKeyAt keys i ≤ sortKeyAt keys j
  order_perm keys := List.perm_insertionSort _ _
  order_str names := by
    have : Std.Total fun i j => sortKeyAt (names.map .str) i ≤ sortKeyAt (names.map .str) j :=
      ⟨fun i j => le_total _ _⟩
    have : IsTrans ℕ fun i j => sortKeyAt (names.map .str) i ≤ sortKeyAt (names.map .str) j :=
      ⟨fun i j k => le_trans⟩
    rw [reorder, List.pairwise_filterMap]
    refine (List.pairwise_insertionSort _ _).imp fun {i j} hle s hs t ht => ?_
    have hat {k : ℕ} {name : PyStr} (h : names[k]? = some name) :
        sortKeyAt (names.map .str) k = toLex (0, name) := by
      simp [sortKeyAt, h, sortKey]
    rw [hat hs, hat ht, Prod.Lex.toLex_le_toLex] at hle
    simpa using hle

variable {D : Type}

/-! ## Writing -/

def boolText (b : Bool) : List Char :=
  if b then ['t', 'r', 'u', 'e'] else ['f', 'a', 'l', 's', 'e']

def floatText [Doubles D] : PyFloat D → List Char
  | .finite x => (Doubles.literal x).text
  | .infinity false => ['I', 'n', 'f', 'i', 'n', 'i', 't', 'y']
  | .infinity true => ['-', 'I', 'n', 'f', 'i', 'n', 'i', 't', 'y']
  | .nan => ['N', 'a', 'N']

/-- The string that stands for a key, `none` for an integer with too many digits. -/
def PyKey.name [Doubles D] : PyKey D → Option PyStr
  | .none => some (toPyStr "null")
  | .bool b => some ((boolText b).map codePoint)
  | .int n => (intText n).map (List.map codePoint)
  | .float x => some ((floatText x).map codePoint)
  | .str s => some s

def PyKey.isStr : PyKey D → Bool
  | .str _ => true
  | _ => false

def PyKey.isNumber : PyKey D → Bool
  | .bool _ | .int _ | .float _ => true
  | _ => false

/-- Sorting these keys raises no `TypeError`. -/
def comparable (keys : List (PyKey D)) : Bool :=
  decide (keys.length ≤ 1) || keys.all PyKey.isStr || keys.all PyKey.isNumber

/-- `", ".join(texts)`. -/
def separate : List (List Char) → List Char
  | [] => []
  | [text] => text
  | text :: texts => text ++ ',' :: ' ' :: separate texts

/-- `name: value` as a member of an object. -/
def memberText (name : PyStr) (value : List Char) : List Char :=
  stringText name ++ ':' :: ' ' :: value

section Dumps

variable [Interpreter D]

mutual

/-- `json.dumps(value, sort_keys=True)`, `none` when it raises. -/
def dumps : PyValue D → Option (List Char)
  | .none => some ['n', 'u', 'l', 'l']
  | .bool b => some (boolText b)
  | .int n => intText n
  | .float x => some (floatText x)
  | .str s => some (stringText s)
  | .list items => (dumpsItems items).map fun texts => '[' :: (separate texts ++ [']'])
  | .dict items =>
      if comparable (items.map Prod.fst) then
        (dumpsMembers items).map fun members =>
          '{' :: (separate (reorder (Interpreter.order (items.map Prod.fst)) members) ++ ['}'])
      else none

def dumpsItems : List (PyValue D) → Option (List (List Char))
  | [] => some []
  | value :: items => (dumps value).bind fun text => (dumpsItems items).map (text :: ·)

def dumpsMembers : List (PyKey D × PyValue D) → Option (List (List Char))
  | [] => some []
  | (key, value) :: items =>
      key.name.bind fun name => (dumps value).bind fun text =>
        (dumpsMembers items).map (memberText name text :: ·)

end

end Dumps

/-! ## Reading -/

def isSpace (c : Char) : Bool := c = ' ' || c = '\t' || c = '\n' || c = '\r'

def skipSpace (text : List Char) : List Char := text.dropWhile isSpace

/-- A part of the text and what follows it. -/
abbrev Scan (α : Type) := List Char → Option (α × List Char)

section Containers

variable {α : Type}

/-- Elements with commas between them, up to the closing bracket, at most so many. -/
def scanSeparated (element : Scan α) (close : Char) : ℕ → Scan (List α)
  | 0, _ => none
  | count + 1, text =>
      (element text).bind fun (x, text) =>
        match skipSpace text with
        | [] => none
        | c :: text =>
            if c = close then some ([x], text)
            else if c = ',' then
              (scanSeparated element close count (skipSpace text)).map (Prod.map (x :: ·) id)
            else none

/-- What follows the opening bracket of an array or an object. -/
def scanBody (element : Scan α) (close : Char) (text : List Char) : Option (List α × List Char) :=
  match skipSpace text with
  | [] => none
  | c :: text =>
      if c = close then some ([], text)
      else scanSeparated element close (text.length + 1) (c :: text)

/-- A member of an object. -/
def scanMember (value : Scan α) : Scan (PyStr × α)
  | [] => none
  | c :: text =>
      if c = '"' then
        (scanString text).bind fun (name, text) =>
          match skipSpace text with
          | [] => none
          | c :: text =>
              if c = ':' then (value (skipSpace text)).map (Prod.map (Prod.mk name) id) else none
      else none

end Containers

/-- `dict(members)`. -/
def fromMembers (members : List (PyStr × PyValue D)) : List (PyKey D × PyValue D) :=
  (fromPairs members).map (Prod.map .str id)

section Loads

variable [Doubles D]

def scanNumber (text : List Char) : Option (PyValue D × List Char) :=
  (scanLiteral text).bind fun (literal, text) =>
    if literal.isInt then (readInt literal).map fun n => (.int n, text)
    else some (.float (Doubles.read literal.text), text)

/-- `scan_once`; the fuel bounds how deep values are nested. -/
def scanOnce : ℕ → Scan (PyValue D)
  | 0, _ => none
  | fuel + 1, text =>
      match text with
      | '"' :: text => (scanString text).map (Prod.map .str id)
      | '{' :: text =>
          (scanBody (scanMember (scanOnce fuel)) '}' text).map
            (Prod.map (fun members => .dict (fromMembers members)) id)
      | '[' :: text => (scanBody (scanOnce fuel) ']' text).map (Prod.map .list id)
      | 'n' :: 'u' :: 'l' :: 'l' :: text => some (.none, text)
      | 't' :: 'r' :: 'u' :: 'e' :: text => some (.bool true, text)
      | 'f' :: 'a' :: 'l' :: 's' :: 'e' :: text => some (.bool false, text)
      | 'N' :: 'a' :: 'N' :: text => some (.float .nan, text)
      | 'I' :: 'n' :: 'f' :: 'i' :: 'n' :: 'i' :: 't' :: 'y' :: text =>
          some (.float (.infinity false), text)
      | '-' :: 'I' :: 'n' :: 'f' :: 'i' :: 'n' :: 'i' :: 't' :: 'y' :: text =>
          some (.float (.infinity true), text)
      | text => scanNumber text

/-- `json.loads(text)`, `none` when it raises. -/
def loads (text : List Char) : Option (PyValue D) :=
  match scanOnce (text.length + 1) (skipSpace text) with
  | some (value, rest) => if skipSpace rest = [] then some value else none
  | none => none

end Loads

/-! ## What comes back -/

section Reload

variable [Interpreter D]

/-- The name of a key after a round trip. -/
def PyKey.reloadedName (key : PyKey D) : PyStr := joinSurrogates (key.name.getD [])

mutual

/-- The value of the text of a value. -/
def reload : PyValue D → PyValue D
  | .none => .none
  | .bool b => .bool b
  | .int n => .int n
  | .float x => .float x
  | .str s => .str (joinSurrogates s)
  | .list items => .list (reloadItems items)
  | .dict items =>
      .dict (fromMembers (reorder (Interpreter.order (items.map Prod.fst)) (reloadMembers items)))

def reloadItems : List (PyValue D) → List (PyValue D)
  | [] => []
  | value :: items => reload value :: reloadItems items

def reloadMembers : List (PyKey D × PyValue D) → List (PyStr × PyValue D)
  | [] => []
  | (key, value) :: items => (key.reloadedName, reload value) :: reloadMembers items

end

mutual

/-- In every dictionary the names of the keys, in the order in which they are written, ascend. -/
def NamesAscend : PyValue D → Prop
  | .list items => NamesAscendItems items
  | .dict items =>
      (reorder (Interpreter.order (items.map Prod.fst))
        (items.map fun item => item.1.reloadedName)).Pairwise (· < ·) ∧ NamesAscendMembers items
  | _ => True

def NamesAscendItems : List (PyValue D) → Prop
  | [] => True
  | value :: items => NamesAscend value ∧ NamesAscendItems items

def NamesAscendMembers : List (PyKey D × PyValue D) → Prop
  | [] => True
  | (_, value) :: items => NamesAscend value ∧ NamesAscendMembers items

end

end Reload

end AgentSystem.Json

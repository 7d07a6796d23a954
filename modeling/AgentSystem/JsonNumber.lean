import Mathlib

/-!
# JSON numbers

The numbers that `json.loads` accepts, and the literals that Python writes for integers and floats.
Of the floats only what `repr` and `float` promise about each other is used.
-/
namespace AgentSystem.Json

/-- The parts of a number in a text. -/
structure Literal where
  sign : List Char
  whole : List Char
  fraction : List Char := []
  exponent : List Char := []
  deriving DecidableEq

namespace Literal

def text (l : Literal) : List Char := l.sign ++ l.whole ++ l.fraction ++ l.exponent

def isInt (l : Literal) : Bool := l.fraction.isEmpty && l.exponent.isEmpty

structure WellFormed (l : Literal) : Prop where
  sign : l.sign = [] ∨ l.sign = ['-']
  whole : l.whole = ['0'] ∨
    ∃ c digits, l.whole = c :: digits ∧ c ≠ '0' ∧ ∀ d ∈ c :: digits, d.isDigit = true
  fraction : l.fraction = [] ∨
    ∃ c digits, l.fraction = '.' :: c :: digits ∧ ∀ d ∈ c :: digits, d.isDigit = true
  exponent : l.exponent = [] ∨ ∃ e sign c digits, l.exponent = e :: (sign ++ c :: digits) ∧
    (e = 'e' ∨ e = 'E') ∧ (sign = [] ∨ sign = ['+'] ∨ sign = ['-']) ∧
    ∀ d ∈ c :: digits, d.isDigit = true

end Literal

/-! ## Reading -/

def scanSign : List Char → List Char × List Char
  | [] => ([], [])
  | c :: text => if c = '-' then (['-'], text) else ([], c :: text)

def scanWhole : List Char → Option (List Char × List Char)
  | [] => none
  | c :: text =>
      if c = '0' then some (['0'], text)
      else if c.isDigit then
        some (c :: text.takeWhile Char.isDigit, text.dropWhile Char.isDigit)
      else none

def scanFraction : List Char → List Char × List Char
  | '.' :: c :: text =>
      if c.isDigit then
        ('.' :: c :: text.takeWhile Char.isDigit, text.dropWhile Char.isDigit)
      else ([], '.' :: c :: text)
  | text => ([], text)

def scanExponentSign : List Char → List Char × List Char
  | [] => ([], [])
  | c :: text => if c = '+' ∨ c = '-' then ([c], text) else ([], c :: text)

/-- An `e` that no digits follow does not belong to the number. -/
def scanExponent : List Char → List Char × List Char
  | [] => ([], [])
  | e :: text =>
      let (sign, digits) := scanExponentSign text
      if (e = 'e' ∨ e = 'E') ∧ digits.takeWhile Char.isDigit ≠ [] then
        (e :: (sign ++ digits.takeWhile Char.isDigit), digits.dropWhile Char.isDigit)
      else ([], e :: text)

/-- `_match_number_unicode` up to the conversion. -/
def scanLiteral (text : List Char) : Option (Literal × List Char) :=
  let (sign, text) := scanSign text
  (scanWhole text).map fun (whole, text) =>
    let (fraction, text) := scanFraction text
    let (exponent, text) := scanExponent text
    (⟨sign, whole, fraction, exponent⟩, text)

/-! ## Integers -/

/-- `sys.int_info.default_max_str_digits`. -/
def maxStrDigits : ℕ := 4300

def intLiteral (n : ℤ) : Literal where
  sign := if n < 0 then ['-'] else []
  whole := Nat.toDigits 10 n.natAbs

/-- `int.__repr__`, `none` for the `ValueError`. -/
def intText (n : ℤ) : Option (List Char) :=
  if (intLiteral n).whole.length ≤ maxStrDigits then some (intLiteral n).text else none

/-- `int(text)`. -/
def readInt (l : Literal) : Option ℤ :=
  if l.whole.length ≤ maxStrDigits then
    let n : ℤ := Nat.ofDigitChars 10 l.whole 0
    some (if l.sign = [] then n else -n)
  else none

/-! ## Floats -/

/-- A Python float; the finite ones stay abstract. -/
inductive PyFloat (D : Type)
  | finite (x : D)
  | infinity (negative : Bool)
  | nan
  deriving DecidableEq

/-- Finite floats with `float.__repr__` and `float(text)`. -/
class Doubles (D : Type) where
  literal : D → Literal
  read : List Char → PyFloat D
  wellFormed : ∀ x, (literal x).WellFormed
  notInt : ∀ x, (literal x).isInt = false
  read_literal : ∀ x, read (literal x).text = .finite x

/-! ## What is written is read back -/

/-- No number goes on with this text. -/
def Stops (text : List Char) : Prop :=
  ∀ c ∈ text.head?, c.isDigit = false ∧ c ≠ '.' ∧ c ≠ 'e' ∧ c ≠ 'E'

/-- The text does not begin with a digit. -/
def NoDigit (text : List Char) : Prop := ∀ c ∈ text.head?, c.isDigit = false

lemma Stops.noDigit {text : List Char} (h : Stops text) : NoDigit text := fun c hc => (h c hc).1

lemma digits_append {digits rest : List Char} (hdigits : ∀ d ∈ digits, d.isDigit = true)
    (hrest : NoDigit rest) :
    (digits ++ rest).takeWhile Char.isDigit = digits ∧
      (digits ++ rest).dropWhile Char.isDigit = rest := by
  induction digits with
  | nil =>
      cases rest with
      | nil => exact ⟨rfl, rfl⟩
      | cons c rest =>
          have hc : c.isDigit = false := hrest c rfl
          simp [hc]
  | cons d digits ih =>
      have hd : d.isDigit = true := hdigits d (by simp)
      have := ih fun d hd => hdigits d (List.mem_cons_of_mem _ hd)
      simp [hd, this]

lemma scanSign_append {sign : List Char} (hsign : sign = [] ∨ sign = ['-']) {rest : List Char}
    (hrest : ∀ c ∈ rest.head?, c ≠ '-') : scanSign (sign ++ rest) = (sign, rest) := by
  rcases hsign with rfl | rfl
  · cases rest with
    | nil => rfl
    | cons c rest => exact if_neg (hrest c rfl)
  · rfl

lemma scanWhole_append {l : Literal} (h : l.WellFormed) {rest : List Char} (hrest : NoDigit rest) :
    scanWhole (l.whole ++ rest) = some (l.whole, rest) := by
  rcases h.whole with hwhole | ⟨c, digits, hwhole, hc, hdigits⟩
  · rw [hwhole]
    rfl
  · have htail := digits_append (fun d hd => hdigits d (List.mem_cons_of_mem _ hd)) hrest
    rw [hwhole, List.cons_append, scanWhole, if_neg hc, if_pos (hdigits c (by simp)), htail.1,
      htail.2]

lemma scanFraction_append {l : Literal} (h : l.WellFormed) {rest : List Char}
    (hrest : ∀ c ∈ rest.head?, c.isDigit = false ∧ c ≠ '.') :
    scanFraction (l.fraction ++ rest) = (l.fraction, rest) := by
  rcases h.fraction with hfraction | ⟨c, digits, hfraction, hdigits⟩
  · rw [hfraction, List.nil_append]
    unfold scanFraction
    split
    · next c text => exact absurd rfl (hrest '.' rfl).2
    · rfl
  · have htail := digits_append (fun d hd => hdigits d (List.mem_cons_of_mem _ hd))
      fun d hd => (hrest d hd).1
    rw [hfraction, List.cons_append, List.cons_append, scanFraction, if_pos (hdigits c (by simp)),
      htail.1, htail.2]

lemma scanExponentSign_append {sign : List Char} (hsign : sign = [] ∨ sign = ['+'] ∨ sign = ['-'])
    {c : Char} (hc : c.isDigit = true) (rest : List Char) :
    scanExponentSign (sign ++ c :: rest) = (sign, c :: rest) := by
  have hne : ¬ (c = '+' ∨ c = '-') := by
    rintro (rfl | rfl) <;> cases hc
  rcases hsign with rfl | rfl | rfl
  · exact if_neg hne
  · rfl
  · rfl

lemma scanExponent_append {l : Literal} (h : l.WellFormed) {rest : List Char} (hrest : Stops rest) :
    scanExponent (l.exponent ++ rest) = (l.exponent, rest) := by
  rcases h.exponent with hexponent | ⟨e, sign, c, digits, hexponent, he, hsign, hdigits⟩
  · rw [hexponent, List.nil_append]
    cases rest with
    | nil => rfl
    | cons c rest =>
        have hc := hrest c rfl
        exact if_neg fun hnot => hnot.1.elim hc.2.2.1 hc.2.2.2
  · have hrun := digits_append hdigits hrest.noDigit
    rw [hexponent, List.cons_append, List.append_assoc, List.cons_append, scanExponent,
      scanExponentSign_append hsign (hdigits c (by simp))]
    rw [List.cons_append] at hrun
    simp only [hrun]
    rw [if_pos ⟨he, List.cons_ne_nil _ _⟩]

lemma Literal.WellFormed.whole_head {l : Literal} (h : l.WellFormed) :
    ∃ c rest, l.whole = c :: rest ∧ c.isDigit = true := by
  rcases h.whole with hwhole | ⟨c, digits, hwhole, -, hdigits⟩
  · exact ⟨'0', [], hwhole, rfl⟩
  · exact ⟨c, digits, hwhole, hdigits c (by simp)⟩

/-- A well-formed literal is read as such. -/
theorem scanLiteral_text {l : Literal} (h : l.WellFormed) {rest : List Char} (hrest : Stops rest) :
    scanLiteral (l.text ++ rest) = some (l, rest) := by
  have hexponent : ∀ c ∈ (l.exponent ++ rest).head?, c.isDigit = false ∧ c ≠ '.' := by
    intro c hc
    rcases h.exponent with hnil | ⟨e, sign, d, digits, hcons, he, -, -⟩
    · rw [hnil, List.nil_append] at hc
      exact ⟨(hrest c hc).1, (hrest c hc).2.1⟩
    · rw [hcons, List.cons_append, List.head?_cons, Option.mem_some_iff] at hc
      rcases he with rfl | rfl <;> subst hc <;> decide
  have hfraction : NoDigit (l.fraction ++ (l.exponent ++ rest)) := by
    intro c hc
    rcases h.fraction with hnil | ⟨d, digits, hcons, -⟩
    · rw [hnil, List.nil_append] at hc
      exact (hexponent c hc).1
    · rw [hcons, List.cons_append, List.head?_cons, Option.mem_some_iff] at hc
      subst hc
      rfl
  have hwhole : ∀ c ∈ (l.whole ++ (l.fraction ++ (l.exponent ++ rest))).head?, c ≠ '-' := by
    obtain ⟨d, tail, hcons, hd⟩ := h.whole_head
    intro c hc
    rw [hcons, List.cons_append, List.head?_cons, Option.mem_some_iff] at hc
    subst hc
    rintro rfl
    cases hd
  unfold scanLiteral Literal.text
  simp only [List.append_assoc, scanSign_append h.sign hwhole, scanWhole_append h hfraction,
    scanFraction_append h hexponent, scanExponent_append h hrest, Option.map_some]

lemma toDigits_head {n : ℕ} (hn : n ≠ 0) :
    ∃ c digits, Nat.toDigits 10 n = c :: digits ∧ c ≠ '0' := by
  induction n using Nat.strong_induction_on with
  | _ n ih =>
    rw [Nat.toDigits_eq_if (by decide)]
    split_ifs with hlt
    · exact ⟨_, [], rfl, fun h => hn (Nat.digitChar_eq_zero.mp h)⟩
    · obtain ⟨c, digits, hdigits, hc⟩ := ih (n / 10) (by omega) (by omega)
      exact ⟨c, _, by rw [hdigits, List.cons_append], hc⟩

lemma intLiteral_wellFormed (n : ℤ) : (intLiteral n).WellFormed where
  sign := by
    unfold intLiteral
    split_ifs
    · exact .inr rfl
    · exact .inl rfl
  whole := by
    by_cases hn : n.natAbs = 0
    · left
      simp [intLiteral, hn]
    · obtain ⟨c, digits, hdigits, hc⟩ := toDigits_head hn
      refine .inr ⟨c, digits, hdigits, hc, fun d hd => ?_⟩
      rw [← hdigits] at hd
      exact Nat.isDigit_of_mem_toDigits (by decide) (by decide) hd
  fraction := .inl rfl
  exponent := .inl rfl

lemma readInt_intLiteral {n : ℤ} (h : (intLiteral n).whole.length ≤ maxStrDigits) :
    readInt (intLiteral n) = some n := by
  unfold readInt
  rw [if_pos h]
  by_cases hn : n < 0
  · simp only [intLiteral, hn, if_true, Nat.ofDigitChars_ten_toDigits, List.cons_ne_nil, if_false,
      Option.some.injEq]
    omega
  · simp only [intLiteral, hn, if_false, if_true, Nat.ofDigitChars_ten_toDigits, Option.some.injEq]
    omega

/-- Numbers that a table can count have few enough digits. -/
lemma exists_intText {n : ℕ} (h : n < 2 ^ 63) : ∃ text, intText n = some text := by
  have hlength : (Nat.toDigits 10 n).length ≤ 19 :=
    (Nat.length_toDigits_le_iff (by decide) (by decide)).mpr (h.trans (by decide))
  rw [intText, if_pos]
  · exact ⟨_, rfl⟩
  · exact hlength.trans (by decide)
end AgentSystem.Json

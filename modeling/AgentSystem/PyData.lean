import AgentSystem.JsonScan

/-!
# Python values that are no JSON

What `json.loads` and `ast.literal_eval` return together, with `==`, and the values among them that
JSON can write and give back.
-/
namespace AgentSystem.Json

open PySequence

/-- Finite floats with the numbers that they are. -/
class RealDoubles (D : Type) extends Doubles D where
  value : D → ℚ

instance : RealDoubles Empty where
  value x := x.elim

inductive PyNumber (D : Type)
  | bool (b : Bool)
  | int (n : ℤ)
  | float (x : PyFloat D)
  | complex (re im : PyFloat D)

/-- The value of a literal; sets and dictionaries with their elements in some order. -/
inductive PyData (D : Type)
  | none
  | ellipsis
  | number (x : PyNumber D)
  | str (s : PyStr)
  | bytes (s : List (Fin 256))
  | list (items : List (PyData D))
  | tuple (items : List (PyData D))
  | set (items : List (PyData D))
  | dict (items : List (PyData D × PyData D))

variable {D : Type}

theorem PyData.induction {P : PyData D → Prop} (none : P .none) (ellipsis : P .ellipsis)
    (number : ∀ x, P (.number x)) (str : ∀ s, P (.str s)) (bytes : ∀ s, P (.bytes s))
    (list : ∀ items, (∀ value ∈ items, P value) → P (.list items))
    (tuple : ∀ items, (∀ value ∈ items, P value) → P (.tuple items))
    (set : ∀ items, (∀ value ∈ items, P value) → P (.set items))
    (dict : ∀ items, (∀ item ∈ items, P item.1 ∧ P item.2) → P (.dict items)) (value : PyData D) :
    P value := by
  refine @PyData.rec D P (fun items => ∀ value ∈ items, P value)
    (fun items => ∀ item ∈ items, P item.1 ∧ P item.2) (fun item => P item.1 ∧ P item.2)
    none ellipsis number str bytes list tuple set dict ?_ ?_ ?_ ?_ ?_ value
  · simp
  · intro value items hvalue hitems
    exact List.forall_mem_cons.mpr ⟨hvalue, hitems⟩
  · simp
  · intro item items hitem hitems
    exact List.forall_mem_cons.mpr ⟨hitem, hitems⟩
  · exact fun _ _ hkey hvalue => ⟨hkey, hvalue⟩

/-! ## Equality -/

/-- A part of a number as it is compared. -/
inductive Part
  | finite (x : ℚ)
  | infinity (negative : Bool)
  | nan
  deriving DecidableEq

/-- A NaN differs from everything, itself included. -/
def Part.eq (x y : Part) : Bool := decide (x = y) && decide (x ≠ .nan)

section Equality

variable [RealDoubles D]

def PyFloat.part : PyFloat D → Part
  | .finite x => .finite (RealDoubles.value x)
  | .infinity negative => .infinity negative
  | .nan => .nan

/-- The real and the imaginary part; `True` is one. -/
def PyNumber.parts : PyNumber D → Part × Part
  | .bool b => (.finite (if b then 1 else 0), .finite 0)
  | .int n => (.finite n, .finite 0)
  | .float x => (x.part, .finite 0)
  | .complex re im => (re.part, im.part)

def PyNumber.eq (x y : PyNumber D) : Bool :=
  x.parts.1.eq y.parts.1 && x.parts.2.eq y.parts.2

mutual

/-- `==`. -/
def PyData.eq : PyData D → PyData D → Bool
  | .none, .none => true
  | .ellipsis, .ellipsis => true
  | .number x, .number y => x.eq y
  | .str s, .str t => decide (s = t)
  | .bytes s, .bytes t => decide (s = t)
  | .list xs, .list ys => eqItems xs ys
  | .tuple xs, .tuple ys => eqItems xs ys
  | .set xs, .set ys => decide (xs.length = ys.length) && eqElements xs ys
  | .dict xs, .dict ys => decide (xs.length = ys.length) && eqMembers xs ys
  | _, _ => false

/-- Element by element. -/
def eqItems : List (PyData D) → List (PyData D) → Bool
  | [], [] => true
  | x :: xs, y :: ys => x.eq y && eqItems xs ys
  | _, _ => false

/-- Every element of the first is in the second. -/
def eqElements : List (PyData D) → List (PyData D) → Bool
  | [], _ => true
  | x :: xs, ys => ys.any (fun y => x.eq y) && eqElements xs ys

/-- Every key of the first is in the second, with an equal value. -/
def eqMembers : List (PyData D × PyData D) → List (PyData D × PyData D) → Bool
  | [], _ => true
  | (key, value) :: xs, ys =>
      ys.any (fun y => key.eq y.1 && value.eq y.2) && eqMembers xs ys

end

lemma eqItems_iff {xs ys : List (PyData D)} :
    eqItems xs ys = true ↔ List.Forall₂ (fun x y => x.eq y = true) xs ys := by
  induction xs generalizing ys with
  | nil => cases ys <;> simp [eqItems]
  | cons x xs ih =>
      cases ys with
      | nil => simp [eqItems]
      | cons y ys => simp [eqItems, ih]

lemma eqMembers_iff {xs ys : List (PyData D × PyData D)} :
    eqMembers xs ys = true ↔
      ∀ x ∈ xs, ∃ y ∈ ys, x.1.eq y.1 = true ∧ x.2.eq y.2 = true := by
  induction xs with
  | nil => simp [eqMembers]
  | cons x xs ih =>
      obtain ⟨key, value⟩ := x
      rw [eqMembers, Bool.and_eq_true, ih, List.any_eq_true, List.forall_mem_cons]
      simp only [Bool.and_eq_true]

end Equality

/-! ## What JSON keeps -/

/-- No half of a surrogate pair. -/
def Scalars (s : PyStr) : Prop := ∀ c ∈ s, c.isHigh = false ∧ c.isLow = false

/-- Few enough digits, and no NaN. -/
def PyNumber.Kept : PyNumber D → Prop
  | .bool _ => True
  | .int n => (intLiteral n).whole.length ≤ maxStrDigits
  | .float x => x ≠ .nan
  | .complex _ _ => False

/-- The text of a key. -/
def PyData.text : PyData D → Option PyStr
  | .str s => some s
  | _ => Option.none

mutual

/-- Built of `None`, booleans, integers, floats, strings, lists, and dictionaries with different
strings as keys. -/
def PyData.Kept : PyData D → Prop
  | .none => True
  | .number x => x.Kept
  | .str s => Scalars s
  | .list items => KeptItems items
  | .dict items => (items.map fun item => item.1.text).Nodup ∧ KeptMembers items
  | .ellipsis | .bytes _ | .tuple _ | .set _ => False

def KeptItems : List (PyData D) → Prop
  | [] => True
  | value :: items => value.Kept ∧ KeptItems items

def KeptMembers : List (PyData D × PyData D) → Prop
  | [] => True
  | (key, value) :: items =>
      (∃ name, key.text = some name ∧ Scalars name) ∧ value.Kept ∧ KeptMembers items

end

lemma keptItems_iff {items : List (PyData D)} : KeptItems items ↔ ∀ value ∈ items, value.Kept := by
  induction items with
  | nil => simp [KeptItems]
  | cons value items ih => rw [KeptItems, ih, List.forall_mem_cons]

lemma keptMembers_iff {items : List (PyData D × PyData D)} :
    KeptMembers items ↔
      ∀ item ∈ items, (∃ name, item.1.text = some name ∧ Scalars name) ∧ item.2.Kept := by
  induction items with
  | nil => simp [KeptMembers]
  | cons item items ih => rw [KeptMembers, ih, List.forall_mem_cons, and_assoc]

lemma text_eq_some {key : PyData D} {name : PyStr} : key.text = some name ↔ key = .str name := by
  cases key <;> simp [PyData.text]

/-- What is kept is equal to itself. -/
lemma PyData.Kept.eq_self [RealDoubles D] {value : PyData D} (h : value.Kept) :
    value.eq value = true := by
  induction value using PyData.induction with
  | none => simp [PyData.eq]
  | ellipsis => exact h.elim
  | number x =>
      cases x with
      | bool b => simp [PyData.eq, PyNumber.eq, PyNumber.parts, Part.eq]
      | int n => simp [PyData.eq, PyNumber.eq, PyNumber.parts, Part.eq]
      | float x =>
          have hx : x ≠ .nan := h
          cases x with
          | finite x => simp [PyData.eq, PyNumber.eq, PyNumber.parts, PyFloat.part, Part.eq]
          | infinity negative => simp [PyData.eq, PyNumber.eq, PyNumber.parts, PyFloat.part, Part.eq]
          | nan => exact absurd rfl hx
      | complex re im => exact h.elim
  | str s => simp [PyData.eq]
  | bytes s => exact h.elim
  | tuple items _ => exact h.elim
  | set items _ => exact h.elim
  | list items ih =>
      rw [PyData.eq, eqItems_iff, List.forall₂_same]
      exact fun value hvalue => ih value hvalue (keptItems_iff.mp h value hvalue)
  | dict items ih =>
      rw [PyData.eq, Bool.and_eq_true, eqMembers_iff]
      refine ⟨by simp, fun item hitem => ⟨item, hitem, ?_, ?_⟩⟩
      · obtain ⟨⟨name, hname, -⟩, -⟩ := keptMembers_iff.mp h.2 item hitem
        rw [text_eq_some.mp hname]
        simp [PyData.eq]
      · exact (ih item hitem).2 (keptMembers_iff.mp h.2 item hitem).2

end AgentSystem.Json

import Mathlib

/-!
# Instants as texts

Calendar date-times in the extended format, from hours to any number of decimal places, with their offset. How two
such texts compare is told by the local times, save where one text ends while it still agrees with the other.
-/
namespace AgentSystem.Iso8601

/-! ## Numbers of fixed width -/

def digit (n : ℕ) : Char := Char.ofNat (48 + n)

/-- The last digits of a number. -/
def pad : ℕ → ℕ → List Char
  | 0, _ => []
  | width + 1, n => digit (n / 10 ^ width) :: pad width (n % 10 ^ width)

lemma digit_lt_digit {m n : ℕ} (hm : m < 10) (hn : n < 10) : digit m < digit n ↔ m < n := by
  interval_cases m <;> interval_cases n <;> decide

lemma digit_inj {m n : ℕ} (hm : m < 10) (hn : n < 10) : digit m = digit n ↔ m = n := by
  interval_cases m <;> interval_cases n <;> decide

/-- The digits of a number are between the signs and the letter for no offset. -/
lemma lt_digit {n : ℕ} (h : n < 10) : '-' < digit n ∧ digit n < 'Z' := by
  interval_cases n <;> decide

lemma lt_iff_div_mod {m n k : ℕ} : m < n ↔ m / k < n / k ∨ m / k = n / k ∧ m % k < n % k := by
  constructor
  · intro h
    rcases (Nat.div_le_div_right h.le : m / k ≤ n / k).lt_or_eq with hlt | heq
    · exact .inl hlt
    · have hm := Nat.div_add_mod m k
      have hn := Nat.div_add_mod n k
      rw [heq] at hm
      exact .inr ⟨heq, by omega⟩
  · rintro (hlt | ⟨heq, hmod⟩)
    · exact Nat.lt_of_not_le fun hle => absurd (Nat.div_le_div_right hle : n / k ≤ m / k) (by omega)
    · have hm := Nat.div_add_mod m k
      have hn := Nat.div_add_mod n k
      rw [heq] at hm
      omega

lemma eq_iff_div_mod {m n k : ℕ} : m = n ↔ m / k = n / k ∧ m % k = n % k := by
  refine ⟨fun h => by rw [h]; exact ⟨rfl, rfl⟩, fun ⟨hdiv, hmod⟩ => ?_⟩
  rw [← Nat.div_add_mod m k, hdiv, hmod, Nat.div_add_mod]

/-- Numbers of one width compare as their texts. -/
lemma pad_append_lt {width m n : ℕ} (hm : m < 10 ^ width) (hn : n < 10 ^ width) {t t' : List Char} :
    pad width m ++ t < pad width n ++ t' ↔ m < n ∨ m = n ∧ t < t' := by
  induction width generalizing m n with
  | zero =>
    obtain rfl : m = 0 := by simpa using hm
    obtain rfl : n = 0 := by simpa using hn
    simp [pad]
  | succ width ih =>
    have hpos : 0 < 10 ^ width := by positivity
    have hm' : m / 10 ^ width < 10 := Nat.div_lt_of_lt_mul (by rwa [← pow_succ])
    have hn' : n / 10 ^ width < 10 := Nat.div_lt_of_lt_mul (by rwa [← pow_succ])
    rw [pad, pad, List.cons_append, List.cons_append, List.cons_lt_cons_iff, digit_lt_digit hm' hn',
      digit_inj hm' hn', ih (Nat.mod_lt _ hpos) (Nat.mod_lt _ hpos), lt_iff_div_mod (m := m) (k := 10 ^ width),
      eq_iff_div_mod (m := m) (k := 10 ^ width)]
    tauto

/-! ## Dates -/

def leap (year : ℕ) : Bool := year % 4 == 0 && (year % 100 != 0 || year % 400 == 0)

def daysInYear (year : ℕ) : ℕ := if leap year then 366 else 365

def daysInMonth (year : ℕ) : ℕ → ℕ
  | 0 => 0
  | 2 => if leap year then 29 else 28
  | 4 | 6 | 9 | 11 => 30
  | _ => 31

@[ext] structure Date where
  year : ℕ
  month : ℕ
  day : ℕ
  yearLt : year < 10000
  monthPos : 1 ≤ month
  monthLe : month ≤ 12
  dayPos : 1 ≤ day
  dayLe : day ≤ daysInMonth year month
  deriving DecidableEq

namespace Date

def text (date : Date) : List Char :=
  pad 4 date.year ++ '-' :: (pad 2 date.month ++ '-' :: pad 2 date.day)

/-- The days of the calendar up to the date. -/
def number (date : Date) : ℕ :=
  ∑ year ∈ Finset.range date.year, daysInYear year +
    (∑ month ∈ Finset.range date.month, daysInMonth date.year month + date.day)

end Date

lemma sum_range_add_le (f : ℕ → ℕ) {m n : ℕ} (h : m < n) :
    ∑ i ∈ Finset.range m, f i + f m ≤ ∑ i ∈ Finset.range n, f i := by
  rw [← Finset.sum_range_succ]
  exact Finset.sum_le_sum_of_subset (Finset.range_mono h)

lemma daysInMonth_sum (year : ℕ) : ∑ month ∈ Finset.range 13, daysInMonth year month = daysInYear year := by
  simp only [Finset.sum_range_succ, Finset.sum_range_zero, daysInMonth, daysInYear]
  cases leap year <;> rfl

lemma daysInMonth_le (year month : ℕ) : daysInMonth year month ≤ 31 := by
  unfold daysInMonth
  split <;> first | split_ifs <;> omega | omega

namespace Date

variable {a b : Date}

lemma day_lt (a : Date) : a.day < 100 := (a.dayLe.trans (daysInMonth_le _ _)).trans_lt (by decide)

/-- The days of a date are in its year. -/
lemma day_le_year (a : Date) :
    ∑ month ∈ Finset.range a.month, daysInMonth a.year month + a.day ≤ daysInYear a.year := by
  have hmonth := sum_range_add_le (daysInMonth a.year) (Nat.lt_succ_of_le a.monthLe)
  rw [daysInMonth_sum] at hmonth
  have := a.dayLe
  omega

lemma number_lt_of_year (h : a.year < b.year) : a.number < b.number := by
  have hyear := sum_range_add_le daysInYear h
  have hday := a.day_le_year
  have := b.dayPos
  unfold number
  omega

lemma number_lt_of_month (hyear : a.year = b.year) (h : a.month < b.month) : a.number < b.number := by
  have hmonth := sum_range_add_le (daysInMonth b.year) h
  have hday := a.dayLe
  have := b.dayPos
  unfold number
  rw [hyear] at hday ⊢
  omega

/-- Days are numbered in the order of their years, months and days. -/
lemma number_lt_iff : a.number < b.number ↔
    a.year < b.year ∨ a.year = b.year ∧ (a.month < b.month ∨ a.month = b.month ∧ a.day < b.day) := by
  rcases lt_trichotomy a.year b.year with hyear | hyear | hyear
  · simp [hyear, number_lt_of_year hyear]
  · rcases lt_trichotomy a.month b.month with hmonth | hmonth | hmonth
    · simp [hyear, hmonth, number_lt_of_month hyear hmonth]
    · simp [number, hyear, hmonth]
    · have := number_lt_of_month hyear.symm hmonth
      simp only [hyear, lt_irrefl, hmonth.ne', hmonth.not_gt, false_and, or_false, and_false, iff_false]
      omega
  · have := number_lt_of_year hyear
    simp only [hyear.ne', hyear.not_gt, false_and, or_false, iff_false]
    omega

lemma number_inj (h : a.number = b.number) : a = b := by
  have hab := h.not_lt
  have hba := h.not_gt
  rw [number_lt_iff] at hab hba
  ext <;> omega

lemma text_append_lt {t t' : List Char} :
    a.text ++ t < b.text ++ t' ↔ a.number < b.number ∨ a = b ∧ t < t' := by
  simp only [text, List.append_assoc, List.cons_append]
  rw [pad_append_lt a.yearLt b.yearLt, List.cons_lt_cons_iff, pad_append_lt (by have := a.monthLe; omega)
    (by have := b.monthLe; omega), List.cons_lt_cons_iff, pad_append_lt a.day_lt b.day_lt, number_lt_iff, Date.ext_iff]
  simp only [lt_irrefl, false_or, true_and]
  tauto

end Date

/-! ## Clocks -/

/-- The fields of a clock are hours, minutes, seconds and decimal places. -/
def radix : ℕ → ℕ
  | 0 => 24
  | 1 | 2 => 60
  | _ => 10

/-- The seconds in a field. -/
def unit : ℕ → ℚ
  | 0 => 3600
  | 1 => 60
  | 2 => 1
  | i + 3 => 1 / 10 ^ (i + 1)

def width (i : ℕ) : ℕ := if i < 3 then 2 else 1

/-- What stands before a field. -/
def mark : ℕ → List Char
  | 0 => ['T']
  | 1 | 2 => [':']
  | 3 => ['.']
  | _ => []

/-- The text of the fields from a place on. -/
def clockText : ℕ → List ℕ → List Char
  | _, [] => []
  | i, x :: xs => mark i ++ (pad (width i) x ++ clockText (i + 1) xs)

def seconds : ℕ → List ℕ → ℚ
  | _, [] => 0
  | i, x :: xs => x * unit i + seconds (i + 1) xs

def InRange : ℕ → List ℕ → Prop
  | _, [] => True
  | i, x :: xs => x < radix i ∧ InRange (i + 1) xs

instance decidableInRange : (i : ℕ) → (xs : List ℕ) → Decidable (InRange i xs)
  | _, [] => .isTrue trivial
  | i, _ :: xs =>
      have := decidableInRange (i + 1) xs
      inferInstanceAs (Decidable (_ ∧ _))

variable {i x y : ℕ} {xs ys : List ℕ}

lemma unit_pos (i : ℕ) : 0 < unit i := by
  unfold unit
  split <;> positivity

lemma unit_succ (i : ℕ) : radix (i + 1) * unit (i + 1) = unit i := by
  match i with
  | 0 => norm_num [radix, unit]
  | 1 => norm_num [radix, unit]
  | 2 => norm_num [radix, unit]
  | i + 3 =>
    simp only [radix, unit]
    field_simp
    ring

lemma radix_le (i : ℕ) : radix i ≤ 10 ^ width i := by
  match i with
  | 0 | 1 | 2 => decide
  | i + 3 => simp [radix, width]

lemma seconds_nonneg : 0 ≤ seconds i xs := by
  induction xs generalizing i with
  | nil => exact le_rfl
  | cons x xs ih => exact add_nonneg (mul_nonneg (Nat.cast_nonneg x) (unit_pos i).le) ih

/-- The fields after a field are less than one of its units. -/
lemma seconds_lt (h : InRange i xs) : seconds i xs < radix i * unit i := by
  induction xs generalizing i with
  | nil =>
    have hradix : (0 : ℚ) < radix i := by
      unfold radix
      split <;> norm_num
    exact mul_pos hradix (unit_pos i)
  | cons x xs ih =>
    have hrest := ih h.2
    rw [unit_succ] at hrest
    have hx : (x : ℚ) + 1 ≤ radix i := by exact_mod_cast h.1
    calc x * unit i + seconds (i + 1) xs < x * unit i + unit i := by linarith
      _ = (x + 1) * unit i := by ring
      _ ≤ radix i * unit i := mul_le_mul_of_nonneg_right hx (unit_pos i).le

/-- The first field that differs decides. -/
lemma seconds_lt_of_head (hxs : InRange (i + 1) xs) (h : x < y) : seconds i (x :: xs) < seconds i (y :: ys) := by
  have hrest := seconds_lt hxs
  rw [unit_succ] at hrest
  have hxy : (x : ℚ) + 1 ≤ y := by exact_mod_cast h
  have hys : 0 ≤ seconds (i + 1) ys := seconds_nonneg
  calc x * unit i + seconds (i + 1) xs < (x + 1) * unit i := by linarith
    _ ≤ y * unit i := mul_le_mul_of_nonneg_right hxy (unit_pos i).le
    _ ≤ y * unit i + seconds (i + 1) ys := by linarith

/-! ## Offsets -/

inductive Zone
  | utc
  | hours (negative : Bool) (hour : ℕ)
  | minutes (negative : Bool) (hour minute : ℕ)
  deriving DecidableEq

namespace Zone

def sign (negative : Bool) : Char := if negative then '-' else '+'

def text : Zone → List Char
  | utc => ['Z']
  | hours negative hour => sign negative :: pad 2 hour
  | minutes negative hour minute => sign negative :: (pad 2 hour ++ ':' :: pad 2 minute)

/-- The seconds by which the local time is ahead. -/
def offset : Zone → ℚ
  | utc => 0
  | hours negative hour => (if negative then -1 else 1) * (3600 * hour)
  | minutes negative hour minute => (if negative then -1 else 1) * (3600 * hour + 60 * minute)

def Valid : Zone → Prop
  | utc => True
  | hours _ hour => hour < 24
  | minutes _ hour minute => hour < 24 ∧ minute < 60

instance : DecidablePred Valid
  | utc => .isTrue trivial
  | hours _ _ => inferInstanceAs (Decidable (_ < _))
  | minutes _ _ _ => inferInstanceAs (Decidable (_ ∧ _))

/-- `+00:00`. -/
def greenwich : Zone := minutes false 0 0

variable {zone : Zone}

/-- Of the offsets, only the hours of no offset come before the full text of it. -/
lemma text_lt_greenwich (h : zone.Valid) : zone.text < greenwich.text ↔ zone = hours false 0 := by
  cases zone with
  | utc => decide
  | hours negative hour =>
    cases negative with
    | true => simp [text, greenwich, sign, List.cons_lt_cons_iff]
    | false =>
      have hhour : hour < 10 ^ 2 := lt_trans h (by decide)
      have htext : pad 2 hour ++ [] < pad 2 0 ++ ':' :: pad 2 0 ↔ _ := pad_append_lt hhour (by decide)
      rw [List.append_nil] at htext
      simp [text, greenwich, sign, htext]
  | minutes negative hour minute =>
    cases negative with
    | true => simp [text, greenwich, sign, List.cons_lt_cons_iff]
    | false =>
      have hhour : hour < 10 ^ 2 := lt_trans h.1 (by decide)
      have hminute : minute < 10 ^ 2 := lt_trans h.2 (by decide)
      have hminutes : pad 2 minute ++ [] < pad 2 0 ++ [] ↔ _ := pad_append_lt hminute (by decide)
      rw [List.append_nil, List.append_nil] at hminutes
      simp [text, greenwich, sign, pad_append_lt hhour (by decide : 0 < 10 ^ 2), hminutes]

end Zone

/-! ## Clocks as texts -/

variable {zone : Zone} {t : List Char}

lemma pad_head {n : ℕ} (h : n < 10 ^ width i) : ∃ c rest, pad (width i) n = c :: rest ∧ '-' < c ∧ c < 'Z' := by
  obtain ⟨places, hplaces⟩ : ∃ places, width i = places + 1 := by
    unfold width
    split_ifs <;> exact ⟨_, rfl⟩
  rw [hplaces, pow_succ] at h
  rw [hplaces]
  exact ⟨_, _, rfl, lt_digit (Nat.div_lt_of_lt_mul h)⟩

/-- The text of a field begins above the signs and below the letter for no offset. -/
lemma clockText_head (h : InRange i (y :: ys)) : ∃ c rest, clockText i (y :: ys) = c :: rest ∧ '-' < c ∧ c < 'Z' := by
  match i with
  | 0 | 1 | 2 | 3 => exact ⟨_, _, rfl, by decide⟩
  | i + 4 =>
    obtain ⟨c, rest, hpad, hc⟩ := pad_head (h.1.trans_le (radix_le (i + 4)))
    exact ⟨c, rest ++ clockText (i + 5) ys, by rw [clockText, hpad]; rfl, hc⟩

/-- Where the clock ends first, the text with a sign comes first. -/
lemma zone_lt_clock (h : InRange i (y :: ys)) : zone.text < clockText i (y :: ys) ++ t ↔ zone ≠ .utc := by
  obtain ⟨c, rest, hclock, hsign, hletter⟩ := clockText_head h
  have hminus : '-' ≠ c := hsign.ne
  have hplus : '+' < c := lt_trans (by decide) hsign
  rw [hclock]
  cases zone with
  | utc => simp [Zone.text, List.cons_lt_cons_iff, hletter.ne', hletter.not_gt]
  | hours negative hour => cases negative <;> simp [Zone.text, Zone.sign, List.cons_lt_cons_iff, hsign, hplus]
  | minutes negative hour minute =>
    cases negative <;> simp [Zone.text, Zone.sign, List.cons_lt_cons_iff, hsign, hplus]

lemma not_clock_lt_greenwich (h : InRange i (x :: xs)) : ¬ clockText i (x :: xs) ++ t < Zone.greenwich.text := by
  obtain ⟨c, rest, hclock, hsign, -⟩ := clockText_head h
  have hplus : '+' < c := lt_trans (by decide) hsign
  rw [hclock]
  simp [Zone.text, Zone.greenwich, Zone.sign, List.cons_lt_cons_iff, hplus.ne', hplus.not_gt]

/-- The clock ends while it still agrees with the other one. -/
def EndsEarly (xs ys : List ℕ) : Prop := xs <+: ys ∧ xs ≠ ys

instance (xs ys : List ℕ) : Decidable (EndsEarly xs ys) := inferInstanceAs (Decidable (_ ∧ _))

lemma endsEarly_cons : EndsEarly (x :: xs) (y :: ys) ↔ x = y ∧ EndsEarly xs ys := by
  simp only [EndsEarly, List.cons_prefix_cons, ne_eq, List.cons.injEq]
  tauto

lemma append_lt_append {l t t' : List Char} : l ++ t < l ++ t' ↔ t < t' := by
  induction l with
  | nil => rfl
  | cons c l ih => rw [List.cons_append, List.cons_append, List.cons_lt_cons_self, ih]

/-- Clocks with their offsets compare by the first field that differs, and by the offset where the clock ends. -/
lemma clock_lt (hxs : InRange i xs) (hys : InRange i ys) (hzone : zone.Valid) :
    clockText i xs ++ zone.text < clockText i ys ++ Zone.greenwich.text ↔
      if EndsEarly xs ys then zone ≠ .utc else seconds i xs < seconds i ys ∨ xs = ys ∧ zone = .hours false 0 := by
  induction xs generalizing i ys with
  | nil =>
    cases ys with
    | nil => simp [EndsEarly, clockText, Zone.text_lt_greenwich hzone]
    | cons y ys =>
      rw [if_pos ⟨List.nil_prefix, (List.cons_ne_nil _ _).symm⟩]
      exact zone_lt_clock hys
  | cons x xs ih =>
    cases ys with
    | nil =>
      have hnonneg : 0 ≤ seconds i (x :: xs) := seconds_nonneg
      rw [if_neg (by simp [EndsEarly])]
      refine iff_of_false (not_clock_lt_greenwich hxs) ?_
      rintro (hlt | ⟨heq, -⟩)
      · exact hlt.not_ge hnonneg
      · exact absurd heq (List.cons_ne_nil _ _)
    | cons y ys =>
      simp only [endsEarly_cons]
      rw [clockText, clockText, List.append_assoc, List.append_assoc, List.append_assoc, List.append_assoc,
        append_lt_append, pad_append_lt (hxs.1.trans_le (radix_le i)) (hys.1.trans_le (radix_le i))]
      rcases lt_trichotomy x y with h | rfl | h
      · simp [h, h.ne, seconds_lt_of_head hxs.2 h]
      · simp [ih hxs.2 hys.2, seconds]
      · simp [h.not_gt, h.ne', (seconds_lt_of_head hys.2 h).not_gt]

/-! ## Instants -/

structure IsoInstant where
  date : Date
  clock : List ℕ
  timed : clock ≠ []
  inRange : InRange 0 clock
  zone : Zone
  zoneValid : zone.Valid

namespace IsoInstant

variable (a b : IsoInstant)

def text : List Char := a.date.text ++ (clockText 0 a.clock ++ a.zone.text)

/-- The seconds that the text reads without its offset. -/
def localSeconds : ℚ := 86400 * a.date.number + seconds 0 a.clock

def instant : ℚ := a.localSeconds - a.zone.offset

variable {a b}

lemma clock_lt_day (a : IsoInstant) : seconds 0 a.clock < 86400 := by
  have h := seconds_lt a.inRange
  norm_num [radix, unit] at h
  exact h

lemma localSeconds_lt_of_number (h : a.date.number < b.date.number) : a.localSeconds < b.localSeconds := by
  have hclock := a.clock_lt_day
  have hnonneg : 0 ≤ seconds 0 b.clock := seconds_nonneg
  have hnumber : (a.date.number : ℚ) + 1 ≤ b.date.number := by exact_mod_cast h
  unfold localSeconds
  linarith

/-- A text compares with one of no offset as the local times do, save where it ends early and where it is the same
but for the minutes of the offset. -/
theorem text_lt_iff (hb : b.zone = .greenwich) : a.text < b.text ↔
    if a.date = b.date ∧ EndsEarly a.clock b.clock then a.zone ≠ .utc
    else a.localSeconds < b.localSeconds ∨ a.date = b.date ∧ a.clock = b.clock ∧ a.zone = .hours false 0 := by
  rw [text, text, hb, Date.text_append_lt, clock_lt a.inRange b.inRange a.zoneValid]
  rcases lt_trichotomy a.date.number b.date.number with h | h | h
  · have hdate : a.date ≠ b.date := fun heq => by rw [heq] at h; exact lt_irrefl _ h
    simp [h, hdate, localSeconds_lt_of_number h]
  · have hdate : a.date = b.date := Date.number_inj h
    simp [hdate, localSeconds]
  · have hdate : a.date ≠ b.date := fun heq => by rw [heq] at h; exact lt_irrefl _ h
    simp [h.not_gt, hdate, (localSeconds_lt_of_number h).not_gt]

/-- The text tells on which side of the other instant the instant is: the offset does not carry it across, and where
the text ends early, the offset has a sign exactly if the instant is before. -/
def Comparable (a b : IsoInstant) : Prop :=
  if a.date = b.date ∧ EndsEarly a.clock b.clock then a.zone ≠ .utc ↔ a.instant < b.instant
  else if a.date = b.date ∧ a.clock = b.clock ∧ a.zone = .hours false 0 then False
  else a.localSeconds < b.localSeconds ↔ a.instant < b.instant

theorem text_lt_iff_instant_lt (hb : b.zone = .greenwich) :
    (a.text < b.text ↔ a.instant < b.instant) ↔ a.Comparable b := by
  rw [text_lt_iff hb, Comparable]
  split_ifs with hends hbare
  · rfl
  · obtain ⟨hdate, hclock, hzone⟩ := hbare
    have hinstant : a.instant = b.instant := by
      simp [instant, localSeconds, hdate, hclock, hzone, hb, Zone.offset, Zone.greenwich]
    simp [hdate, hclock, hzone, hinstant]
  · rw [or_iff_left hbare]

end IsoInstant

/-! ## The clock of the system -/

/-- `datetime.now(timezone.utc)`. -/
structure UtcDatetime where
  date : Date
  hour : ℕ
  minute : ℕ
  second : ℕ
  microsecond : ℕ
  hourLt : hour < 24
  minuteLt : minute < 60
  secondLt : second < 60
  microsecondLt : microsecond < 1000000

/-- The decimal places of a number of this width. -/
def decimals : ℕ → ℕ → List ℕ
  | 0, _ => []
  | width + 1, n => n / 10 ^ width % 10 :: decimals width n

lemma decimals_inRange (i places n : ℕ) : InRange (i + 3) (decimals places n) := by
  induction places generalizing i with
  | zero => trivial
  | succ places ih => exact ⟨Nat.mod_lt _ (by decide), ih (i + 1)⟩

/-- `isoformat()`: the microseconds are left out where there are none. -/
def UtcDatetime.isoformat (now : UtcDatetime) : IsoInstant where
  date := now.date
  clock := [now.hour, now.minute, now.second] ++ if now.microsecond = 0 then [] else decimals 6 now.microsecond
  timed := List.cons_ne_nil _ _
  inRange := by
    refine ⟨now.hourLt, now.minuteLt, now.secondLt, ?_⟩
    split_ifs
    · trivial
    · exact decimals_inRange 0 6 _
  zone := .greenwich
  zoneValid := by decide

end AgentSystem.Iso8601

import Mathlib.Order.Monotone.Basic
import Mathlib.Order.Nat

/-! Dates and times of the Gregorian calendar, and their text `2006-01-02 15:04:05`. -/
namespace Sonarr.Lib.Civil

def isLeap (y : Nat) : Bool := y % 4 == 0 && (y % 100 != 0 || y % 400 == 0)

/-- The days of the years from 0 up to `y`. -/
def daysBeforeYear (y : Nat) : Nat := 365 * y + (y + 3) / 4 - (y + 99) / 100 + (y + 399) / 400

def daysIn (leap : Bool) : Nat → Nat
  | 1 | 3 | 5 | 7 | 8 | 10 | 12 => 31
  | 4 | 6 | 9 | 11 => 30
  | 2 => if leap then 29 else 28
  | _ => 0

def daysBeforeMonth (leap : Bool) : Nat → Nat
  | 0 => 0
  | m + 1 => daysBeforeMonth leap m + daysIn leap m

structure DateTime where
  year : Nat
  month : Nat
  day : Nat
  hour : Nat
  minute : Nat
  second : Nat
  deriving DecidableEq, Repr

/-- A time that a clock and a calendar show, in a year of four digits. -/
structure DateTime.Valid (t : DateTime) : Prop where
  year : t.year < 10000
  month_pos : 1 ≤ t.month
  month_le : t.month ≤ 12
  day_pos : 1 ≤ t.day
  day_le : t.day ≤ daysIn (isLeap t.year) t.month
  hour : t.hour < 24
  minute : t.minute < 60
  second : t.second < 60

/-- The day's number, from the first day of year 0. -/
def DateTime.dayNumber (t : DateTime) : Nat :=
  daysBeforeYear t.year + (daysBeforeMonth (isLeap t.year) t.month + (t.day - 1))

def DateTime.secondOfDay (t : DateTime) : Nat := 3600 * t.hour + 60 * t.minute + t.second

/-- Days from year 0 to 1970. -/
def epoch : Int := 719528

/-- Seconds since the beginning of 1970. -/
def DateTime.seconds (t : DateTime) : Int := 86400 * (t.dayNumber - epoch) + t.secondOfDay

/-- The year of a day, which is at most one off the mean. -/
def yearOf (n : Nat) : Nat :=
  let y := 400 * n / 146097
  if n < daysBeforeYear y then y - 1 else if daysBeforeYear (y + 1) ≤ n then y + 1 else y

/-- The month among the first `m` of the year's `n`-th day. -/
def monthUpTo (leap : Bool) (n : Nat) : Nat → Nat
  | 0 => 0
  | m + 1 => if daysBeforeMonth leap (m + 1) ≤ n then m + 1 else monthUpTo leap n m

/-- What the calendar and the clock show, for times from year 0 on. -/
def ofSeconds (t : Int) : DateTime :=
  let n := (t / 86400 + epoch).toNat
  let s := (t % 86400).toNat
  let year := yearOf n
  let yday := n - daysBeforeYear year
  let month := monthUpTo (isLeap year) yday 12
  { year, month, day := yday - daysBeforeMonth (isLeap year) month + 1
    hour := s / 3600, minute := s / 60 % 60, second := s % 60 }

/-- Times of the years 0 to 9999. -/
def InRange (t : Int) : Prop := -62167219200 ≤ t ∧ t < 253402300800

/-- A year has 365.2425 days in the mean. -/
theorem daysBeforeYear_bounds (y : Nat) :
    146097 * y ≤ 400 * daysBeforeYear y + 396 ∧ 400 * daysBeforeYear y ≤ 146097 * y + 699 := by
  unfold daysBeforeYear
  omega

theorem daysBeforeMonth_thirteen (leap : Bool) :
    daysBeforeMonth leap 13 = if leap then 366 else 365 := by
  cases leap <;> rfl

theorem daysBeforeYear_succ (y : Nat) :
    daysBeforeYear (y + 1) = daysBeforeYear y + daysBeforeMonth (isLeap y) 13 := by
  have h4 : (y + 1 + 3) / 4 = (y + 3) / 4 + if y % 4 = 0 then 1 else 0 := by split <;> omega
  have h100 : (y + 1 + 99) / 100 = (y + 99) / 100 + if y % 100 = 0 then 1 else 0 := by
    split <;> omega
  have h400 : (y + 1 + 399) / 400 = (y + 399) / 400 + if y % 400 = 0 then 1 else 0 := by
    split <;> omega
  have hpos : (y + 99) / 100 ≤ 365 * y + (y + 3) / 4 := by omega
  rw [daysBeforeYear, h4, h100, h400, daysBeforeMonth_thirteen, daysBeforeYear]
  clear h4 h100 h400
  by_cases d400 : y % 400 = 0
  · have d100 : y % 100 = 0 := by omega
    have d4 : y % 4 = 0 := by omega
    simp only [isLeap, d4, d100, d400, beq_self_eq_true, Bool.or_true, Bool.and_true, if_true]
    omega
  · by_cases d100 : y % 100 = 0
    · have d4 : y % 4 = 0 := by omega
      have hleap : isLeap y = false := by simp [isLeap, d100, d400]
      simp only [hleap, d4, d100, d400, Bool.false_eq_true, if_true, if_false]
      omega
    · by_cases d4 : y % 4 = 0
      · have hleap : isLeap y = true := by simp [isLeap, d4, d100]
        simp only [hleap, d4, d100, d400, if_true, if_false]
        omega
      · have hleap : isLeap y = false := by simp [isLeap, d4]
        simp only [hleap, d4, d100, d400, Bool.false_eq_true, if_false]
        omega

theorem yearOf_spec (n : Nat) :
    daysBeforeYear (yearOf n) ≤ n ∧ n < daysBeforeYear (yearOf n + 1) := by
  have hmean := Nat.div_add_mod (400 * n) 146097
  have hrest := Nat.mod_lt (400 * n) (show 0 < 146097 by decide)
  unfold yearOf
  dsimp only
  generalize 400 * n / 146097 = y at *
  generalize 400 * n % 146097 = r at *
  have h := daysBeforeYear_bounds y
  have hpred := daysBeforeYear_bounds (y - 1)
  have hsucc := daysBeforeYear_bounds (y + 1)
  have hsucc' := daysBeforeYear_bounds (y + 1 + 1)
  split
  · rename_i hlt
    have hpos : 0 < y := by
      by_contra hzero
      rw [Nat.eq_zero_of_not_pos hzero] at hlt
      exact absurd hlt (Nat.not_lt_zero n)
    rw [Nat.sub_add_cancel hpos]
    omega
  · split <;> omega

theorem daysBeforeYear_strictMono : StrictMono daysBeforeYear := by
  refine strictMono_nat_of_lt_succ (fun y => ?_)
  rw [daysBeforeYear_succ, daysBeforeMonth_thirteen]
  split <;> omega

theorem daysBeforeMonth_mono (leap : Bool) : Monotone (daysBeforeMonth leap) :=
  monotone_nat_of_le_succ (fun _ => Nat.le_add_right ..)

/-! Years that start in March have their leap day at the end. -/

theorem daysBeforeYear_march (y : Nat) :
    (daysBeforeYear y : Int) + daysBeforeMonth (isLeap y) 13 =
      365 * y + y / 4 - y / 100 + y / 400 + 366 := by
  have h4 : ((y + 1 + 3) / 4 : Nat) = y / 4 + 1 := by omega
  have h100 : ((y + 1 + 99) / 100 : Nat) = y / 100 + 1 := by omega
  have h400 : ((y + 1 + 399) / 400 : Nat) = y / 400 + 1 := by omega
  have hsub : y / 100 ≤ y / 4 := Nat.div_le_div_left (by decide) (by decide)
  have hsucc := daysBeforeYear_succ y
  rw [daysBeforeYear, h4, h100, h400] at hsucc
  clear h4 h100 h400
  omega

theorem daysBeforeYear_january (y : Nat) :
    (daysBeforeYear y : Int) =
      365 * (y - 1) + ((y : Int) - 1) / 4 - ((y : Int) - 1) / 100 + ((y : Int) - 1) / 400 + 366 := by
  have h4 : ((y : Int) - 1) / 4 = ((y + 3) / 4 : Nat) - 1 := by omega
  have h100 : ((y : Int) - 1) / 100 = ((y + 99) / 100 : Nat) - 1 := by omega
  have h400 : ((y : Int) - 1) / 400 = ((y + 399) / 400 : Nat) - 1 := by omega
  have hsub : (y + 99) / 100 ≤ 365 * y + (y + 3) / 4 := by omega
  rw [daysBeforeYear, h4, h100, h400]
  clear h4 h100 h400
  omega

/-- Months counted from March have the days that the formula gives them. -/
theorem daysBeforeMonth_march (leap : Bool) {m : Nat} (h3 : 3 ≤ m) (h12 : m ≤ 12) :
    daysBeforeMonth leap m + 306 =
      (153 * (m - 3) + 2) / 5 + daysBeforeMonth leap 13 := by
  have hall : ∀ leap : Bool, ∀ m < 13, 3 ≤ m → daysBeforeMonth leap m + 306 =
      (153 * (m - 3) + 2) / 5 + daysBeforeMonth leap 13 := by decide
  exact hall leap m (Nat.lt_succ_of_le h12) h3

theorem daysBeforeMonth_january (leap : Bool) {m : Nat} (h1 : 1 ≤ m) (h2 : m < 3) :
    (153 * (m + 9) + 2) / 5 = 306 + daysBeforeMonth leap m := by
  have hall : ∀ leap : Bool, ∀ m < 3, 1 ≤ m →
      (153 * (m + 9) + 2) / 5 = 306 + daysBeforeMonth leap m := by decide
  exact hall leap m h2 h1

/-- The month found is the one the day is in. -/
theorem monthUpTo_spec (leap : Bool) {n : Nat} : ∀ {m : Nat}, 1 ≤ m →
    n < daysBeforeMonth leap (m + 1) →
    1 ≤ monthUpTo leap n m ∧ monthUpTo leap n m ≤ m ∧
      daysBeforeMonth leap (monthUpTo leap n m) ≤ n ∧
      n < daysBeforeMonth leap (monthUpTo leap n m + 1)
  | m + 1, _, h => by
    unfold monthUpTo
    split
    · rename_i hle
      exact ⟨Nat.le_add_left .., Nat.le_refl _, hle, h⟩
    · rename_i hlt
      have hm : 1 ≤ m := by
        rcases m with _ | m
        · exact absurd (Nat.zero_le n) hlt
        · exact Nat.le_add_left ..
      obtain ⟨hpos, hle, hfrom, hto⟩ := monthUpTo_spec leap hm (Nat.not_le.mp hlt)
      exact ⟨hpos, Nat.le_succ_of_le hle, hfrom, hto⟩

/-- A valid day lies in its year. -/
theorem DateTime.Valid.dayNumber_lt {t : DateTime} (h : t.Valid) :
    t.dayNumber < daysBeforeYear (t.year + 1) := by
  have hmonth : daysBeforeMonth (isLeap t.year) (t.month + 1) =
      daysBeforeMonth (isLeap t.year) t.month + daysIn (isLeap t.year) t.month := rfl
  have hyear : daysBeforeMonth (isLeap t.year) (t.month + 1) ≤
      daysBeforeMonth (isLeap t.year) 13 := daysBeforeMonth_mono _ (Nat.succ_le_succ h.month_le)
  have := h.day_pos
  have := h.day_le
  rw [daysBeforeYear_succ, DateTime.dayNumber]
  omega

theorem DateTime.Valid.secondOfDay_lt {t : DateTime} (h : t.Valid) : t.secondOfDay < 86400 := by
  have := h.hour
  have := h.minute
  have := h.second
  unfold DateTime.secondOfDay
  omega

/-- The calendar's and the clock's time stands for the second it was made from. -/
theorem ofSeconds_spec {t : Int} (h : InRange t) :
    (ofSeconds t).Valid ∧ (ofSeconds t).seconds = t := by
  obtain ⟨hlow, hhigh⟩ := h
  have hn : ((t / 86400 + epoch).toNat : Int) = t / 86400 + epoch := by
    unfold epoch
    omega
  have hs : ((t % 86400).toNat : Int) = t % 86400 := by omega
  have hlast : (t / 86400 + epoch).toNat < daysBeforeYear 10000 := by
    have : daysBeforeYear 10000 = 3652425 := rfl
    unfold epoch at *
    omega
  simp only [ofSeconds]
  generalize (t / 86400 + epoch).toNat = n at *
  generalize (t % 86400).toNat = s at *
  obtain ⟨hfrom, hto⟩ := yearOf_spec n
  generalize yearOf n = y at *
  have hyear : y < 10000 := daysBeforeYear_strictMono.lt_iff_lt.mp (Nat.lt_of_le_of_lt hfrom hlast)
  rw [daysBeforeYear_succ] at hto
  have hyday : n - daysBeforeYear y < daysBeforeMonth (isLeap y) 13 := by omega
  obtain ⟨hpos, hle, hmfrom, hmto⟩ := monthUpTo_spec (isLeap y) (show 1 ≤ 12 by decide) hyday
  generalize monthUpTo (isLeap y) (n - daysBeforeYear y) 12 = m at *
  rw [daysBeforeMonth] at hmto
  refine ⟨⟨hyear, hpos, hle, Nat.le_add_left .., ?_, ?_, Nat.mod_lt _ (by decide),
    Nat.mod_lt _ (by decide)⟩, ?_⟩
  · dsimp only
    omega
  · dsimp only
    omega
  · simp only [DateTime.seconds, DateTime.dayNumber, DateTime.secondOfDay]
    omega

/-- Year by year, month by month and so on. -/
def DateTime.before (t u : DateTime) : Prop :=
  t.year < u.year ∨ t.year = u.year ∧ (t.month < u.month ∨ t.month = u.month ∧ (t.day < u.day ∨
    t.day = u.day ∧ (t.hour < u.hour ∨ t.hour = u.hour ∧ (t.minute < u.minute ∨
      t.minute = u.minute ∧ t.second < u.second))))

theorem DateTime.Valid.dayNumber_lt_of_year {t u : DateTime} (ht : t.Valid)
    (h : t.year < u.year) : t.dayNumber < u.dayNumber :=
  calc t.dayNumber < daysBeforeYear (t.year + 1) := ht.dayNumber_lt
    _ ≤ daysBeforeYear u.year := daysBeforeYear_strictMono.monotone h
    _ ≤ u.dayNumber := Nat.le_add_right ..

theorem DateTime.Valid.dayNumber_lt_of_month {t u : DateTime} (ht : t.Valid)
    (hyear : t.year = u.year) (h : t.month < u.month) : t.dayNumber < u.dayNumber := by
  have hnext : daysBeforeMonth (isLeap t.year) t.month + daysIn (isLeap t.year) t.month ≤
      daysBeforeMonth (isLeap t.year) u.month := daysBeforeMonth_mono _ h
  have := ht.day_pos
  have := ht.day_le
  unfold DateTime.dayNumber
  rw [← hyear]
  omega

theorem DateTime.Valid.seconds_lt_of_day {t u : DateTime} (ht : t.Valid)
    (h : t.dayNumber < u.dayNumber) : t.seconds < u.seconds := by
  have := ht.secondOfDay_lt
  unfold DateTime.seconds
  omega

theorem DateTime.Valid.seconds_lt {t u : DateTime} (ht : t.Valid) (h : t.before u) :
    t.seconds < u.seconds := by
  obtain hyear | ⟨hyear, hmonth | ⟨hmonth, hday | ⟨hday, hclock⟩⟩⟩ := h
  · exact ht.seconds_lt_of_day (ht.dayNumber_lt_of_year hyear)
  · exact ht.seconds_lt_of_day (ht.dayNumber_lt_of_month hyear hmonth)
  · refine ht.seconds_lt_of_day ?_
    have := ht.day_pos
    simp only [DateTime.dayNumber, hyear, hmonth]
    omega
  · have hsame : t.dayNumber = u.dayNumber := by
      simp only [DateTime.dayNumber, hyear, hmonth, hday]
    have hsecond : t.secondOfDay < u.secondOfDay := by
      have := ht.minute
      have := ht.second
      unfold DateTime.secondOfDay
      omega
    simp only [DateTime.seconds, hsame]
    omega

theorem DateTime.trichotomy (t u : DateTime) : t.before u ∨ t = u ∨ u.before t := by
  obtain ⟨y, m, d, h, i, s⟩ := t
  obtain ⟨y', m', d', h', i', s'⟩ := u
  simp only [DateTime.before, DateTime.mk.injEq]
  omega

/-- Valid times are ordered as what they stand for. -/
theorem DateTime.Valid.before_iff {t u : DateTime} (ht : t.Valid) (hu : u.Valid) :
    t.before u ↔ t.seconds < u.seconds := by
  refine ⟨ht.seconds_lt, fun h => ?_⟩
  obtain hbefore | rfl | hafter := t.trichotomy u
  · exact hbefore
  · exact absurd h (Int.lt_irrefl _)
  · exact absurd (hu.seconds_lt hafter) (Int.not_lt.mpr (Int.le_of_lt h))

/-! ### The text -/

def digit (n : Nat) : Char := Char.ofNat (48 + n % 10)

def pad2 (n : Nat) : List Char := [digit (n / 10), digit n]

def pad4 (n : Nat) : List Char := [digit (n / 1000), digit (n / 100), digit (n / 10), digit n]

def DateTime.text (t : DateTime) : List Char :=
  pad4 t.year ++ '-' :: (pad2 t.month ++ '-' :: (pad2 t.day ++ ' ' :: (pad2 t.hour ++
    ':' :: (pad2 t.minute ++ ':' :: pad2 t.second))))

/-- `Format("2006-01-02 15:04:05")` of a time since 1970. -/
def format (t : Int) : String := String.ofList (ofSeconds t).text

def digitValue (c : Char) : Nat := c.toNat - 48

/-- A number of two digits, or one if it need not be two. -/
def getNum (fixed : Bool) : List Char → Option (Nat × List Char)
  | [] => none
  | [a] => if a.isDigit && !fixed then some (digitValue a, []) else none
  | a :: b :: rest =>
    if !a.isDigit then none
    else if b.isDigit then some (10 * digitValue a + digitValue b, rest)
    else if fixed then none
    else some (digitValue a, b :: rest)

def getYear : List Char → Option (Nat × List Char)
  | a :: b :: c :: d :: rest =>
    if a.isDigit && b.isDigit && c.isDigit && d.isDigit then
      some (1000 * digitValue a + 100 * digitValue b + 10 * digitValue c + digitValue d, rest)
    else none
  | _ => none

def skip (c : Char) : List Char → Option (List Char)
  | [] => none
  | x :: rest => if x = c then some rest else none

/-- A blank may be several, or none at the end. -/
def skipBlank : List Char → Option (List Char)
  | [] => some []
  | x :: rest => if x = ' ' then some (rest.dropWhile (fun c => c == ' ')) else none

/-- Fractions of a second are read whether or not the layout has them. -/
def skipFraction : List Char → List Char
  | c :: d :: rest =>
    if (c = '.' ∨ c = ',') ∧ d.isDigit then rest.dropWhile Char.isDigit else c :: d :: rest
  | rest => rest

def getDate (s : List Char) : Option (Nat × Nat × Nat × List Char) := do
  let (year, s) ← getYear s
  let s ← skip '-' s
  let (month, s) ← getNum true s
  let s ← skip '-' s
  let (day, s) ← getNum true s
  some (year, month, day, s)

def getClock (s : List Char) : Option (Nat × Nat × Nat × List Char) := do
  let (hour, s) ← getNum false s
  let s ← skip ':' s
  let (minute, s) ← getNum true s
  let s ← skip ':' s
  let (second, s) ← getNum true s
  some (hour, minute, second, skipFraction s)

/-- Fields that are out of range are refused. -/
def DateTime.check (t : DateTime) : Bool :=
  1 ≤ t.month && t.month ≤ 12 && 1 ≤ t.day && t.day ≤ daysIn (isLeap t.year) t.month &&
    t.hour < 24 && t.minute < 60 && t.second < 60

/-- `Parse("2006-01-02", s)`, in UTC. -/
def parseDate (s : String) : Option Int := do
  let (year, month, day, rest) ← getDate s.toList
  let t : DateTime := ⟨year, month, day, 0, 0, 0⟩
  if rest.isEmpty && t.check then some t.seconds else none

/-- `Parse("2006-01-02 15:04:05", s)`, in UTC and to the second. -/
def parse (s : String) : Option Int := do
  let (year, month, day, rest) ← getDate s.toList
  let rest ← skipBlank rest
  let (hour, minute, second, rest) ← getClock rest
  let t : DateTime := ⟨year, month, day, hour, minute, second⟩
  if rest.isEmpty && t.check then some t.seconds else none

/-- `time.Time{}`: the first second of year 1. -/
def zeroTime : Int := -62135596800

theorem digit_spec (n : Nat) :
    (digit n).toNat = 48 + n % 10 ∧ (digit n).isDigit = true ∧ digit n ≠ ' ' := by
  have h : ∀ k < 10, (Char.ofNat (48 + k)).toNat = 48 + k ∧ (Char.ofNat (48 + k)).isDigit = true ∧
      Char.ofNat (48 + k) ≠ ' ' := by decide
  exact h (n % 10) (Nat.mod_lt n (by decide))

@[simp] theorem digit_isDigit (n : Nat) : (digit n).isDigit = true := (digit_spec n).2.1

@[simp] theorem digitValue_digit (n : Nat) : digitValue (digit n) = n % 10 := by
  simp [digitValue, (digit_spec n).1]

theorem getNum_pad2 (h : n < 100) : getNum fixed (pad2 n ++ rest) = some (n, rest) := by
  simp [pad2, getNum]
  omega

theorem getYear_pad4 (h : n < 10000) : getYear (pad4 n ++ rest) = some (n, rest) := by
  simp [pad4, getYear]
  omega

theorem skip_cons (c : Char) (rest : List Char) : skip c (c :: rest) = some rest := by
  simp [skip]

theorem skipBlank_pad2 (n : Nat) (rest : List Char) :
    skipBlank (' ' :: (pad2 n ++ rest)) = some (pad2 n ++ rest) := by
  simp [skipBlank, pad2, (digit_spec (n / 10)).2.2]

theorem DateTime.Valid.check {t : DateTime} (h : t.Valid) : t.check = true := by
  simp [DateTime.check, h.month_pos, h.month_le, h.day_pos, h.day_le, h.hour, h.minute, h.second]

theorem DateTime.Valid.day_lt {t : DateTime} (h : t.Valid) : t.day < 100 := by
  have hmonth : daysIn (isLeap t.year) t.month ≤ 31 := by
    unfold daysIn
    split <;> try split
    all_goals decide
  exact Nat.lt_of_le_of_lt (h.day_le.trans hmonth) (by decide)

theorem getDate_text {t : DateTime} (h : t.Valid) : getDate t.text = some (t.year, t.month, t.day,
    ' ' :: (pad2 t.hour ++ ':' :: (pad2 t.minute ++ ':' :: pad2 t.second))) := by
  have := h.month_le
  simp only [getDate, DateTime.text, getYear_pad4 h.year, skip_cons,
    getNum_pad2 (show t.month < 100 by omega), getNum_pad2 h.day_lt, Option.bind_eq_bind,
    Option.bind_some]

theorem getClock_text {t : DateTime} (h : t.Valid) :
    getClock (pad2 t.hour ++ ':' :: (pad2 t.minute ++ ':' :: pad2 t.second)) =
      some (t.hour, t.minute, t.second, []) := by
  have := h.hour
  have := h.minute
  have := h.second
  have hsecond : getNum true (pad2 t.second ++ []) = some (t.second, []) :=
    getNum_pad2 (by omega)
  rw [List.append_nil] at hsecond
  simp only [getClock, skip_cons, getNum_pad2 (show t.hour < 100 by omega),
    getNum_pad2 (show t.minute < 100 by omega), hsecond, Option.bind_eq_bind, Option.bind_some]
  rfl

/-- What was formatted is read back to the second. -/
theorem parse_format (h : InRange t) : parse (format t) = some t := by
  obtain ⟨hvalid, hseconds⟩ := ofSeconds_spec h
  simp only [parse, format, String.toList_ofList, getDate_text hvalid, skipBlank_pad2,
    getClock_text hvalid, Option.bind_eq_bind, Option.bind_some, List.isEmpty_nil, Bool.true_and]
  rw [if_pos hvalid.check, hseconds]

/-- Texts compared by their characters. -/
def codes (s : List Char) : List Nat := s.map Char.toNat

theorem codes_pad2_lt (hn : n < 100) (hm : m < 100) :
    codes (pad2 n ++ x) < codes (pad2 m ++ y) ↔ n < m ∨ n = m ∧ codes x < codes y := by
  have hcodes : ∀ k z, codes (pad2 k ++ z) = (48 + k / 10 % 10) :: (48 + k % 10) :: codes z := by
    intro k z
    simp [codes, pad2, (digit_spec _).1]
  rw [hcodes, hcodes, List.cons_lt_cons_iff, List.cons_lt_cons_iff]
  by_cases h : codes x < codes y <;> simp only [h, and_true, and_false, or_false] <;> omega

theorem pad4_eq (n : Nat) : pad4 n = pad2 (n / 100) ++ pad2 (n % 100) := by
  have hten : n % 100 / 10 % 10 = n / 10 % 10 := by omega
  have hone : n % 100 % 10 = n % 10 := by omega
  simp [pad4, pad2, digit, hten, hone, Nat.div_div_eq_div_mul]

theorem codes_pad4_lt (hn : n < 10000) (hm : m < 10000) :
    codes (pad4 n ++ x) < codes (pad4 m ++ y) ↔ n < m ∨ n = m ∧ codes x < codes y := by
  rw [pad4_eq, pad4_eq, List.append_assoc, List.append_assoc,
    codes_pad2_lt (by omega) (by omega), codes_pad2_lt (by omega) (by omega)]
  by_cases h : codes x < codes y <;> simp only [h, and_true, and_false, or_false] <;> omega

theorem codes_cons_lt (c : Char) : codes (c :: x) < codes (c :: y) ↔ codes x < codes y := by
  simp [codes]

theorem codes_text_lt {t u : DateTime} (ht : t.Valid) (hu : u.Valid) :
    codes t.text < codes u.text ↔ t.before u := by
  have := ht.month_le
  have := ht.hour
  have := ht.minute
  have := ht.second
  have := hu.month_le
  have := hu.hour
  have := hu.minute
  have := hu.second
  have hsecond : codes (pad2 t.second) < codes (pad2 u.second) ↔ t.second < u.second := by
    have := codes_pad2_lt (x := []) (y := []) (show t.second < 100 by omega)
      (show u.second < 100 by omega)
    simpa [codes] using this
  rw [DateTime.text, DateTime.text, codes_pad4_lt ht.year hu.year, codes_cons_lt,
    codes_pad2_lt (by omega) (by omega), codes_cons_lt, codes_pad2_lt ht.day_lt hu.day_lt,
    codes_cons_lt, codes_pad2_lt (by omega) (by omega), codes_cons_lt,
    codes_pad2_lt (by omega) (by omega), codes_cons_lt, hsecond]
  rfl

/-- Comparing the texts compares the times. -/
theorem codes_format_lt (ht : InRange t) (hu : InRange u) :
    codes (format t).toList < codes (format u).toList ↔ t < u := by
  obtain ⟨htv, hts⟩ := ofSeconds_spec ht
  obtain ⟨huv, hus⟩ := ofSeconds_spec hu
  rw [format, format, String.toList_ofList, String.toList_ofList, codes_text_lt htv huv,
    htv.before_iff huv, hts, hus]

example : format 1700000000 = "2023-11-14 22:13:20" := by decide +kernel

end Sonarr.Lib.Civil

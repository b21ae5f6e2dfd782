/- Instants as ISO 8601 texts: the calendar, the writer and the reader. -/
import Mathlib.Data.List.Basic
import Mathlib.Tactic.Common
import Mathlib.Tactic.Ring

namespace Fleet.Lib.DateTime

/-! ## The calendar -/

def isLeap (year : Nat) : Bool := year % 4 = 0 && (year % 100 ≠ 0 || year % 400 = 0)

def monthLengths (leap : Bool) : List Nat :=
  [31, if leap then 29 else 28, 31, 30, 31, 30, 31, 31, 30, 31, 30, 31]

def daysInMonth (leap : Bool) (month : Nat) : Nat := ((monthLengths leap)[month - 1]?).getD 0

def daysBeforeMonth (leap : Bool) (month : Nat) : Nat := ((monthLengths leap).take (month - 1)).sum

def daysBeforeYear (year : Nat) : Nat :=
  (year - 1) * 365 + (year - 1) / 4 - (year - 1) / 100 + (year - 1) / 400

/-- The number of a day, the first day of year 1 being 1. -/
def ymdToOrd (year month day : Nat) : Nat :=
  daysBeforeYear year + daysBeforeMonth (isLeap year) month + day

def maxOrdinal : Nat := 3652059

/-- The month and the day of a day counted from the start of its year. -/
def monthDay : List Nat → Nat → Nat → Nat × Nat
  | [], month, day => (month, day + 1)
  | length :: rest, month, day =>
      if day < length then (month, day + 1) else monthDay rest (month + 1) (day - length)

/-- By cycles of 400, 100, 4 years and 1 year. -/
def ordToYmd (ord : Nat) : Nat × Nat × Nat :=
  let n := ord - 1
  let n400 := n / 146097
  let n := n % 146097
  let n100 := n / 36524
  let n := n % 36524
  let n4 := n / 1461
  let n := n % 1461
  let n1 := n / 365
  let n := n % 365
  let year := n400 * 400 + n100 * 100 + n4 * 4 + n1 + 1
  if n1 = 4 ∨ n100 = 4 then (year - 1, 12, 31) else (year, monthDay (monthLengths (isLeap year)) 1 n)

theorem monthDay_spec {lengths : List Nat} (month : Nat) {day : Nat} (inside : day < lengths.sum) :
    ∃ k, k < lengths.length ∧ (monthDay lengths month day).1 = month + k ∧
      1 ≤ (monthDay lengths month day).2 ∧
      (monthDay lengths month day).2 ≤ (lengths[k]?).getD 0 ∧
      (lengths.take k).sum + (monthDay lengths month day).2 = day + 1 := by
  induction lengths generalizing month day with
  | nil => cases inside
  | cons length rest ih =>
      rw [List.sum_cons] at inside
      unfold monthDay
      split_ifs with first
      · exact ⟨0, by simp, rfl, by simp, Nat.succ_le_of_lt first, by simp⟩
      · obtain ⟨k, bound, name, low, high, total⟩ := ih (month + 1)
          (show day - length < rest.sum by omega)
        refine ⟨k + 1, by simpa using bound, by omega, low, by simpa using high, ?_⟩
        rw [List.take_succ_cons, List.sum_cons]
        omega

theorem monthLengths_sum (leap : Bool) : (monthLengths leap).sum = if leap then 366 else 365 := by
  cases leap <;> rfl

theorem monthDay_ord {leap : Bool} {n : Nat} (inside : n < if leap then 366 else 365) :
    let month := (monthDay (monthLengths leap) 1 n).1
    let day := (monthDay (monthLengths leap) 1 n).2
    1 ≤ month ∧ month ≤ 12 ∧ 1 ≤ day ∧ day ≤ daysInMonth leap month ∧
      daysBeforeMonth leap month + day = n + 1 := by
  rw [← monthLengths_sum] at inside
  obtain ⟨k, bound, name, low, high, total⟩ := monthDay_spec 1 inside
  have size : (monthLengths leap).length = 12 := rfl
  dsimp only
  rw [name, daysInMonth, daysBeforeMonth, show 1 + k - 1 = k by omega]
  exact ⟨by omega, by omega, low, high, total⟩

theorem daysBeforeYear_cycles {q a b c : Nat} (hundreds : a < 4) (fours : b < 25) (ones : c < 4) :
    daysBeforeYear (q * 400 + a * 100 + b * 4 + c + 1) =
      q * 146097 + a * 36524 + b * 1461 + c * 365 := by
  have by4 : (q * 400 + a * 100 + b * 4 + c) / 4 = q * 100 + a * 25 + b := by omega
  have by100 : (q * 400 + a * 100 + b * 4 + c) / 100 = q * 4 + a := by omega
  have by400 : (q * 400 + a * 100 + b * 4 + c) / 400 = q := by omega
  rw [daysBeforeYear, Nat.add_sub_cancel, by4, by100, by400]
  omega

theorem isLeap_cycles {q a b c : Nat} (hundreds : a < 4) (fours : b < 25) (ones : c < 4) :
    isLeap (q * 400 + a * 100 + b * 4 + c + 1) = decide (c = 3 ∧ (b = 24 → a = 3)) := by
  have by4 : (q * 400 + a * 100 + b * 4 + c + 1) % 4 = 0 ↔ c = 3 := by omega
  have by100 : (q * 400 + a * 100 + b * 4 + c + 1) % 100 = 0 ↔ b = 24 ∧ c = 3 := by omega
  have by400 : (q * 400 + a * 100 + b * 4 + c + 1) % 400 = 0 ↔ a = 3 ∧ b = 24 ∧ c = 3 := by omega
  unfold isLeap
  simp only [by4, by100, by400, Bool.decide_and, ne_eq, decide_not]
  by_cases one : c = 3 <;> by_cases four : b = 24 <;> by_cases hundred : a = 3 <;>
    simp [one, four, hundred]

structure Valid (year month day : Nat) : Prop where
  first : 1 ≤ year
  named : 1 ≤ month ∧ month ≤ 12
  within : 1 ≤ day ∧ day ≤ daysInMonth (isLeap year) month

theorem valid_lastDay {year : Nat} (first : 1 ≤ year) : Valid year 12 31 := by
  refine ⟨first, by decide, by decide, ?_⟩
  cases isLeap year <;> decide

theorem ymdToOrd_lastDay {year : Nat} (leap : isLeap year = true) :
    ymdToOrd year 12 31 = daysBeforeYear year + 366 := by
  have months : daysBeforeMonth true 12 = 335 := rfl
  rw [ymdToOrd, leap, months]

theorem ordToYmd_spec {ord : Nat} (first : 1 ≤ ord) :
    Valid (ordToYmd ord).1 (ordToYmd ord).2.1 (ordToYmd ord).2.2 ∧
      ymdToOrd (ordToYmd ord).1 (ordToYmd ord).2.1 (ordToYmd ord).2.2 = ord := by
  unfold ordToYmd
  dsimp only
  have h400 := Nat.div_add_mod (ord - 1) 146097
  have l400 := Nat.mod_lt (ord - 1) (show 146097 > 0 by decide)
  generalize (ord - 1) / 146097 = q at h400 ⊢
  generalize (ord - 1) % 146097 = r at h400 l400 ⊢
  have h100 := Nat.div_add_mod r 36524
  have l100 := Nat.mod_lt r (show 36524 > 0 by decide)
  generalize r / 36524 = a at h100 ⊢
  generalize r % 36524 = s at h100 l100 ⊢
  have h4 := Nat.div_add_mod s 1461
  have l4 := Nat.mod_lt s (show 1461 > 0 by decide)
  generalize s / 1461 = b at h4 ⊢
  generalize s % 1461 = t at h4 l4 ⊢
  have h1 := Nat.div_add_mod t 365
  have l1 := Nat.mod_lt t (show 365 > 0 by decide)
  generalize t / 365 = c at h1 ⊢
  generalize t % 365 = u at h1 l1 ⊢
  split_ifs with last
  · -- the last day of a leap year ends its cycle
    by_cases hundred : a = 4
    · obtain rfl : b = 0 := by omega
      obtain rfl : c = 0 := by omega
      have name : q * 400 + a * 100 + 0 * 4 + 0 + 1 - 1 = q * 400 + 3 * 100 + 24 * 4 + 3 + 1 := by omega
      have three : 3 < 4 := by decide
      have leap := isLeap_cycles (q := q) three (show 24 < 25 by decide) three
      have before := daysBeforeYear_cycles (q := q) three (show 24 < 25 by decide) three
      rw [name]
      refine ⟨valid_lastDay (by omega), ?_⟩
      rw [ymdToOrd_lastDay (leap.trans (by decide)), before]
      omega
    · obtain rfl : c = 4 := by omega
      have early : b < 24 := by omega
      have name : q * 400 + a * 100 + b * 4 + 4 + 1 - 1 = q * 400 + a * 100 + b * 4 + 3 + 1 := by omega
      have leap := isLeap_cycles (q := q) (a := a) (b := b) (show a < 4 by omega) (by omega) (show 3 < 4 by decide)
      rw [name]
      refine ⟨valid_lastDay (by omega), ?_⟩
      rw [ymdToOrd_lastDay (leap.trans (by simp; omega)),
        daysBeforeYear_cycles (by omega) (by omega) (by decide)]
      omega
  · have inside : u < if isLeap (q * 400 + a * 100 + b * 4 + c + 1) then 366 else 365 := by
      split_ifs <;> omega
    obtain ⟨low, high, day, within, total⟩ := monthDay_ord inside
    refine ⟨⟨by omega, ⟨low, high⟩, day, within⟩, ?_⟩
    rw [ymdToOrd, Nat.add_assoc, total, daysBeforeYear_cycles (by omega) (by omega) (by omega)]
    omega

theorem year_le {year month day : Nat} (named : Valid year month day)
    (last : ymdToOrd year month day ≤ maxOrdinal) : year ≤ 9999 := by
  have low := named.within.1
  unfold ymdToOrd daysBeforeYear maxOrdinal at last
  by_contra late
  by_cases next : year = 10000
  · subst next
    simp at last
    omega
  · omega

/-! ## Digits -/

/-- The last `width` decimal digits. -/
def pad : Nat → Nat → List Char
  | 0, _ => []
  | width + 1, n => (n / 10 ^ width % 10).digitChar :: pad width n

/-- `width` ASCII digits read after those read so far. -/
def readDigits : Nat → Nat → List Char → Option (Nat × List Char)
  | 0, acc, rest => some (acc, rest)
  | _ + 1, _, [] => none
  | width + 1, acc, c :: rest =>
      if c.isDigit then readDigits width (acc * 10 + (c.toNat - 48)) rest else none

theorem digitChar_digit {n : Nat} (small : n < 10) :
    n.digitChar.isDigit = true ∧ n.digitChar.toNat - 48 = n := by
  have all : ∀ n : Fin 10, (Nat.digitChar n).isDigit = true ∧ (Nat.digitChar n).toNat - 48 = n := by
    decide
  exact all ⟨n, small⟩

theorem readDigits_pad (width acc n : Nat) (rest : List Char) :
    readDigits width acc (pad width n ++ rest) = some (acc * 10 ^ width + n % 10 ^ width, rest) := by
  induction width generalizing acc with
  | zero => simp [pad, readDigits, Nat.mod_one]
  | succ width ih =>
      have small : n / 10 ^ width % 10 < 10 := Nat.mod_lt _ (by decide)
      obtain ⟨digit, value⟩ := digitChar_digit small
      rw [pad, List.cons_append, readDigits, if_pos digit, value, ih, Nat.mod_pow_succ, Nat.pow_succ]
      congr 2
      ring

/-! ## Writing -/

def daysToEpoch : Int := 719162

def dayLength : Int := 86400000000

/-- The instants a `datetime` in UTC can stand for: those of the years 1 to 9999. -/
def Representable (t : Int) : Prop :=
  -daysToEpoch * dayLength ≤ t ∧ t < (maxOrdinal - daysToEpoch) * dayLength

instance (t : Int) : Decidable (Representable t) := instDecidableAnd

/-- The day of an instant, counted like `ymdToOrd`. -/
def ordinal (t : Int) : Nat := (t / dayLength + daysToEpoch + 1).toNat

def timeOfDay (t : Int) : Nat := (t % dayLength).toNat

def clockText (micros : Nat) : List Char :=
  let second := micros / 1000000
  pad 2 (second / 3600) ++ ':' :: pad 2 (second / 60 % 60) ++ ':' :: pad 2 (second % 60)
    ++ if micros % 1000000 = 0 then [] else '.' :: pad 6 (micros % 1000000)

/-- `datetime.isoformat()` of an aware datetime in UTC, from microseconds since the
epoch. -/
def isoformat (t : Int) : String :=
  let (year, month, day) := ordToYmd (ordinal t)
  String.ofList (pad 4 year ++ '-' :: pad 2 month ++ '-' :: pad 2 day ++ 'T' ::
    (clockText (timeOfDay t) ++ ['+', '0', '0', ':', '0', '0']))

example : isoformat 1772841600000001 = "2026-03-07T00:00:00.000001+00:00" := by decide

/-! ## Reading -/

/-- A datetime as `fromisoformat` builds it: the wall clock in microseconds since
1970-01-01, and the offset of its time zone if it has one. -/
structure Stamp where
  wall : Int
  offset : Option Int
  deriving DecidableEq

/-- `replace(tzinfo=UTC)` where there is no time zone, then the instant. -/
def Stamp.instantUtc (d : Stamp) : Int := d.wall - d.offset.getD 0

def expect (c : Char) : List Char → Option (List Char)
  | [] => none
  | d :: rest => if c = d then some rest else none

/-- `_find_isoformat_datetime_separator`: the formats of a date differ at the fifth
and the sixth character, and those of a week date in what follows the week. -/
def separatorAt (text : List Char) : Option Nat :=
  if text.length < 7 then none
  else if text.length = 7 then some 7
  else if text[4]? = some '-' then
    if text[5]? = some 'W' then
      if text[8]? = some '-' then
        if text.length = 9 then none
        else if text[10]?.any Char.isDigit then some 8
        else some 10
      else some 8
    else some 10
  else if text[4]? = some 'W' then
    let stop := 7 + ((text.drop 7).takeWhile Char.isDigit).length
    if stop < 9 then some stop
    else if stop % 2 = 0 then some 7
    else some 8
  else some 8

def dateToOrd (year month day : Nat) : Option Nat :=
  if 1 ≤ year ∧ year ≤ 9999 ∧ 1 ≤ month ∧ month ≤ 12 ∧ 1 ≤ day ∧
      day ≤ daysInMonth (isLeap year) month then
    some (ymdToOrd year month day)
  else none

/-- A day of an ISO week; only some years have a week 53. -/
def weekToOrd (year week day : Nat) : Option Nat :=
  let newYear := ymdToOrd year 1 1
  let weekday := (newYear + 6) % 7
  let monday := if 3 < weekday then newYear + 7 - weekday else newYear - weekday
  let long := weekday = 3 ∨ (weekday = 2 ∧ isLeap year)
  let ord := monday + (week - 1) * 7 + (day - 1)
  if 1 ≤ year ∧ year ≤ 9999 ∧ 1 ≤ week ∧ (week ≤ 52 ∨ (week = 53 ∧ long)) ∧ 1 ≤ day ∧ day ≤ 7 ∧
      ord ≤ maxOrdinal then
    some ord
  else none

/-- `YYYY-MM-DD`, `YYYY-Www` or `YYYY-Www-D`, each with its dashes or with none. -/
def readDate (text : List Char) : Option Nat := do
  let (year, rest) ← readDigits 4 0 text
  let dashed := rest.head? = some '-'
  let dash (rest : List Char) := if dashed then expect '-' rest else some rest
  let rest ← dash rest
  if rest.head? = some 'W' then
    let (week, rest) ← readDigits 2 0 rest.tail
    if rest = [] then weekToOrd year week 1
    else
      let (day, _) ← readDigits 1 0 (← dash rest)
      weekToOrd year week day
  else
    let (month, rest) ← readDigits 2 0 rest
    let (day, _) ← readDigits 2 0 (← dash rest)
    dateToOrd year month day

/-- The decimals of a second, cut or filled up to six. -/
def readFraction (text : List Char) : Option Nat :=
  if text ≠ [] ∧ text.all Char.isDigit then
    (readDigits 6 0 (text ++ ['0', '0', '0', '0', '0', '0'])).map Prod.fst
  else none

/-- `HH[:MM[:SS[.f]]]`, with its colons or with none, as four numbers. -/
def readClock (text : List Char) : Option (Nat × Nat × Nat × Nat) := do
  let (hour, rest) ← readDigits 2 0 text
  if rest = [] then return (hour, 0, 0, 0)
  let colons := rest.head? = some ':'
  let colon (rest : List Char) := if colons then expect ':' rest else some rest
  let (minute, rest) ← readDigits 2 0 (← colon rest)
  if rest = [] then return (hour, minute, 0, 0)
  let (second, rest) ← readDigits 2 0 (← colon rest)
  match rest with
  | [] => return (hour, minute, second, 0)
  | mark :: fraction =>
      if mark = '.' ∨ mark = ',' then
        let micro ← readFraction fraction
        return (hour, minute, second, micro)
      else none

def inMicros (hour minute second micro : Nat) : Nat :=
  ((hour * 60 + minute) * 60 + second) * 1000000 + micro

def isZoneMark (c : Char) : Bool := c = '+' || c = '-' || c = 'Z'

/-- `Z`, or a signed offset of less than a day; nothing for a naive time. -/
def readZone : List Char → Option (Option Int)
  | [] => some none
  | mark :: rest =>
      if mark = 'Z' then if rest = [] then some (some 0) else none
      else do
        let (hour, minute, second, micro) ← readClock rest
        let offset := inMicros hour minute second micro
        if (offset : Int) < dayLength then
          some (some (if mark = '-' then -offset else offset))
        else none

def readTime (text : List Char) : Option (Nat × Option Int) := do
  let (hour, minute, second, micro) ← readClock (text.takeWhile (fun c => !isZoneMark c))
  let offset ← readZone (text.dropWhile (fun c => !isZoneMark c))
  if hour ≤ 23 ∧ minute ≤ 59 ∧ second ≤ 59 then some (inMicros hour minute second micro, offset)
  else none

/-- `datetime.fromisoformat`; `none` stands for the `ValueError`. Any one character
separates the date from the time. -/
def fromisoformat (text : String) : Option Stamp := do
  let chars := text.toList
  let separator ← separatorAt chars
  let ord ← readDate (chars.take separator)
  let (micros, offset) ←
    if chars.drop separator = [] then some (0, none) else readTime (chars.drop (separator + 1))
  return ⟨((ord : Int) - daysToEpoch - 1) * dayLength + micros, offset⟩

example : (fromisoformat "2020-W01-3T00:00Z").map Stamp.instantUtc = some 1577836800000000 := by
  decide

/-! ## Reading what was written -/

theorem readDigits_pad_small (width : Nat) {n : Nat} (small : n < 10 ^ width) (rest : List Char) :
    readDigits width 0 (pad width n ++ rest) = some (n, rest) := by
  rw [readDigits_pad, Nat.mod_eq_of_lt small, Nat.zero_mul, Nat.zero_add]

theorem pad_length (width n : Nat) : (pad width n).length = width := by
  induction width with
  | zero => rfl
  | succ width ih => rw [pad, List.length_cons, ih]

theorem pad_digits {width n : Nat} {c : Char} (member : c ∈ pad width n) : c.isDigit = true := by
  induction width with
  | zero => cases member
  | succ width ih =>
      rcases List.mem_cons.mp member with rfl | later
      · exact (digitChar_digit (Nat.mod_lt _ (by decide))).1
      · exact ih later

theorem pad_head (width : Nat) {n : Nat} (rest : List Char) {mark : Char} (other : mark.isDigit = false) :
    (pad (width + 1) n ++ rest).head? ≠ some mark := by
  intro same
  have digit := (digitChar_digit (Nat.mod_lt (n / 10 ^ width) (show 10 > 0 by decide))).1
  rw [pad, List.cons_append, List.head?_cons, Option.some.injEq] at same
  rw [same, other] at digit
  cases digit

theorem readDate_written {year month day : Nat} (named : Valid year month day) (last : year ≤ 9999) :
    readDate (pad 4 year ++ '-' :: (pad 2 month ++ '-' :: pad 2 day)) =
      some (ymdToOrd year month day) := by
  have months := named.named
  have days := named.within
  have short : day ≤ 31 := by
    have all : ∀ leap, ∀ m : Fin 13, daysInMonth leap m ≤ 31 := by decide
    exact days.2.trans (all _ ⟨month, by omega⟩)
  have y := readDigits_pad_small 4 (n := year) (by omega)
  have m := readDigits_pad_small 2 (n := month) (by omega)
  have d := readDigits_pad_small 2 (n := day) (by omega) []
  have plain := pad_head 1 (n := month) ('-' :: pad 2 day) (show Char.isDigit 'W' = false by decide)
  have date : dateToOrd year month day = some (ymdToOrd year month day) :=
    if_pos ⟨named.first, last, months.1, months.2, days⟩
  rw [List.append_nil] at d
  simp only [readDate, y, Option.bind_eq_bind, Option.bind_some, List.head?_cons, expect, if_true,
    plain, if_false, m, d, date]

theorem clock_bounds (t : Int) : timeOfDay t < 86400000000 := by
  have low := Int.emod_nonneg t (show dayLength ≠ 0 by decide)
  have high := Int.emod_lt_of_pos t (show 0 < dayLength by decide)
  unfold timeOfDay
  have : dayLength = 86400000000 := rfl
  omega

theorem readClock_written {micros : Nat} (inside : micros < 86400000000) :
    readClock (clockText micros) = some (micros / 1000000 / 3600, micros / 1000000 / 60 % 60,
      micros / 1000000 % 60, micros % 1000000) := by
  have h := readDigits_pad_small 2 (n := micros / 1000000 / 3600) (by omega)
  have m := readDigits_pad_small 2 (n := micros / 1000000 / 60 % 60) (by omega)
  have s := readDigits_pad_small 2 (n := micros / 1000000 % 60) (by omega)
  have f := readDigits_pad_small 6 (n := micros % 1000000) (by omega)
  unfold clockText
  by_cases whole : micros % 1000000 = 0
  · have last := s []
    rw [List.append_nil] at last
    simp only [whole, if_true, List.append_assoc, List.cons_append, List.append_nil]
    simp [readClock, h, m, last, expect]
  · have digits : (pad 6 (micros % 1000000)).all Char.isDigit = true :=
      List.all_eq_true.mpr fun c member => pad_digits member
    have fraction : readFraction (pad 6 (micros % 1000000)) = some (micros % 1000000) := by
      rw [readFraction, if_pos ⟨by simp [pad], digits⟩, f]
      rfl
    simp only [whole, if_false, List.append_assoc, List.cons_append]
    simp [readClock, h, m, s, expect, fraction]

theorem clockText_plain {micros : Nat} {c : Char} (member : c ∈ clockText micros) :
    (!isZoneMark c) = true := by
  have digit : ∀ d : Char, d.isDigit = true → (!isZoneMark d) = true := by
    intro d shown
    have other : d ≠ '+' ∧ d ≠ '-' ∧ d ≠ 'Z' := by
      refine ⟨?_, ?_, ?_⟩ <;> (rintro rfl; revert shown; decide)
    simp [isZoneMark, other]
  unfold clockText at member
  simp only [List.mem_append, List.mem_cons] at member
  rcases member with ((first | rfl | second) | rfl | third) | rest
  · exact digit c (pad_digits first)
  · decide
  · exact digit c (pad_digits second)
  · decide
  · exact digit c (pad_digits third)
  · split_ifs at rest
    · cases rest
    · rcases List.mem_cons.mp rest with rfl | rest
      · decide
      · exact digit c (pad_digits rest)

theorem readTime_written {micros : Nat} (inside : micros < 86400000000) {mark : Char}
    (sign : isZoneMark mark = true) {zone : List Char} {offset : Option Int}
    (read : readZone (mark :: zone) = some offset) :
    readTime (clockText micros ++ mark :: zone) = some (micros, offset) := by
  have plain : ∀ c ∈ clockText micros, (!isZoneMark c) = true := fun c member => clockText_plain member
  have before : ((mark :: zone).takeWhile fun c => !isZoneMark c) = [] := by simp [sign]
  have after : ((mark :: zone).dropWhile fun c => !isZoneMark c) = mark :: zone := by simp [sign]
  rw [readTime, List.takeWhile_append_of_pos plain, List.dropWhile_append_of_pos plain, before, after,
    List.append_nil, readClock_written inside, read]
  have whole : inMicros (micros / 1000000 / 3600) (micros / 1000000 / 60 % 60)
      (micros / 1000000 % 60) (micros % 1000000) = micros := by
    unfold inMicros
    omega
  simp only [Option.bind_eq_bind, Option.bind_some, whole]
  rw [if_pos (by omega)]

theorem ordinal_bounds {t : Int} (inside : Representable t) : 1 ≤ ordinal t ∧ ordinal t ≤ maxOrdinal := by
  unfold Representable daysToEpoch dayLength maxOrdinal at inside
  unfold ordinal daysToEpoch dayLength maxOrdinal
  omega

theorem instant_split (t : Int) (inside : Representable t) :
    ((ordinal t : Int) - daysToEpoch - 1) * dayLength + timeOfDay t = t := by
  unfold Representable daysToEpoch dayLength maxOrdinal at inside
  unfold ordinal timeOfDay daysToEpoch dayLength
  omega

def dateText (year month day : Nat) : List Char :=
  pad 4 year ++ '-' :: (pad 2 month ++ '-' :: pad 2 day)

theorem dateText_length (year month day : Nat) : (dateText year month day).length = 10 := by
  simp [dateText, pad_length]

theorem separatorAt_written (year month day : Nat) (rest : List Char) :
    separatorAt (dateText year month day ++ 'T' :: rest) = some 10 := by
  have digit : (month / 10 ^ 1 % 10).digitChar ≠ 'W' := by simp
  have long : ¬ (dateText year month day ++ 'T' :: rest).length < 7 ∧
      (dateText year month day ++ 'T' :: rest).length ≠ 7 := by
    rw [List.length_append, dateText_length, List.length_cons]
    omega
  have fifth : (dateText year month day ++ 'T' :: rest)[4]? = some '-' := rfl
  have sixth : (dateText year month day ++ 'T' :: rest)[5]? = some (month / 10 ^ 1 % 10).digitChar := rfl
  rw [separatorAt, if_neg long.1, if_neg long.2, if_pos fifth, sixth,
    if_neg (fun same => digit (Option.some.inj same))]

theorem fromisoformat_written {t : Int} (inside : Representable t) {mark : Char}
    (sign : isZoneMark mark = true) {zone : List Char} {offset : Option Int}
    (read : readZone (mark :: zone) = some offset) {text : String}
    (shape : text.toList = dateText (ordToYmd (ordinal t)).1 (ordToYmd (ordinal t)).2.1
      (ordToYmd (ordinal t)).2.2 ++ 'T' :: (clockText (timeOfDay t) ++ mark :: zone)) :
    fromisoformat text = some ⟨t, offset⟩ := by
  obtain ⟨low, high⟩ := ordinal_bounds inside
  obtain ⟨named, same⟩ := ordToYmd_spec low
  have last := year_le named (by rw [same]; exact high)
  have date := readDate_written named last
  have time := readTime_written (clock_bounds t) sign read
  have size := dateText_length (ordToYmd (ordinal t)).1 (ordToYmd (ordinal t)).2.1 (ordToYmd (ordinal t)).2.2
  have separator := separatorAt_written (ordToYmd (ordinal t)).1 (ordToYmd (ordinal t)).2.1
    (ordToYmd (ordinal t)).2.2 (clockText (timeOfDay t) ++ mark :: zone)
  rw [← dateText] at date
  generalize dateText (ordToYmd (ordinal t)).1 (ordToYmd (ordinal t)).2.1
    (ordToYmd (ordinal t)).2.2 = front at *
  simp only [fromisoformat, shape, separator, Option.bind_eq_bind, Option.bind_some,
    List.take_left' size, List.drop_left' size, date, same]
  rw [← size, ← List.drop_drop, List.drop_left' rfl]
  simp only [List.drop_one, List.tail_cons, reduceCtorEq, if_false, time, Option.bind_some]
  rw [instant_split t inside]
  rfl

/-- The reader gives back the instant that was written, as an aware datetime in UTC. -/
theorem fromisoformat_isoformat {t : Int} (inside : Representable t) :
    fromisoformat (isoformat t) = some ⟨t, some 0⟩ := by
  have zone : readZone ['+', '0', '0', ':', '0', '0'] = some (some 0) := by decide
  exact fromisoformat_written inside (by decide) zone (by simp [isoformat, dateText])

/-! ## Any time zone -/

/-- The offset of a zone without its sign: the seconds only where there are any. -/
def offsetText (micros : Nat) : List Char :=
  if micros % 60000000 = 0 then
    pad 2 (micros / 3600000000) ++ ':' :: pad 2 (micros / 60000000 % 60)
  else clockText micros

/-- `datetime.isoformat()`, of a naive datetime without a zone. -/
def Stamp.isoformat (d : Stamp) : String :=
  let (year, month, day) := ordToYmd (ordinal d.wall)
  let zone : List Char := match d.offset with
    | none => []
    | some offset => (if offset < 0 then '-' else '+') :: offsetText offset.natAbs
  String.ofList (dateText year month day ++ 'T' :: (clockText (timeOfDay d.wall) ++ zone))

/-- A time-zone-aware datetime: a wall clock of the calendar, and an offset of less than
a day either way. -/
structure Stamp.Aware (d : Stamp) : Prop where
  inside : Representable d.wall
  zoned : ∃ offset, d.offset = some offset ∧ (offset.natAbs : Int) < dayLength

theorem isoformat_utc (t : Int) : (Stamp.mk t (some 0)).isoformat = DateTime.isoformat t := by
  have utc : offsetText 0 = ['0', '0', ':', '0', '0'] := rfl
  simp [Stamp.isoformat, DateTime.isoformat, dateText, utc]

theorem readClock_offset {micros : Nat} (inside : micros < 86400000000) : ∃ hour minute second micro,
    readClock (offsetText micros) = some (hour, minute, second, micro) ∧
      inMicros hour minute second micro = micros := by
  unfold offsetText
  split_ifs with whole
  · have h := readDigits_pad_small 2 (n := micros / 3600000000) (by omega)
    have m := readDigits_pad_small 2 (n := micros / 60000000 % 60) (by omega) []
    rw [List.append_nil] at m
    refine ⟨micros / 3600000000, micros / 60000000 % 60, 0, 0, ?_, ?_⟩
    · simp [readClock, h, m, expect]
    · unfold inMicros
      omega
  · refine ⟨_, _, _, _, readClock_written inside, ?_⟩
    unfold inMicros
    omega

theorem readZone_signed {mark : Char} (signed : mark ≠ 'Z') (text : List Char) :
    readZone (mark :: text) = (readClock text).bind fun p =>
      if (inMicros p.1 p.2.1 p.2.2.1 p.2.2.2 : Int) < dayLength then
        some (some (if mark = '-' then -(inMicros p.1 p.2.1 p.2.2.1 p.2.2.2 : Int)
          else inMicros p.1 p.2.1 p.2.2.1 p.2.2.2))
      else none := by
  rw [readZone, if_neg signed]
  rfl

theorem readZone_offset {offset : Int} (inside : (offset.natAbs : Int) < dayLength) :
    readZone ((if offset < 0 then '-' else '+') :: offsetText offset.natAbs) = some (some offset) := by
  have small : offset.natAbs < 86400000000 := by
    unfold dayLength at inside
    omega
  obtain ⟨hour, minute, second, micro, read, total⟩ := readClock_offset small
  have less : (inMicros hour minute second micro : Int) < dayLength := by rw [total]; exact inside
  split_ifs with negative
  · rw [readZone_signed (by decide), read, Option.bind_some, if_pos less, if_pos rfl, total]
    congr 2
    omega
  · rw [readZone_signed (by decide), read, Option.bind_some, if_pos less, if_neg (by decide), total]
    congr 2
    omega

/-- Every aware datetime is read back as it was written, with its zone. -/
theorem fromisoformat_stamp {d : Stamp} (aware : d.Aware) : fromisoformat d.isoformat = some d := by
  obtain ⟨offset, zoned, less⟩ := aware.zoned
  obtain ⟨wall, _⟩ := d
  cases zoned
  have sign : isZoneMark (if offset < 0 then '-' else '+') = true := by
    split_ifs <;> decide
  exact fromisoformat_written aware.inside sign (readZone_offset less) (by simp [Stamp.isoformat])

theorem isoformat_chars {t : Int} {c : Char} (member : c ∈ (isoformat t).toList) :
    c.isDigit = true ∨ c ∈ ['-', 'T', ':', '.', '+'] := by
  have clock : ∀ micros, c ∈ clockText micros → c.isDigit = true ∨ c ∈ ['-', 'T', ':', '.', '+'] := by
    intro micros inside
    unfold clockText at inside
    simp only [List.mem_append, List.mem_cons] at inside
    rcases inside with ((first | rfl | second) | rfl | third) | rest
    · exact .inl (pad_digits first)
    · exact .inr (by decide)
    · exact .inl (pad_digits second)
    · exact .inr (by decide)
    · exact .inl (pad_digits third)
    · split_ifs at rest
      · cases rest
      · rcases List.mem_cons.mp rest with rfl | rest
        · exact .inr (by decide)
        · exact .inl (pad_digits rest)
  simp only [isoformat, String.toList_ofList, List.mem_append, List.mem_cons, List.not_mem_nil,
    or_false] at member
  rcases member with ((year | rfl | month) | rfl | day) | rfl | time | rest
  · exact .inl (pad_digits year)
  · exact .inr (by decide)
  · exact .inl (pad_digits month)
  · exact .inr (by decide)
  · exact .inl (pad_digits day)
  · exact .inr (by decide)
  · exact clock _ time
  · rcases rest with rfl | rfl | rfl | rfl | rfl | rfl <;> decide

end Fleet.Lib.DateTime

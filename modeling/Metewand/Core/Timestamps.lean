import Metewand.Lib.Numerals
import Metewand.Core.Observation

/-!
# Timestamps of the run documents

`timestamp` of `core/run_documents.rs`: the UTC date of an instant, found by two loops that take
whole years and then whole months off the days since 1970.  `Fields.instant` goes the other way by
the closed day count of the proleptic Gregorian calendar, and `timestamp_exact` holds the loops to
it.
-/

namespace Metewand

open Lib (padded numeral numeral_append_lt padded_eq_numeral)

/-- The time since the Unix epoch of an instant, given in nanoseconds from it; none for an instant
before it. -/
def durationSinceEpoch (time : Int) : Option Duration :=
  if 0 ≤ time then
    some ⟨time.toNat / 1000000000, time.toNat % 1000000000, Nat.mod_lt _ (by omega)⟩
  else none

inductive TimestampFailure where
  /-- Outside the supported years. -/
  | timestamp
  /-- An index past the end of the month table, which stops the program. -/
  | outOfBounds
  deriving DecidableEq, Repr

def leapYear (year : Nat) : Bool := year % 4 = 0 && (year % 100 ≠ 0 || year % 400 = 0)

def yearLength (year : Nat) : Nat := if leapYear year then 366 else 365

/-- The year loop: the days left over and the year they fall in. -/
def spendYears (days year : Nat) : Nat × Nat :=
  if year ≤ 9999 then
    if days < yearLength year then (days, year)
    else spendYears (days - yearLength year) (year + 1)
  else (days, year)
termination_by 10000 - year

def months (year : Nat) : List Nat :=
  [31, if leapYear year then 29 else 28, 31, 30, 31, 30, 31, 31, 30, 31, 30, 31]

/-- The month loop over the rest of the table: the days left over and the month they fall in. -/
def spendMonths : List Nat → Nat → Nat → Option (Nat × Nat)
  | [], _, _ => none
  | length :: rest, days, month =>
      if length ≤ days then spendMonths rest (days - length) (month + 1) else some (days, month)

def timestamp (time : Int) : Except TimestampFailure String :=
  match durationSinceEpoch time with
  | none => .error .timestamp
  | some elapsed =>
      let (days, year) := spendYears (elapsed.secs / 86400) 1970
      if year > 9999 then .error .timestamp
      else
        match spendMonths (months year) days 0 with
        | none => .error .outOfBounds
        | some (days, month) =>
            let seconds := elapsed.secs % 86400
            .ok (String.ofList
              (padded 4 year ++ '-' :: padded 2 (month + 1) ++ '-' :: padded 2 (days + 1) ++
                'T' :: padded 2 (seconds / 3600) ++ ':' :: padded 2 (seconds / 60 % 60) ++
                ':' :: padded 2 (seconds % 60) ++ '.' :: padded 9 elapsed.nanos ++ ['Z']))

/-! ## The Gregorian calendar -/

/-- A date and a time of day. -/
structure Fields where
  year : Nat
  month : Nat
  day : Nat
  hour : Nat
  minute : Nat
  second : Nat
  nanosecond : Nat

namespace Fields

/-- Leap days before the first of March of a common year are two fewer than the formula counts,
and one fewer in a leap year. -/
def correction (year month : Nat) : Int :=
  if month ≤ 2 then 0
  else if (year % 4 = 0 ∧ year % 100 ≠ 0) ∨ year % 400 = 0 then -1
  else -2

/-- The day of a date, counted from the first of January of the year 1 as day 1. -/
def dayNumber (year month day : Nat) : Int :=
  365 * ((year : Int) - 1) + ((year : Int) - 1) / 4 - ((year : Int) - 1) / 100 +
    ((year : Int) - 1) / 400 + (367 * (month : Int) - 362) / 12 + correction year month + day

/-- The instant of a date and time of day, in nanoseconds from the Unix epoch. -/
def instant (fields : Fields) : Int :=
  let days := dayNumber fields.year fields.month fields.day - dayNumber 1970 1 1
  (((days * 24 + fields.hour) * 60 + fields.minute) * 60 + fields.second) * 1000000000 + fields.nanosecond

example : instant ⟨2000, 2, 29, 0, 0, 0, 12300⟩ = 951782400000012300 := by decide

/-- A date of the calendar, with a time of day. -/
structure Valid (fields : Fields) : Prop where
  year : fields.year < 10000
  month : 1 ≤ fields.month ∧ fields.month ≤ 12
  /-- The next month starts after the day. -/
  day : 1 ≤ fields.day ∧ dayNumber fields.year fields.month fields.day <
    if fields.month = 12 then dayNumber (fields.year + 1) 1 1
    else dayNumber fields.year (fields.month + 1) 1
  hour : fields.hour < 24
  minute : fields.minute < 60
  second : fields.second < 60
  nanosecond : fields.nanosecond < 1000000000

/-- The text that reads the fields, each in its own width. -/
def text (fields : Fields) : String :=
  String.ofList
    (numeral 4 fields.year ++ '-' :: numeral 2 fields.month ++ '-' :: numeral 2 fields.day ++
      'T' :: numeral 2 fields.hour ++ ':' :: numeral 2 fields.minute ++
      ':' :: numeral 2 fields.second ++ '.' :: numeral 9 fields.nanosecond ++ ['Z'])

end Fields

/-! ## The two loops -/

theorem leapYear_iff (year : Nat) :
    leapYear year = true ↔ (year % 4 = 0 ∧ year % 100 ≠ 0) ∨ year % 400 = 0 := by
  simp only [leapYear, Bool.and_eq_true, Bool.or_eq_true, decide_eq_true_eq]
  omega

theorem correction_eq (year month : Nat) : Fields.correction year month =
    if month ≤ 2 then 0 else if leapYear year then -1 else -2 := by
  simp only [Fields.correction, leapYear_iff]

theorem dayNumber_newYear (year : Nat) :
    Fields.dayNumber (year + 1) 1 1 = Fields.dayNumber year 1 1 + yearLength year := by
  have leap := leapYear_iff year
  have first : ∀ year, Fields.correction year 1 = 0 := fun _ => rfl
  rw [Fields.dayNumber, Fields.dayNumber, first, first, yearLength]
  cases is : leapYear year with
  | true =>
      have := leap.mp is
      simp only [if_true]
      omega
  | false =>
      have : leapYear year ≠ true := by simp [is]
      have := mt leap.mpr this
      simp only [Bool.false_eq_true, if_false]
      omega

/-- The year loop takes off whole years, and stops in the year that the days left over fall in. -/
theorem spendYears_spec (days year : Nat) : ∀ {rest last : Nat}, spendYears days year = (rest, last) →
    year ≤ last ∧ (year ≤ 10000 → last ≤ 10000) ∧ (last ≤ 9999 → rest < yearLength last) ∧
      Fields.dayNumber year 1 1 + days = Fields.dayNumber last 1 1 + rest := by
  induction days, year using spendYears.induct with
  | case1 days year supported inside =>
      intro rest last spent
      rw [spendYears, if_pos supported, if_pos inside] at spent
      cases spent
      exact ⟨by omega, id, fun _ => inside, rfl⟩
  | case2 days year supported inside ih =>
      intro rest last spent
      rw [spendYears, if_pos supported, if_neg inside] at spent
      obtain ⟨after, bound, stops, balance⟩ := ih spent
      have next := dayNumber_newYear year
      exact ⟨by omega, fun _ => bound (by omega), stops, by omega⟩
  | case3 days year unsupported =>
      intro rest last spent
      rw [spendYears, if_neg unsupported] at spent
      cases spent
      exact ⟨by omega, id, fun supported => absurd supported unsupported, rfl⟩

theorem spendMonths_some (table : List Nat) : ∀ {days : Nat} (month : Nat), days < table.sum →
    ∃ k rest, ∃ inside : k < table.length, spendMonths table days month = some (rest, month + k) ∧
      days = (table.take k).sum + rest ∧ rest < table[k] := by
  induction table with
  | nil =>
      intro days month few
      simp at few
  | cons length table ih =>
      intro days month few
      rw [List.sum_cons] at few
      by_cases more : length ≤ days
      · obtain ⟨k, rest, inside, spent, balance, short⟩ := ih (month + 1) (show days - length < table.sum by omega)
        refine ⟨k + 1, rest, by simpa using inside, ?_, ?_, by simpa using short⟩
        · rw [spendMonths, if_pos more, spent, Nat.add_right_comm, Nat.add_assoc]
        · rw [List.take_succ_cons, List.sum_cons]
          omega
      · refine ⟨0, days, by simp, ?_, by simp, by simp; omega⟩
        rw [spendMonths, if_neg more]
        rfl

theorem length_months (year : Nat) : (months year).length = 12 := rfl

theorem sum_months (year : Nat) : (months year).sum = yearLength year := by
  unfold months yearLength
  split <;> rfl

/-- The table agrees with the closed formula for the day a month starts. -/
theorem dayNumber_newMonth (year : Nat) {month : Nat} (inside : month < 12) :
    Fields.dayNumber year (month + 1) 1 = Fields.dayNumber year 1 1 + ((months year).take month).sum := by
  have table : (((months year).take month).sum : Int) =
      (367 * ((month + 1 : Nat) : Int) - 362) / 12 + Fields.correction year (month + 1) := by
    rw [correction_eq, months]
    cases leapYear year <;> (revert month; decide)
  have first : Fields.correction year 1 = 0 := rfl
  rw [table, Fields.dayNumber, Fields.dayNumber, first]
  omega

/-! ## Dates in order -/

namespace Fields

/-- The first difference of two dates and times is an earlier value in the first one. -/
def Before (a b : Fields) : Prop :=
  a.year < b.year ∨ a.year = b.year ∧ (a.month < b.month ∨ a.month = b.month ∧
    (a.day < b.day ∨ a.day = b.day ∧ (a.hour < b.hour ∨ a.hour = b.hour ∧
      (a.minute < b.minute ∨ a.minute = b.minute ∧ (a.second < b.second ∨ a.second = b.second ∧
        a.nanosecond < b.nanosecond)))))

/-- The day after the last one of a month. -/
def monthEnd (year month : Nat) : Int :=
  if month = 12 then dayNumber (year + 1) 1 1 else dayNumber year (month + 1) 1

theorem dayNumber_day (year month day : Nat) : dayNumber year month day = dayNumber year month 1 + day - 1 := by
  unfold dayNumber
  omega

/-- A month ends the length of the table after it starts. -/
theorem monthEnd_eq (year : Nat) {month : Nat} (inside : month < 12) :
    monthEnd year (month + 1) = dayNumber year (month + 1) 1 + (months year)[month] := by
  have start := dayNumber_newMonth year inside
  have total := sum_months year
  have next := dayNumber_newYear year
  have split : ((months year).take (month + 1)).sum = ((months year).take month).sum + (months year)[month] := by
    rw [List.take_add_one, List.getElem?_eq_getElem inside]
    simp
  by_cases last : month + 1 = 12
  · have whole : (months year).take (month + 1) = months year :=
      List.take_of_length_le (by rw [length_months]; omega)
    rw [whole] at split
    rw [monthEnd, if_pos last]
    omega
  · have after := dayNumber_newMonth year (show month + 1 < 12 by omega)
    rw [monthEnd, if_neg last]
    omega

theorem dayNumber_months (year : Nat) {a b : Nat} (order : a ≤ b) : dayNumber year a 1 ≤ dayNumber year b 1 := by
  rcases Nat.eq_or_lt_of_le order with rfl | before
  · exact Int.le_refl _
  · rw [dayNumber, dayNumber, correction_eq, correction_eq]
    split <;> split <;> first | omega | (split <;> omega)

theorem dayNumber_years {a b : Nat} (order : a ≤ b) : dayNumber a 1 1 ≤ dayNumber b 1 1 := by
  induction b, order using Nat.le_induction with
  | base => exact Int.le_refl _
  | succ b _ ih =>
      have := dayNumber_newYear b
      omega

variable {a b : Fields}

/-- A date lies in its year. -/
theorem Valid.within (valid : a.Valid) :
    dayNumber a.year 1 1 ≤ dayNumber a.year a.month 1 ∧
      dayNumber a.year a.month a.day < monthEnd a.year a.month ∧
      monthEnd a.year a.month ≤ dayNumber (a.year + 1) 1 1 := by
  obtain ⟨positive, twelve⟩ := valid.month
  refine ⟨dayNumber_months _ positive, valid.day.2, ?_⟩
  rw [monthEnd]
  split
  · exact Int.le_refl _
  · have last := dayNumber_months a.year (a := a.month + 1) (b := 11 + 1) (by omega)
    have ends := monthEnd_eq a.year (show 11 < 12 by omega)
    rw [monthEnd, if_pos rfl] at ends
    omega

theorem before_day (left : a.Valid) (right : b.Valid)
    (order : a.year < b.year ∨ a.year = b.year ∧ (a.month < b.month ∨ a.month = b.month ∧ a.day < b.day)) :
    dayNumber a.year a.month a.day < dayNumber b.year b.month b.day := by
  have aDay := dayNumber_day a.year a.month a.day
  have bDay := dayNumber_day b.year b.month b.day
  have bFirst := right.day.1
  obtain ⟨aStart, aInside, aEnds⟩ := left.within
  obtain ⟨bStart, bInside, bEnds⟩ := right.within
  rcases order with years | ⟨sameYear, months | ⟨sameMonth, days⟩⟩
  · have := dayNumber_years (a := a.year + 1) (b := b.year) years
    omega
  · have later := right.month.2
    have ends := dayNumber_months a.year (a := a.month + 1) (b := b.month) months
    rw [monthEnd, if_neg (by omega)] at aInside
    rw [← sameYear] at bDay ⊢
    omega
  · rw [sameYear, sameMonth] at aDay ⊢
    omega

theorem before_instant (left : a.Valid) (right : b.Valid) (order : a.Before b) : a.instant < b.instant := by
  have aHour := left.hour
  have aMinute := left.minute
  have aSecond := left.second
  have aNanosecond := left.nanosecond
  have sameDay : a.year = b.year → a.month = b.month → a.day = b.day →
      dayNumber a.year a.month a.day = dayNumber b.year b.month b.day := by
    intro year month day
    rw [year, month, day]
  have earlier := before_day left right
  unfold Before at order
  unfold instant
  dsimp only
  generalize dayNumber a.year a.month a.day = x at *
  generalize dayNumber b.year b.month b.day = y at *
  generalize dayNumber 1970 1 1 = z
  rcases order with years | ⟨sameYear, months | ⟨sameMonth, days | ⟨day, rest⟩⟩⟩
  · have := earlier (.inl years)
    omega
  · have := earlier (.inr ⟨sameYear, .inl months⟩)
    omega
  · have := earlier (.inr ⟨sameYear, .inr ⟨sameMonth, days⟩⟩)
    omega
  · have := sameDay sameYear sameMonth day
    omega

/-- Two dates and times are one, or one comes before the other. -/
theorem before_total (a b : Fields) : a = b ∨ a.Before b ∨ b.Before a := by
  rcases a with ⟨year, month, day, hour, minute, second, nanosecond⟩
  rcases b with ⟨year', month', day', hour', minute', second', nanosecond'⟩
  simp only [Before, Fields.mk.injEq]
  omega

theorem instant_lt_iff (left : a.Valid) (right : b.Valid) : a.instant < b.instant ↔ a.Before b := by
  constructor
  · intro less
    rcases before_total a b with rfl | before | after
    · exact absurd less (Int.lt_irrefl _)
    · exact before
    · have := before_instant right left after
      omega
  · exact before_instant left right

theorem Valid.year_lt (valid : a.Valid) : a.year < 10 ^ 4 := valid.year

theorem Valid.month_lt (valid : a.Valid) : a.month < 10 ^ 2 := by
  have := valid.month
  omega

theorem Valid.day_lt (valid : a.Valid) : a.day < 10 ^ 2 := by
  obtain ⟨positive, twelve⟩ := valid.month
  obtain ⟨month, same⟩ : ∃ month, a.month = month + 1 := ⟨a.month - 1, by omega⟩
  have ends := monthEnd_eq a.year (show month < 12 by omega)
  have short : ∀ length ∈ months a.year, length ≤ 31 := by
    unfold months
    cases leapYear a.year <;> decide
  have := short _ (List.getElem_mem (l := months a.year) (n := month) (by rw [length_months]; omega))
  have day := dayNumber_day a.year a.month a.day
  obtain ⟨-, inside, -⟩ := valid.within
  rw [same] at inside day
  omega

theorem Valid.hour_lt (valid : a.Valid) : a.hour < 10 ^ 2 := Nat.lt_trans valid.hour (by decide)

theorem Valid.minute_lt (valid : a.Valid) : a.minute < 10 ^ 2 := Nat.lt_trans valid.minute (by decide)

theorem Valid.second_lt (valid : a.Valid) : a.second < 10 ^ 2 := Nat.lt_trans valid.second (by decide)

theorem Valid.nanosecond_lt (valid : a.Valid) : a.nanosecond < 10 ^ 9 := valid.nanosecond

/-- Texts are ordered the way the dates and times they read are. -/
theorem text_lt_iff (left : a.Valid) (right : b.Valid) : a.text < b.text ↔ a.Before b := by
  have year := numeral_append_lt left.year_lt right.year_lt
  have month := numeral_append_lt left.month_lt right.month_lt
  have day := numeral_append_lt left.day_lt right.day_lt
  have hour := numeral_append_lt left.hour_lt right.hour_lt
  have minute := numeral_append_lt left.minute_lt right.minute_lt
  have second := numeral_append_lt left.second_lt right.second_lt
  have nanosecond := numeral_append_lt left.nanosecond_lt right.nanosecond_lt
  simp only [String.lt_iff, text, String.toList_ofList, List.append_assoc, List.cons_append, year, month, day, hour,
    minute, second, nanosecond, List.cons_lt_cons_self, List.lt_irrefl, and_false, or_false, Before]

end Fields

/-! ## The timestamp -/

/-- The fields the timestamp of `elapsed` shows in the last year and month of the two loops. -/
def Fields.ofElapsed (year month days : Nat) (elapsed : Duration) : Fields where
  year := year
  month := month + 1
  day := days + 1
  hour := elapsed.secs % 86400 / 3600
  minute := elapsed.secs % 86400 / 60 % 60
  second := elapsed.secs % 86400 % 60
  nanosecond := elapsed.nanos

theorem durationSinceEpoch_some {time : Int} (after : 0 ≤ time) :
    ∃ elapsed : Duration, durationSinceEpoch time = some elapsed ∧ elapsed.asNanos = time := by
  rw [durationSinceEpoch, if_pos after]
  refine ⟨_, rfl, ?_⟩
  rw [Duration.asNanos]
  dsimp only
  omega

/-- The two loops leave the fields of the instant. -/
theorem ofElapsed_instant {year month days : Nat} {elapsed : Duration} {rest : Nat}
    (balance : Fields.dayNumber 1970 1 1 + (elapsed.secs / 86400 : Nat) = Fields.dayNumber year 1 1 + rest)
    (inside : month < 12) (spent : rest = ((months year).take month).sum + days) :
    (Fields.ofElapsed year month days elapsed).instant = elapsed.asNanos := by
  have start := dayNumber_newMonth year inside
  have day := Fields.dayNumber_day year (month + 1) (days + 1)
  rw [Fields.instant, Fields.ofElapsed, Duration.asNanos]
  dsimp only
  omega

theorem ofElapsed_valid {year month days : Nat} (elapsed : Duration) (supported : year ≤ 9999)
    (inside : month < 12) (short : days < (months year)[month]) :
    (Fields.ofElapsed year month days elapsed).Valid where
  year := by
    dsimp only [Fields.ofElapsed]
    omega
  month := by
    dsimp only [Fields.ofElapsed]
    omega
  day := by
    have day := Fields.dayNumber_day year (month + 1) (days + 1)
    have ends := Fields.monthEnd_eq year inside
    dsimp only [Fields.ofElapsed]
    refine ⟨by omega, ?_⟩
    change _ < Fields.monthEnd year (month + 1)
    omega
  hour := by
    dsimp only [Fields.ofElapsed]
    omega
  minute := by
    dsimp only [Fields.ofElapsed]
    omega
  second := by
    dsimp only [Fields.ofElapsed]
    omega
  nanosecond := elapsed.subsecond

/-- Padding never cuts or widens a field. -/
theorem text_padded {fields : Fields} (valid : fields.Valid) :
    fields.text = String.ofList
      (padded 4 fields.year ++ '-' :: padded 2 fields.month ++ '-' :: padded 2 fields.day ++
        'T' :: padded 2 fields.hour ++ ':' :: padded 2 fields.minute ++
        ':' :: padded 2 fields.second ++ '.' :: padded 9 fields.nanosecond ++ ['Z']) := by
  have two : 0 < 2 := by decide
  rw [Fields.text, padded_eq_numeral (by decide) valid.year_lt, padded_eq_numeral two valid.month_lt,
    padded_eq_numeral two valid.day_lt, padded_eq_numeral two valid.hour_lt,
    padded_eq_numeral two valid.minute_lt, padded_eq_numeral two valid.second_lt,
    padded_eq_numeral (by decide) valid.nanosecond_lt]

/-- A timestamp in range shows valid fields of its instant. -/
theorem timestamp_fields {time : Int} (after : 0 ≤ time) :
    timestamp time = .error .timestamp ∧ Fields.instant ⟨10000, 1, 1, 0, 0, 0, 0⟩ ≤ time ∨
      ∃ fields : Fields, fields.Valid ∧ fields.instant = time ∧ timestamp time = .ok fields.text := by
  obtain ⟨elapsed, since, rfl⟩ := durationSinceEpoch_some after
  rcases spent : spendYears (elapsed.secs / 86400) 1970 with ⟨rest, year⟩
  obtain ⟨-, bound, stops, balance⟩ := spendYears_spec _ _ spent
  by_cases supported : year ≤ 9999
  · right
    have short := stops supported
    rw [← sum_months] at short
    obtain ⟨month, days, inside, found, balanceMonths, shortMonth⟩ :=
      spendMonths_some (months year) 0 short
    have valid := ofElapsed_valid elapsed supported inside shortMonth
    refine ⟨_, valid, ofElapsed_instant balance inside balanceMonths, ?_⟩
    rw [text_padded valid, timestamp, since]
    dsimp only
    rw [spent]
    dsimp only
    rw [if_neg (by omega), found, Nat.zero_add]
    rfl
  · left
    obtain rfl : year = 10000 := by
      have := bound (by omega)
      omega
    constructor
    · rw [timestamp, since]
      dsimp only
      rw [spent]
      rfl
    · rw [Fields.instant, Duration.asNanos]
      dsimp only
      omega

/-- Timestamps are Gregorian UTC.  An instant has one exactly from the start of 1970 to the end of
9999; it then reads a valid date and time whose day count gives back the instant, the month stays in
the table, and the texts are in the order of their instants. -/
theorem timestamp_exact :
    (∀ time, (∃ text, timestamp time = .ok text) ↔
      Fields.instant ⟨1970, 1, 1, 0, 0, 0, 0⟩ ≤ time ∧ time < Fields.instant ⟨10000, 1, 1, 0, 0, 0, 0⟩) ∧
    (∀ time text, timestamp time = .ok text →
      ∃ fields : Fields, fields.Valid ∧ fields.instant = time ∧ fields.text = text) ∧
    (∀ time, timestamp time ≠ .error .outOfBounds) ∧
    ∀ time time' text text', timestamp time = .ok text → timestamp time' = .ok text' →
      (text < text' ↔ time < time') := by
  have epoch : Fields.instant ⟨1970, 1, 1, 0, 0, 0, 0⟩ = 0 := rfl
  have before : ∀ time : Int, ¬ 0 ≤ time → timestamp time = .error .timestamp := by
    intro time negative
    rw [timestamp, durationSinceEpoch, if_neg negative]
  have shown : ∀ time text, timestamp time = .ok text →
      ∃ fields : Fields, fields.Valid ∧ fields.instant = time ∧ fields.text = text := by
    intro time text ok
    by_cases after : 0 ≤ time
    · rcases timestamp_fields after with ⟨failed, -⟩ | ⟨fields, valid, instant, same⟩
      · cases failed.symm.trans ok
      · exact ⟨fields, valid, instant, Except.ok.inj (same.symm.trans ok)⟩
    · cases (before time after).symm.trans ok
  refine ⟨fun time => ⟨?_, ?_⟩, shown, ?_, ?_⟩
  · rintro ⟨text, ok⟩
    by_cases after : 0 ≤ time
    · obtain ⟨fields, valid, rfl, -⟩ := shown time text ok
      refine ⟨by rw [epoch]; exact after, ?_⟩
      obtain ⟨-, inside, ends⟩ := valid.within
      have years := Fields.dayNumber_years (a := fields.year + 1) (b := 10000) valid.year
      have hour := valid.hour
      have minute := valid.minute
      have second := valid.second
      have nanosecond := valid.nanosecond
      rw [Fields.instant, Fields.instant]
      dsimp only
      omega
    · cases (before time after).symm.trans ok
  · rintro ⟨after, early⟩
    rcases timestamp_fields (epoch ▸ after) with ⟨-, late⟩ | ⟨fields, -, -, same⟩
    · omega
    · exact ⟨_, same⟩
  · intro time outside
    by_cases after : 0 ≤ time
    · rcases timestamp_fields after with ⟨failed, -⟩ | ⟨fields, -, -, same⟩
      · cases failed.symm.trans outside
      · cases same.symm.trans outside
    · cases (before time after).symm.trans outside
  · intro time time' text text' ok ok'
    obtain ⟨fields, valid, rfl, rfl⟩ := shown time text ok
    obtain ⟨fields', valid', rfl, rfl⟩ := shown time' text' ok'
    rw [Fields.text_lt_iff valid valid', Fields.instant_lt_iff valid valid']

end Metewand

import Nyanpasu.Guarantees.ConsoleOutput

/-! # The dates of lines that print none

A date is carried from line to line and moves forward at midnight.  It never moves back, so
it is right just as long as the lines do not either.
-/

namespace Nyanpasu.Console

variable {Instant Date Time : Type}

/-- What the dates and times of a calendar stand for, leap seconds aside. -/
structure Calendar.Meaning (cal : Calendar Instant Date Time) where
  day : Date → Int
  nanos : Time → Int
  day_inj : ∀ date date', day date = day date' → date = date'
  succ : ∀ date date', cal.succ date = some date' ↔ day date' = day date + 1
  pred : ∀ date date', cal.pred date = some date' ↔ day date' = day date - 1
  since : ∀ a b, cal.signedDurationSince a b = nanos a - nanos b
  printed : ∀ raw time, cal.parseTime raw = some time → 0 ≤ nanos time ∧ nanos time < 2 * halfDay
  observed : ∀ instant, 0 ≤ nanos (cal.time instant) ∧ nanos (cal.time instant) < 2 * halfDay

/-- A line, when it was read, and when it was printed: the local date and time, and the instant
    they are. -/
structure Printed (Instant Date Time : Type) where
  line : Text
  observedAt : Instant
  date : Date
  time : Time
  unixMs : Int

/-- The Unix milliseconds of each line, and the clock it leaves behind. -/
def readPremium (cal : Calendar Instant Date Time) :
    Option (Date × Time) → List (Printed Instant Date Time) →
      List (Option Int × Option (Date × Time))
  | _, [] => []
  | clock, p :: rest =>
      let (parsed, clock) := parsePremium cal p.line p.observedAt clock
      (parsed.bind fun line => line.timestamp.bind (·.unixMs), clock) :: readPremium cal clock rest

namespace Printed

/-- What a line should be read as. -/
def truth (p : Printed Instant Date Time) : Option Int × Option (Date × Time) :=
  (some p.unixMs, some (p.date, p.time))

/-- The line shows its time, and its instant is that time of its date. -/
structure Shown (cal : Calendar Instant Date Time) (p : Printed Instant Date Time) : Prop where
  reads : ∃ raw level body, premiumHeader cal p.line = some (raw, p.time, level, body)
  unix : cal.localUnixMs p.observedAt p.date p.time = some p.unixMs

end Printed

variable {cal : Calendar Instant Date Time} {p q : Printed Instant Date Time}
  {lines : List (Printed Instant Date Time)}

theorem parseTime_of_premiumHeader {line raw body : Text} {time : Time} {level : LogLevel}
    (reads : premiumHeader cal line = some (raw, time, level, body)) :
    cal.parseTime raw = some time := by
  simp only [premiumHeader, Option.bind_eq_bind, Option.bind_eq_some_iff, Option.pure_def,
    Option.some.injEq, Prod.mk.injEq] at reads
  obtain ⟨_, _, raw, _, time, parses, _, _, _, _, _, _, rfl, rfl, _⟩ := reads
  exact parses

/-- A line is read truly just when its date is. -/
theorem readPremium_cons (shown : p.Shown cal) (clock : Option (Date × Time)) :
    readPremium cal clock (p :: lines) = (p :: lines).map Printed.truth ↔
      premiumDate cal p.time p.observedAt clock = some p.date ∧
        readPremium cal (some (p.date, p.time)) lines = lines.map Printed.truth := by
  obtain ⟨⟨raw, level, body, reads⟩, unix⟩ := shown
  simp only [readPremium, parsePremium, reads, premiumUnixMs, List.map_cons, List.cons.injEq,
    Printed.truth]
  cases dated : premiumDate cal p.time p.observedAt clock with
  | none => simp
  | some date =>
      simp only [Option.bind_some, Prod.mk.injEq, Option.some.injEq, and_true]
      constructor
      · rintro ⟨⟨_, rfl⟩, rest⟩
        exact ⟨rfl, rest⟩
      · rintro ⟨rfl, rest⟩
        exact ⟨⟨unix, rfl⟩, rest⟩

namespace Calendar.Meaning

variable (meaning : cal.Meaning)

/-- Nanoseconds of local time. -/
def instant (date : Date) (time : Time) : Int :=
  meaning.day date * (2 * halfDay) + meaning.nanos time

/-- Less than half a day apart, in either direction. -/
def Near (p q : Printed Instant Date Time) : Prop :=
  let (a, b) := (meaning.instant p.date p.time, meaning.instant q.date q.time)
  a < b + halfDay ∧ b < a + halfDay

/-- Read less than half a day after it was printed. -/
def Fresh (p : Printed Instant Date Time) : Prop :=
  let printed := meaning.instant p.date p.time
  let read := meaning.instant (cal.dateNaive p.observedAt) (cal.time p.observedAt)
  printed ≤ read ∧ read < printed + halfDay

theorem inside (shown : p.Shown cal) :
    0 ≤ meaning.nanos p.time ∧ meaning.nanos p.time < 2 * halfDay := by
  obtain ⟨raw, level, body, reads⟩ := shown.reads
  exact meaning.printed raw p.time (parseTime_of_premiumHeader reads)

theorem premiumDate_first (shown : p.Shown cal) (fresh : meaning.Fresh p) :
    premiumDate cal p.time p.observedAt none = some p.date := by
  have bounds := meaning.inside shown
  have observed := meaning.observed p.observedAt
  simp only [premiumDate, meaning.since]
  split
  case isTrue ahead =>
    simp only [Fresh, instant, halfDay] at *
    rw [meaning.pred]
    omega
  case isFalse within =>
    simp only [Fresh, instant, halfDay] at *
    rw [meaning.day_inj (cal.dateNaive p.observedAt) p.date (by omega)]

/-- The next date is right unless it is the day before. -/
theorem premiumDate_next (shown : p.Shown cal) (shown' : q.Shown cal) (near : meaning.Near p q) :
    premiumDate cal q.time q.observedAt (some (p.date, p.time)) = some q.date ↔
      meaning.day p.date ≤ meaning.day q.date := by
  have bounds := meaning.inside shown
  have bounds' := meaning.inside shown'
  simp only [premiumDate, meaning.since]
  split
  case isTrue falls =>
    simp only [Near, instant, halfDay] at *
    rw [meaning.succ]
    omega
  case isFalse within =>
    simp only [Near, instant, halfDay] at *
    rw [Option.some.injEq]
    constructor
    · intro same
      exact Int.le_of_eq (congrArg meaning.day same)
    · intro order
      apply meaning.day_inj
      omega

theorem readPremium_after (shown : ∀ q ∈ p :: lines, q.Shown cal)
    (near : (p :: lines).IsChain meaning.Near) :
    readPremium cal (some (p.date, p.time)) lines = lines.map Printed.truth ↔
      (p :: lines).IsChain fun p q => meaning.day p.date ≤ meaning.day q.date := by
  induction lines generalizing p with
  | nil => simp [readPremium]
  | cons q rest ih =>
      rw [List.isChain_cons_cons] at near
      rw [readPremium_cons (shown q (by simp)), List.isChain_cons_cons,
        meaning.premiumDate_next (shown p (by simp)) (shown q (by simp)) near.1,
        ih (fun r later => shown r (List.mem_cons_of_mem p later)) near.2]

/-- Lines printed less than half a day apart are all read truly just when none of them is of an
    earlier date than the one before. -/
theorem premium_dates_true_iff (shown : ∀ p ∈ lines, p.Shown cal)
    (near : lines.IsChain meaning.Near) (fresh : ∀ p ∈ lines.head?, meaning.Fresh p) :
    readPremium cal none lines = lines.map Printed.truth ↔
      lines.IsChain fun p q => meaning.day p.date ≤ meaning.day q.date := by
  cases lines with
  | nil => simp [readPremium]
  | cons p rest =>
      rw [readPremium_cons (shown p (by simp)), ← meaning.readPremium_after shown near]
      exact and_iff_right (meaning.premiumDate_first (shown p (by simp)) (fresh p rfl))

end Calendar.Meaning

/-- The two seconds beside midnight. -/
def midnightTime : Text → Option Int
  | '0' :: _ => some 1000000000
  | '2' :: _ => some 86399000000000
  | _ => none

def midnightCalendar : Calendar Int Int Int := { utcCalendar with parseTime := midnightTime }

theorem midnightTime_inside {raw : Text} {time : Int} (reads : midnightTime raw = some time) :
    0 ≤ time ∧ time < 2 * halfDay := by
  unfold midnightTime at reads
  split at reads <;> cases reads <;> decide

theorem utcCalendar_time (instant : Int) :
    0 ≤ utcCalendar.time instant ∧ utcCalendar.time instant < 2 * halfDay := by
  simp only [utcCalendar, halfDay]
  omega

def midnightMeaning : midnightCalendar.Meaning where
  day := id
  nanos := id
  day_inj _ _ same := same
  succ _ _ := ⟨fun next => (Option.some.inj next).symm, fun next => congrArg some next.symm⟩
  pred _ _ := ⟨fun last => (Option.some.inj last).symm, fun last => congrArg some last.symm⟩
  since _ _ := rfl
  printed _ _ := midnightTime_inside
  observed := utcCalendar_time

/-- 23:59:59 of day zero. -/
def lastSecond : Printed Int Int Int :=
  ⟨"23:59:59 INF a".toList, 86402000, 0, 86399000000000, 86399000⟩

/-- 00:00:01 of day one. -/
def firstSecond : Printed Int Int Int :=
  ⟨"00:00:01 INF b".toList, 86402000, 1, 1000000000, 86401000⟩

theorem lastSecond_shown : lastSecond.Shown midnightCalendar :=
  ⟨⟨"23:59:59".toList, .info, "a".toList, by decide +kernel⟩, by decide +kernel⟩

theorem firstSecond_shown : firstSecond.Shown midnightCalendar :=
  ⟨⟨"00:00:01".toList, .info, "b".toList, by decide +kernel⟩, by decide +kernel⟩

theorem midnight_near : midnightMeaning.Near lastSecond firstSecond := ⟨by decide, by decide⟩

theorem premium_dates_true_midnight :
    readPremium midnightCalendar none [lastSecond, firstSecond] =
      [lastSecond, firstSecond].map Printed.truth := by
  refine (midnightMeaning.premium_dates_true_iff ?_ ?_ ?_).2 ?_
  · simp [lastSecond_shown, firstSecond_shown]
  · exact .cons_cons midnight_near (.singleton _)
  · rintro p ⟨⟩
    exact ⟨by decide, by decide⟩
  · exact .cons_cons (by decide) (.singleton _)

/-- The other way round, the second line is dated a day late. -/
theorem midnight_swap_misdates :
    (∀ p ∈ [firstSecond, lastSecond], p.Shown midnightCalendar) ∧
      [firstSecond, lastSecond].IsChain midnightMeaning.Near ∧ midnightMeaning.Fresh firstSecond ∧
      readPremium midnightCalendar none [firstSecond, lastSecond] =
        [firstSecond.truth, (some (lastSecond.unixMs + 86400000), some (1, lastSecond.time))] := by
  refine ⟨?_, .cons_cons midnight_near.symm (.singleton _), ⟨by decide, by decide⟩, ?_⟩
  · simp [lastSecond_shown, firstSecond_shown]
  · decide +kernel

end Nyanpasu.Console

import EternalAI.Recurrence.Model
import Mathlib.Tactic.Linarith

/-!
# Recurring series — the calendar

`local_instant`, `next_scheduled` and `occurrence_request` of
`app/ports/work_object_recurrence.py`. A time zone says which instant a wall
clock time stands for and what the clock shows at an instant; dates and times
outside the range of `datetime` raise.

A wall clock time that the zone leaves out does not survive the round trip
through UTC. `next_scheduled` walks over the dates from a given instant on and
either stops at such a date (a rule is edited) or passes over it (a worker
looks for the next occurrence).

* `Instant` — the valid scheduled instants of a rule.
* `nextScheduled_instant` — what is found is one of them, later than the start.
* `nextScheduled_least` — a walk that starts at an instant of the rule and passes
  over gaps finds the very next one.
-/

namespace EternalAI.Recurrence

open Lib Dispatch

/-! ## Zones -/

/-- `datetime.combine`: a reading of the wall clock is one number, in
microseconds. -/
def combine (day : Int) (clock : ClockTime) : Int := day * dayLength + clock.val

/-- `datetime.date`. -/
def dateOf (wall : Int) : Int := wall / dayLength

theorem dateOf_combine (day : Int) (clock : ClockTime) : dateOf (combine day clock) = day := by
  have hLength : dayLength ≠ 0 := by decide
  unfold dateOf combine
  rw [Int.add_comm, Int.add_mul_ediv_right _ _ hLength,
    Int.ediv_eq_zero_of_lt clock.nonneg clock.below, Int.zero_add]

/-- A time zone, as `ZoneInfo` answers: `utc` takes the first of two equal
readings. Nothing is assumed about gaps and folds but that a reading which
exists comes before every moment at which the clock shows a later date. -/
structure Zone where
  utc : Int → Option Time
  wall : Time → Option Int
  ordered : ∀ {w shown : Int} {instant moment : Time}, utc w = some instant →
    wall instant = some w → wall moment = some shown → dateOf w < dateOf shown → instant < moment
  representable : ∀ {shown : Int} {moment : Time}, wall moment = some shown →
    dateOf shown ≤ dateMax

abbrev Calendar := Str → Option Zone

def isoweekday (day : Int) : Int := if day % 7 = 0 then 7 else day % 7

/-- `ZoneInfo(timezone)`. -/
def Calendar.zone (cal : Calendar) (timezone : Str) : Except Failure Zone :=
  match cal timezone with
  | some zone => .ok zone
  | none => .error .defect

/-- A conversion that leaves the range of `datetime` has no code. -/
def inRange {α : Type} : Option α → Except Failure α
  | some a => .ok a
  | none => .error .defect

def localInstant (zone : Zone) (day : Int) (clock : ClockTime) : Except Failure Time := do
  let instant ← inRange (zone.utc (combine day clock))
  let shown ← inRange (zone.wall instant)
  if shown = combine day clock then .ok instant else .error .workObjectSeriesLocalTimeInvalid

/-! ## The next scheduled instant -/

/-- How far a walk goes: whether the starting instant counts, and whether gaps
are passed over. -/
structure Walk where
  after : Time
  (inclusive skipNonexistent : Bool)

section

variable (cal : Calendar) (request : SeriesRequest) (walk : Walk)

/-- The instant of one date, where it is one that the walk looks for. -/
def Walk.candidate (zone : Zone) (request : SeriesRequest) (day : Int) :
    Except Failure (Option Time) :=
  if isoweekday day ∈ request.weekdays then
    match localInstant zone day request.localTime with
    | .ok t => .ok (if walk.after < t ∨ walk.inclusive ∧ t = walk.after then some t else none)
    | .error e =>
      if walk.skipNonexistent ∧ e = .workObjectSeriesLocalTimeInvalid then .ok none else .error e
  else .ok none

/-- The dates from `day` on, of which `left` follow before the calendar ends. -/
def Walk.search (walk : Walk) (zone : Zone) (request : SeriesRequest) : Nat → Int →
    Except Failure Time
  | left, day =>
    match walk.candidate zone request day with
    | .error e => .error e
    | .ok (some t) => .ok t
    | .ok none =>
      match left with
      | 0 => .error .defect
      | left + 1 => walk.search zone request left (day + 1)

def nextScheduled : Except Failure Time := do
  let zone ← cal.zone request.timezone
  let today ← inRange (zone.wall walk.after)
  let start := max request.startDate (dateOf today)
  walk.search zone request (dateMax - start).toNat start

def occurrenceRequest (scheduledAt : Time) : Except Failure DispatchRequest := do
  let zone ← cal.zone request.timezone
  let shown ← inRange (zone.wall scheduledAt)
  let due := dateOf shown + request.deadlineSpec.daysAfter
  let deadline ← if due ≤ dateMax then localInstant zone due request.deadlineSpec.localTime
    else .error .defect
  pure (request.template.dueAt deadline)

/-- The valid scheduled instants of a rule: on a date of the rule, at a local
time that exists. -/
def Instant (t : Time) : Prop :=
  ∃ zone day, cal request.timezone = some zone ∧ request.startDate ≤ day ∧ day ≤ dateMax ∧
    isoweekday day ∈ request.weekdays ∧ localInstant zone day request.localTime = .ok t

end

/-! ## What the walk finds -/

variable {cal : Calendar} {zone : Zone} {request : SeriesRequest} {walk : Walk} {t u : Time}
  {day day' : Int} {clock : ClockTime} {left : Nat}

theorem inRange_ok {α : Type} {x : Option α} {a : α} : inRange x = .ok a ↔ x = some a := by
  cases x <;> simp [inRange]

theorem zone_ok {timezone : Str} : cal.zone timezone = .ok zone ↔ cal timezone = some zone := by
  unfold Calendar.zone
  cases cal timezone <;> simp

section

variable (hOk : localInstant zone day clock = .ok t)

include hOk

theorem localInstant_ok :
    zone.utc (combine day clock) = some t ∧ zone.wall t = some (combine day clock) := by
  obtain ⟨instant, hUtc, hOk⟩ := bind_ok.mp hOk
  obtain ⟨shown, hWall, hOk⟩ := bind_ok.mp hOk
  split at hOk
  · rename_i hSame
    cases hOk
    rw [inRange_ok] at hUtc hWall
    exact ⟨hUtc, hSame ▸ hWall⟩
  · cases hOk

theorem localInstant_lt {shown : Int} (hWall : zone.wall u = some shown)
    (hEarly : day < dateOf shown) : t < u := by
  obtain ⟨hUtc, hBack⟩ := localInstant_ok hOk
  exact zone.ordered hUtc hBack hWall (by rwa [dateOf_combine])

theorem localInstant_date_lt (hOk' : localInstant zone day' clock = .ok u) (hLt : t < u) :
    day < day' := by
  rcases lt_trichotomy day day' with hDay | rfl | hDay
  · exact hDay
  · rw [hOk] at hOk'
    exact absurd (Except.ok.inj hOk') (ne_of_lt hLt)
  · have hBack := localInstant_lt hOk' (localInstant_ok hOk).2 (by rwa [dateOf_combine])
    exact absurd hLt (not_lt_of_gt hBack)

end

theorem candidate_some (hOk : walk.candidate zone request day = .ok (some t)) :
    isoweekday day ∈ request.weekdays ∧ localInstant zone day request.localTime = .ok t ∧
      (walk.after < t ∨ walk.inclusive ∧ t = walk.after) := by
  unfold Walk.candidate at hOk
  split at hOk
  · rename_i hDay
    cases hLocal : localInstant zone day request.localTime with
    | ok u =>
      simp only [hLocal, Except.ok.injEq] at hOk
      split at hOk
      · rename_i hAfter
        cases hOk
        exact ⟨hDay, rfl, hAfter⟩
      · cases hOk
    | error e =>
      simp only [hLocal] at hOk
      split at hOk <;> cases hOk
  · cases hOk

/-- A date that is passed over has no instant that the walk looks for. -/
theorem candidate_none (hOk : walk.candidate zone request day = .ok none)
    (hDay : isoweekday day ∈ request.weekdays)
    (hLocal : localInstant zone day request.localTime = .ok t) :
    ¬(walk.after < t ∨ walk.inclusive ∧ t = walk.after) := by
  unfold Walk.candidate at hOk
  rw [if_pos hDay, hLocal] at hOk
  simp only [Except.ok.injEq] at hOk
  split at hOk
  · cases hOk
  · assumption

/-- The last date that the walk looks at: it offers an instant or fails, or the
calendar ends there. -/
theorem search_stops (walk : Walk) (zone : Zone) (request : SeriesRequest) (left : Nat)
    (day : Int) :
    ∃ last, day ≤ last ∧ last ≤ day + left ∧
      (∀ d, day ≤ d → d < last → walk.candidate zone request d = .ok none) ∧
      (walk.candidate zone request last = (walk.search zone request left day).map some ∨
        walk.candidate zone request last = .ok none ∧ last = day + left ∧
          walk.search zone request left day = .error .defect) := by
  -- The walk stops at `day`, unless that date is passed over and there is a next one.
  induction left generalizing day with
  | zero =>
    refine ⟨day, le_refl _, by omega, fun d hFrom hTo => by omega, ?_⟩
    unfold Walk.search
    rcases hCand : walk.candidate zone request day with e | _ | t
    · exact .inl rfl
    · exact .inr ⟨rfl, by simp, rfl⟩
    · exact .inl rfl
  | succ left ih =>
    unfold Walk.search
    rcases hCand : walk.candidate zone request day with e | _ | t
    · exact ⟨day, le_refl _, by omega, fun d hFrom hTo => by omega, .inl hCand⟩
    · obtain ⟨last, hFrom, hTo, hPassed, hLast⟩ := ih (day + 1)
      refine ⟨last, by omega, by omega, fun d hd hBefore => ?_, ?_⟩
      · rcases eq_or_lt_of_le hd with rfl | hLater
        · exact hCand
        · exact hPassed d (by omega) hBefore
      · exact hLast.imp_right fun hEnd => ⟨hEnd.1, by omega, hEnd.2.2⟩
    · exact ⟨day, le_refl _, by omega, fun d hFrom hTo => by omega, .inl hCand⟩

theorem nextScheduled_stops {today : Int} (walk : Walk) (hZone : cal request.timezone = some zone)
    (hToday : zone.wall walk.after = some today) :
    ∃ last, max request.startDate (dateOf today) ≤ last ∧ last ≤ dateMax ∧
      (∀ d, max request.startDate (dateOf today) ≤ d → d < last →
        walk.candidate zone request d = .ok none) ∧
      (walk.candidate zone request last = (nextScheduled cal request walk).map some ∨
        walk.candidate zone request last = .ok none ∧ last = dateMax ∧
          nextScheduled cal request walk = .error .defect) := by
  -- the walk begins within the calendar, so it has the dates up to `date.max` before it
  have hEnd := max_le request.startDateRange (zone.representable hToday)
  have hNext : nextScheduled cal request walk = walk.search zone request
      (dateMax - max request.startDate (dateOf today)).toNat
      (max request.startDate (dateOf today)) := by
    unfold nextScheduled
    rw [zone_ok.mpr hZone]
    show (inRange (zone.wall walk.after) >>= _) = _
    rw [inRange_ok.mpr hToday]
    rfl
  rw [hNext]
  obtain ⟨last, hFrom, hTo, hPassed, hLast⟩ := search_stops walk zone request
    (dateMax - max request.startDate (dateOf today)).toNat (max request.startDate (dateOf today))
  exact ⟨last, hFrom, by omega, hPassed, hLast.imp_right fun hLast =>
    ⟨hLast.1, by omega, hLast.2.2⟩⟩

theorem Instant.date {today : Int} (hInstant : Instant cal request t)
    (hZone : cal request.timezone = some zone) (hToday : zone.wall walk.after = some today)
    (hAfter : walk.after < t ∨ walk.inclusive ∧ t = walk.after) :
    ∃ day, max request.startDate (dateOf today) ≤ day ∧ day ≤ dateMax ∧
      isoweekday day ∈ request.weekdays ∧ localInstant zone day request.localTime = .ok t := by
  obtain ⟨zone', day, hZone', hStart, hEnd, hDay, hLocal⟩ := hInstant
  obtain rfl := Option.some.inj (hZone.symm.trans hZone')
  refine ⟨day, max_le hStart ?_, hEnd, hDay, hLocal⟩
  -- a reading of an earlier date than today's is over when the walk starts
  by_contra hYesterday
  have hBefore := localInstant_lt hLocal hToday (not_le.mp hYesterday)
  rcases hAfter with hLt | ⟨-, rfl⟩
  · exact absurd hLt (not_lt_of_gt hBefore)
  · exact absurd hBefore (lt_irrefl _)

section

variable (hOk : nextScheduled cal request walk = .ok t)

include hOk

theorem nextScheduled_ok :
    ∃ zone today found, cal request.timezone = some zone ∧ zone.wall walk.after = some today ∧
      max request.startDate (dateOf today) ≤ found ∧ found ≤ dateMax ∧
      walk.candidate zone request found = .ok (some t) ∧
      ∀ d, max request.startDate (dateOf today) ≤ d → d < found →
        walk.candidate zone request d = .ok none := by
  have hRun := hOk
  obtain ⟨zone, hZone, hRun⟩ := bind_ok.mp hRun
  obtain ⟨today, hToday, -⟩ := bind_ok.mp hRun
  rw [zone_ok] at hZone
  rw [inRange_ok] at hToday
  obtain ⟨last, hFrom, hTo, hPassed, hLast | ⟨-, -, hNone⟩⟩ := nextScheduled_stops walk hZone hToday
  · rw [hOk] at hLast
    exact ⟨zone, today, last, hZone, hToday, hFrom, hTo, hLast, hPassed⟩
  · simp [hOk] at hNone

/-- **What `next_scheduled` finds** is an instant of the rule at or after the
start. -/
theorem nextScheduled_instant :
    Instant cal request t ∧ (walk.after < t ∨ walk.inclusive ∧ t = walk.after) := by
  obtain ⟨zone, today, found, hZone, -, hFrom, hTo, hFound, -⟩ := nextScheduled_ok hOk
  obtain ⟨hDay, hLocal, hAfter⟩ := candidate_some hFound
  exact ⟨⟨zone, found, hZone, (le_max_left _ _).trans hFrom, hTo, hDay, hLocal⟩, hAfter⟩

/-- **No instant is skipped**: none lies between the start and what is found. -/
theorem nextScheduled_least (hInstant : Instant cal request u)
    (hAfter : walk.after < u ∨ walk.inclusive ∧ u = walk.after) : t ≤ u := by
  obtain ⟨zone, today, found, hZone, hToday, hFrom, hTo, hFound, hPassed⟩ := nextScheduled_ok hOk
  obtain ⟨-, hLocal, -⟩ := candidate_some hFound
  obtain ⟨day, hStart, -, hDay, hLocal'⟩ := hInstant.date hZone hToday hAfter
  -- An instant before `t` lies on an earlier date, and not before the walk began.
  by_contra hEarlier
  have hBefore := localInstant_date_lt hLocal' hLocal (not_le.mp hEarlier)
  exact candidate_none (hPassed day hStart hBefore) hDay hLocal' hAfter

end

end EternalAI.Recurrence

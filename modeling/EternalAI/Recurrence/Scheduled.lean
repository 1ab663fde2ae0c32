import EternalAI.Recurrence.Occurrences
import Mathlib.Order.Bounds.Defs

/-!
# Recurring series — exactly what `next_scheduled` answers

`Recurrence.Calendar` says that the walk over the dates finds an instant of the
rule and leaves none out. Here the answer is determined from both sides, for a
zone in which no date up to the answer is out of the range of `datetime`.

* `Walk.skipped` — the argument `skipped_dates`, as the walk fills it.
* `candidate_error` — a walk fails at a date only for a local time that it may
  not pass over.
* `next_scheduled_iff` — when there is an answer and which, when the walk fails,
  and which dates it passes over.
-/

namespace EternalAI.Recurrence

open Lib List
open Dispatch (Time)

section

variable (walk : Walk) (cal : Calendar) (zone : Zone) (request : SeriesRequest)

def Walk.Wanted (t : Time) : Prop :=
  Instant cal request t ∧ (walk.after < t ∨ walk.inclusive ∧ t = walk.after)

/-- A date of the rule on which its local time does not exist. -/
def Gap (day : Int) : Prop :=
  isoweekday day ∈ request.weekdays ∧
    localInstant zone day request.localTime = .error .workObjectSeriesLocalTimeInvalid

instance (day : Int) : Decidable (Gap zone request day) :=
  inferInstanceAs (Decidable (_ ∧ _))

/-- `skipped_dates`: what the walk appends to it from `day` on. -/
def Walk.skipped : Nat → Int → List Int
  | left, day =>
    match walk.candidate zone request day with
    | .ok none =>
      (if Gap zone request day then [day] else []) ++
        match left with
        | 0 => []
        | left + 1 => Walk.skipped left (day + 1)
    | _ => []

/-- The skipped dates of a call of `next_scheduled` at a time that shows `today`. -/
def skippedDates (today : Int) : List Int :=
  let start := max request.startDate (dateOf today)
  walk.skipped zone request (dateMax - start).toNat start

/-- A gap that the walk comes to before any instant that it looks for. -/
structure GapBefore (today day : Int) : Prop where
  start : max request.startDate (dateOf today) ≤ day
  representable : day ≤ dateMax
  gap : Gap zone request day
  before : ∀ t date, walk.Wanted cal request t →
    localInstant zone date request.localTime = .ok t → day < date

end

variable {cal : Calendar} {zone : Zone} {request : SeriesRequest} {walk : Walk} {t : Time}
  {day date today : Int} {left : Nat} {e : Failure}

theorem candidate_error (hErr : walk.candidate zone request day = .error e) :
    isoweekday day ∈ request.weekdays ∧ localInstant zone day request.localTime = .error e ∧
      ¬(walk.skipNonexistent ∧ e = .workObjectSeriesLocalTimeInvalid) := by
  unfold Walk.candidate at hErr
  repeat' split at hErr
  all_goals cases hErr
  exact ⟨‹_›, ‹_›, ‹_›⟩

theorem candidate_gap (hStrict : walk.skipNonexistent = false) (hGap : Gap zone request day) :
    walk.candidate zone request day = .error .workObjectSeriesLocalTimeInvalid := by
  obtain ⟨hDay, hLocal⟩ := hGap
  simp [Walk.candidate, hDay, hLocal, hStrict]

theorem mem_skipped {last d : Int} (hFrom : day ≤ last) (hTo : last ≤ day + left)
    (hPassed : ∀ d, day ≤ d → d < last → walk.candidate zone request d = .ok none)
    (hLast : walk.candidate zone request last = .ok (some t)) :
    d ∈ walk.skipped zone request left day ↔ day ≤ d ∧ d < last ∧ Gap zone request d := by
  -- along the recursion of the walk, from `day` to the date of the answer
  induction left generalizing day with
  | zero =>
    obtain rfl : day = last := by omega
    unfold Walk.skipped
    rw [hLast]
    simp only [not_mem_nil, false_iff]
    omega
  | succ left ih =>
    unfold Walk.skipped
    rcases eq_or_lt_of_le hFrom with rfl | hLater
    · rw [hLast]
      simp only [not_mem_nil, false_iff]
      omega
    · rw [hPassed day (le_refl _) hLater]
      simp only [mem_append]
      rw [ih (by omega) (by omega) fun d hd => hPassed d (by omega)]
      constructor
      · rintro (hHere | ⟨hFrom', hRest⟩)
        · split at hHere
          · rw [mem_singleton.mp hHere]
            exact ⟨le_refl _, hLater, ‹_›⟩
          · cases hHere
        · exact ⟨by omega, hRest⟩
      · rintro ⟨hFrom', hRest⟩
        rcases eq_or_lt_of_le hFrom' with rfl | hNext
        · rw [if_pos hRest.2]
          exact .inl (mem_singleton.mpr rfl)
        · exact .inr ⟨by omega, hRest⟩

theorem localInstant_inj {clock : ClockTime} (hDay : localInstant zone day clock = .ok t)
    (hDate : localInstant zone date clock = .ok t) : day = date := by
  have hSame := (localInstant_ok hDay).2.symm.trans (localInstant_ok hDate).2
  rw [← dateOf_combine day clock, Option.some.inj hSame, dateOf_combine]

inductive Walk.Ends (walk : Walk) (cal : Calendar) (zone : Zone) (request : SeriesRequest)
    (today last : Int) : Except Failure Time → Prop
  | found {t : Time} : walk.candidate zone request last = .ok (some t) →
      walk.Ends cal zone request today last (.ok t)
  | gap : walk.skipNonexistent = false → GapBefore walk cal zone request today last →
      walk.Ends cal zone request today last (.error .workObjectSeriesLocalTimeInvalid)
  | out : last = dateMax → walk.candidate zone request last = .ok none →
      walk.Ends cal zone request today last (.error .defect)

section

variable (walk : Walk) (hZone : cal request.timezone = some zone)
  (hToday : zone.wall walk.after = some today)

include hZone hToday

/-- The date of an instant that the walk looks for is not one that it has passed over. -/
theorem wanted_date {last : Int} (hPassed : ∀ d, max request.startDate (dateOf today) ≤ d →
      d < last → walk.candidate zone request d = .ok none) (hWanted : walk.Wanted cal request t) :
    ∃ day, last ≤ day ∧ day ≤ dateMax ∧ isoweekday day ∈ request.weekdays ∧
      localInstant zone day request.localTime = .ok t := by
  obtain ⟨day, hStart, hEnd, hDay, hLocal⟩ := hWanted.1.date hZone hToday hWanted.2
  refine ⟨day, not_lt.mp fun hBefore => ?_, hEnd, hDay, hLocal⟩
  exact candidate_none (hPassed day hStart hBefore) hDay hLocal hWanted.2

variable (hMap : ∀ day, max request.startDate (dateOf today) ≤ day → day ≤ dateMax →
      (∀ t date, walk.Wanted cal request t → localInstant zone date request.localTime = .ok t →
        day ≤ date) →
      (∃ t, localInstant zone day request.localTime = .ok t) ∨
        localInstant zone day request.localTime = .error .workObjectSeriesLocalTimeInvalid)

include hMap

theorem nextScheduled_ends : ∃ last, max request.startDate (dateOf today) ≤ last ∧
    last ≤ dateMax ∧ (∀ d, max request.startDate (dateOf today) ≤ d → d < last →
      walk.candidate zone request d = .ok none) ∧
    walk.Ends cal zone request today last (nextScheduled cal request walk) := by
  obtain ⟨last, hFrom, hTo, hPassed, hLast⟩ := nextScheduled_stops walk hZone hToday
  refine ⟨last, hFrom, hTo, hPassed, ?_⟩
  rcases hLast with hLast | ⟨hNone, hEnd, hDefect⟩
  · cases hNext : nextScheduled cal request walk with
    | ok t => exact .found (hLast.trans (congrArg (Except.map some) hNext))
    | error e =>
      rw [hNext] at hLast
      obtain ⟨hDay, hLocal, hMay⟩ := candidate_error hLast
      -- the walk has not come past the answer
      have hReached : ∀ t date, walk.Wanted cal request t →
          localInstant zone date request.localTime = .ok t → last ≤ date := by
        intro t date hWanted hDate
        obtain ⟨day, hLe, -, -, hThere⟩ := wanted_date walk hZone hToday hPassed hWanted
        exact localInstant_inj hThere hDate ▸ hLe
      -- so the zone has an instant there or a gap, and only a gap fails
      rcases hMap last hFrom hTo hReached with ⟨u, hu⟩ | hGap
      · rw [hLocal] at hu
        cases hu
      · rw [hLocal] at hGap
        cases hGap
        refine .gap (by simpa using hMay)
          ⟨hFrom, hTo, ⟨hDay, hLocal⟩, fun t date hWanted hDate => ?_⟩
        refine lt_of_le_of_ne (hReached t date hWanted hDate) fun hSame => ?_
        rw [← hSame, hLocal] at hDate
        cases hDate
  · rw [hDefect]
    exact .out hEnd hNone

/--
**The next scheduled instant.** In a zone in which the local time of the rule has an instant
or does not exist, on every date from the start of the walk to the date of the answer (a time
near the end of the calendar may well be out of the range of `datetime` in UTC):

* what `next_scheduled` returns is the least instant of the rule after the given one,
  or not before it in inclusive mode;
* it returns one exactly if there is one and no gap stops it, and only a strict walk is
  stopped by a gap;
* it fails with the code for a nonexistent time exactly if it is strict and comes to a
  gap before any instant that it looks for;
* the dates that it passes over for their local time are exactly the gaps before the
  date of the answer.
-/
theorem next_scheduled_iff :
    (∀ t, nextScheduled cal request walk = .ok t → IsLeast {u | walk.Wanted cal request u} t) ∧
    ((∃ t, nextScheduled cal request walk = .ok t) ↔ (∃ t, walk.Wanted cal request t) ∧
      (walk.skipNonexistent = false → ∀ day, ¬GapBefore walk cal zone request today day)) ∧
    (nextScheduled cal request walk = .error .workObjectSeriesLocalTimeInvalid ↔
      walk.skipNonexistent = false ∧ ∃ day, GapBefore walk cal zone request today day) ∧
    ∀ t date, nextScheduled cal request walk = .ok t →
      localInstant zone date request.localTime = .ok t →
      ∀ day, day ∈ skippedDates walk zone request today ↔
        max request.startDate (dateOf today) ≤ day ∧ day < date ∧ Gap zone request day := by
  obtain ⟨last, hFrom, hTo, hPassed, hEnds⟩ := nextScheduled_ends walk hZone hToday hMap
  -- a strict walk does not come past a gap
  have hStopped : ∀ day, walk.skipNonexistent = false → GapBefore walk cal zone request today day →
      last ≤ day := by
    intro day hStrict hGap
    refine not_lt.mp fun hBefore => ?_
    have hNone := hPassed day hGap.start hBefore
    rw [candidate_gap hStrict hGap.gap] at hNone
    cases hNone
  cases hNext : nextScheduled cal request walk with
  | ok t =>
    rw [hNext] at hEnds
    obtain ⟨hFound⟩ := hEnds
    obtain ⟨-, hLocal, -⟩ := candidate_some hFound
    have hThis : walk.Wanted cal request t := nextScheduled_instant hNext
    have hFree : walk.skipNonexistent = false →
        ∀ day, ¬GapBefore walk cal zone request today day := fun hStrict day hGap =>
      absurd (hStopped day hStrict hGap) (not_le.mpr (hGap.before t last hThis hLocal))
    refine ⟨?_, iff_of_true ⟨t, rfl⟩ ⟨⟨t, hThis⟩, hFree⟩, ?_, ?_⟩
    · rintro _ ⟨⟩
      exact ⟨hThis, fun u hu => nextScheduled_least hNext hu.1 hu.2⟩
    · exact iff_of_false nofun fun ⟨hStrict, day, hGap⟩ => hFree hStrict day hGap
    · rintro _ date ⟨⟩ hDate day
      rw [← localInstant_inj hLocal hDate]
      exact mem_skipped hFrom (by omega) hPassed hFound
  | error e =>
    rw [hNext] at hEnds
    refine ⟨nofun, iff_of_false (fun ⟨_, hOk⟩ => nomatch hOk) ?_, ?_, nofun⟩
    · rintro ⟨⟨t, hWanted⟩, hFree⟩
      cases hEnds with
      | gap hStrict hGap => exact hFree hStrict last hGap
      | out hEnd hNone =>
        -- the wanted instant would be on the last date, which offers none
        obtain ⟨day, hLe, hMax, hDay, hLocal⟩ := wanted_date walk hZone hToday hPassed hWanted
        rw [le_antisymm (hEnd ▸ hMax) hLe] at hDay hLocal
        exact candidate_none hNone hDay hLocal hWanted.2
    · cases hEnds with
      | gap hStrict hGap => exact iff_of_true rfl ⟨hStrict, last, hGap⟩
      | out hEnd hNone =>
        refine iff_of_false nofun fun ⟨hStrict, day, hGap⟩ => ?_
        have hSame := le_antisymm (hStopped day hStrict hGap) (hEnd ▸ hGap.representable)
        rw [hSame, candidate_gap hStrict hGap.gap] at hNone
        cases hNone

end

/-- The sample clock leaves times out, and has an instant for all others. -/
theorem Sample.zone_maps (clock : ClockTime) (hMax : day ≤ dateMax) :
    (∃ t, localInstant Sample.zone day clock = .ok t) ∨
      localInstant Sample.zone day clock = .error .workObjectSeriesLocalTimeInvalid := by
  have hDate := dateOf_combine day clock
  unfold localInstant
  generalize combine day clock = w at *
  have hShown : ∀ shown, shown ≤ w → dateOf shown ≤ dateMax := fun shown hLe =>
    (Int.ediv_le_ediv (by decide) hLe).trans (hDate.le.trans hMax)
  by_cases hBefore : w < 871200000000
  · simp [Sample.zone, inRange, hBefore, hShown, bind, Except.bind]
  · by_cases hGap : w - 3600000000 < 871200000000 <;>
      simp [Sample.zone, inRange, hBefore, hGap, hShown, bind, Except.bind]

/-- On the tenth day half past two is left out. A strict walk from the ninth day fails
there; one that passes over gaps finds the eleventh day, and nothing comes before it. -/
theorem next_scheduled_iff_sample :
    (∃ day, GapBefore ⟨Sample.day 9 + 9000000000, false, false⟩ Sample.calendar Sample.zone
      Sample.daily (Sample.day 9 + 9000000000) day) ∧
    IsLeast {u | (⟨Sample.day 9 + 9000000000, false, true⟩ : Walk).Wanted Sample.calendar
      Sample.daily u} (Sample.day 11 + 5400000000) := by
  have hZone : Sample.calendar Sample.daily.timezone = some Sample.zone := rfl
  obtain ⟨-, -, hFails, -⟩ := next_scheduled_iff ⟨Sample.day 9 + 9000000000, false, false⟩ hZone
    rfl fun _ _ hMax _ => Sample.zone_maps _ hMax
  obtain ⟨hLeast, -⟩ := next_scheduled_iff ⟨Sample.day 9 + 9000000000, false, true⟩ hZone
    rfl fun _ _ hMax _ => Sample.zone_maps _ hMax
  exact ⟨(hFails.mp (by decide +kernel)).2, hLeast _ (by decide +kernel)⟩

end EternalAI.Recurrence

import EternalAI.Dispatch.Service

/-!
# Recurring series — rules and rows

The data of `app/ports/work_object_recurrence.py` and the four tables behind it:
a rule (`SeriesRequest`) with its dispatch template, the stored series, the
history of its versions, and the occurrences that were generated from it.

A request carries what its model has validated: its weekdays are 1..7 and there
is one, its dates and clock times are representable, the template satisfies the contract of
an ordinary dispatch. An occurrence either was generated at some time or was
blocked with a code; no row has both or neither.

* `Failure` — what an operation on series may raise.
* `State` — the store of series next to the store of tasks, and the clock.
-/

namespace EternalAI.Recurrence

open Lib Dispatch Function

/-! ## Failures -/

/-- What an operation on series may raise: an error of the dispatch service
under its own code, an error of its own, or something that has no code. -/
inductive Failure where
  | dispatch (error : DispatchError)
  | organizationDirectoryMissing
  | workObjectSeriesLocalTimeInvalid
  | workObjectSeriesNotFound
  | defect
  deriving DecidableEq

/-- `_BLOCKED_CODES`: the failures that block an occurrence. All others roll
the attempt back. -/
def Failure.blocks : Failure → Bool
  | .organizationDirectoryMissing => true
  | .workObjectSeriesLocalTimeInvalid => true
  | .dispatch .organizationDirectoryStale => true
  | .dispatch .directoryMembershipMissing => true
  | .dispatch .directoryMembershipAmbiguous => true
  | .dispatch .dispatchTargetDepartmentMissing => true
  | .dispatch .dispatchTargetMembershipMissing => true
  | .dispatch .dispatchTargetMembershipAmbiguous => true
  | .dispatch .dispatchDepartmentHeadMissing => true
  | .dispatch .dispatchDepartmentHeadAmbiguous => true
  | .dispatch .crossDepartmentDispatchDenied => true
  | .dispatch .notDepartmentHead => true
  | .dispatch .workObjectActionForbidden => true
  | .dispatch .workObjectAttachmentInvalid => true
  | .dispatch .workObjectAttachmentLimitExceeded => true
  | _ => false

/-- A step of the dispatch service, with its errors among the failures. -/
def ofDispatch {α : Type} (x : Except DispatchError α) : Except Failure α :=
  x.mapError .dispatch

/-! ## Rules -/

/-- `date.max`; dates are given by their ordinals. -/
def dateMax : Int := 3652059

/-- A day in microseconds. -/
def dayLength : Int := 86400000000

structure ClockTime where
  val : Int
  nonneg : 0 ≤ val
  below : val < dayLength
  deriving DecidableEq

/-- `SeriesTemplate`: a dispatch request whose due time is calculated for each
occurrence. -/
structure SeriesTemplate where
  kind : DispatchKind
  title : RequestText 1 200
  requirement : RequestText 0 10000
  receiptRequirement : RequestText 0 2000
  reminderChoices : List ReminderChoice
  targets : List DispatchTarget
  dispatchMode : DispatchMode
  completionMode : CompletionMode
  leadTarget : Option DispatchTarget
  attachmentIds : List Uuid
  remindersCanonical : reminderChoices = canonicalReminders reminderChoices
  targetsNodup : targets.Nodup
  targetsNonempty : targets ≠ []
  leadFits : leadFits dispatchMode leadTarget targets

/-- The request for one occurrence. The template has passed the validators of a
request with a due time, so validating it again changes nothing. -/
def SeriesTemplate.dueAt (template : SeriesTemplate) (deadline : Time) : DispatchRequest where
  kind := template.kind
  title := template.title
  requirement := template.requirement
  receiptRequirement := template.receiptRequirement
  dueAt := some deadline
  reminderChoices := template.reminderChoices
  targets := template.targets
  dispatchMode := template.dispatchMode
  completionMode := template.completionMode
  leadTarget := template.leadTarget
  attachmentIds := template.attachmentIds
  remindersCanonical := template.remindersCanonical
  remindersDue := .inl rfl
  targetsNodup := template.targetsNodup
  targetsNonempty := template.targetsNonempty
  leadFits := template.leadFits

structure DeadlineSpec where
  daysAfter : Nat
  localTime : ClockTime

/-- `SeriesRequest`: a rule. -/
structure SeriesRequest where
  weekdays : List Int
  localTime : ClockTime
  timezone : Str
  startDate : Int
  deadlineSpec : DeadlineSpec
  template : SeriesTemplate
  enabled : Bool
  weekdaysNonempty : weekdays ≠ []
  weekdaysRange : ∀ day ∈ weekdays, 1 ≤ day ∧ day ≤ 7
  startDateRange : startDate ≤ dateMax

/-! ## Rows -/

/-- A row of `work_object_series`. -/
structure SeriesRow where
  seriesId : Uuid
  (tenantId creatorAiUserId creatorDirectoryUserId : Str)
  request : SeriesRequest
  currentVersion : Nat
  nextDueAt : Option Time
  (createdAt updatedAt : Time)
  identified : creatorAiUserId ≠ []

def SeriesRow.subject (row : SeriesRow) : Subject where
  tenantId := row.tenantId
  aiUserId := row.creatorAiUserId
  directoryUserId := some row.creatorDirectoryUserId
  identified := row.identified

structure SeriesView where
  request : SeriesRequest
  seriesId : Uuid
  version : Nat
  nextDueAt : Option Time
  (createdAt updatedAt : Time)
  attachments : List Attachment

inductive Operation where
  | create | update | enable | disable
  deriving DecidableEq, Repr

/-- A row of `work_object_series_versions`. -/
structure VersionRow where
  tenantId : Str
  seriesId : Uuid
  version : Nat
  operation : Operation
  actorAiUserId : Str
  occurredAt : Time
  snapshot : SeriesView
  idempotencyKey : Uuid
  requestFingerprint : String

/-- How an occurrence ended: the columns `state`, `blocked_code` and
`generated_at`. -/
inductive OccurrenceState where
  | generated (generatedAt : Time)
  | blocked (code : Failure)
  deriving DecidableEq

/-- A row of `work_object_series_occurrences`. -/
structure Occurrence where
  occurrenceId : Uuid
  tenantId : Str
  seriesId : Uuid
  scheduledAt : Time
  seriesVersion : Nat
  state : OccurrenceState
  deriving DecidableEq

/-- A row of `work_object_series_occurrence_items`. -/
structure OccurrenceItem where
  tenantId : Str
  occurrenceId : Uuid
  workObjectId : Str
  deriving DecidableEq

structure State where
  clock : Time
  tasks : World
  series : Uuid → Option SeriesRow
  versions : List VersionRow
  occurrences : List Occurrence
  items : List OccurrenceItem

def State.put (s : State) (row : SeriesRow) : State :=
  { s with series := update s.series row.seriesId (some row) }

@[simp] theorem State.put_series_self (s : State) (row : SeriesRow) :
    (s.put row).series row.seriesId = some row := update_self ..

theorem State.put_series_of_ne (s : State) {row : SeriesRow} {id : Uuid} (hne : id ≠ row.seriesId) :
    (s.put row).series id = s.series id := update_of_ne hne ..

/-! ## Changes of a rule -/

/-- What an owner may ask for: another rule, or the same rule switched on or
off. -/
inductive Change where
  | update (request : SeriesRequest)
  | enable
  | disable

def Change.operation : Change → Operation
  | .update _ => .update
  | .enable => .enable
  | .disable => .disable

def Change.rule (old : SeriesRequest) : Change → SeriesRequest
  | .update request => request
  | .enable => { old with enabled := true }
  | .disable => { old with enabled := false }

structure SeriesEnv where
  dispatch : Env
  seriesId : Str → Str → Uuid → Uuid
  occurrenceKey : Uuid → Time → Uuid
  createFingerprint : SeriesRequest → String
  changeFingerprint : Uuid → Change → String
  ruleDigest : SeriesRequest → Uuid → Nat → String

/-- `SeriesView.etag`: it covers the rule, the series and the version. -/
def SeriesView.etag (env : SeriesEnv) (view : SeriesView) : String :=
  "\"wosr-" ++ env.ruleDigest view.request view.seriesId view.version ++ "\""

structure SeriesMutationResult where
  series : SeriesView
  replayed : Bool

end EternalAI.Recurrence

import EternalAI.Recurrence.Store
import EternalAI.Dispatch.Attachments

/-!
# Recurring series — the service and its runs

`app/work_dispatch/recurrence.py`: owners create and change series, and any
number of workers generate what is due. A request for a rule is validated by
preparing its next occurrence before the store is asked at all.

* `createSeries`, `changeSeries`, `generateDue` — the procedures.
* `SeriesRun` — their interleavings, next to everything else that happens to
  the clock and to the tasks.
-/

namespace EternalAI.Recurrence

open Lib Dispatch

/-! ## Procedures -/

/-- What validating a template draws: a key of its own, and the directory. -/
structure Validation where
  key : Uuid
  preparation : Except Failure Preparation

section

variable (env : SeriesEnv) (cal : Calendar)

/-- The part of `_validate_template` after the clock was read. -/
def checkTemplate (subject : Subject) (request : SeriesRequest) (validation : Validation)
    (now : Time) : Except Failure Unit := do
  let scheduled ← nextScheduled cal request ⟨now, true, false⟩
  let occurrence ← occurrenceRequest cal request scheduled
  let preparation ← validation.preparation
  let _ ← ofDispatch (prepareDispatch env.dispatch subject occurrence validation.key preparation)
  pure ()

def validateTemplate (subject : Subject) (request : SeriesRequest) (validation : Validation) :
    Prog State Failure Unit := do
  let now ← Prog.read (·.clock)
  Prog.ofExcept (checkTemplate env cal subject request validation now)

structure CreateCall where
  subject : Subject
  request : SeriesRequest
  idempotencyKey : Uuid
  validation : Validation

structure ChangeCall where
  subject : Subject
  seriesId : Uuid
  change : Change
  ifMatch : String
  idempotencyKey : Uuid
  validation : Validation

/-- A transaction of the store: an error of the database, from the commit or from
before it, is reported as an unavailable store. -/
def seriesTransaction {α : Type} (ack : Ack) (f : State → Except Failure (α × State)) :
    Prog State Failure α :=
  transact ack storeUnavailable storeUnavailable (fun _ => true) f

/-- `create`. The clock is read once for the validation and once for the store. -/
def createSeries (ack : Ack) (call : CreateCall) : Prog State Failure SeriesMutationResult := do
  validateTemplate env cal call.subject call.request call.validation
  let now ← Prog.read (·.clock)
  seriesTransaction ack
    (State.create env cal call.subject call.request call.idempotencyKey now)

/-- The rule that is validated before a change: the new one, or the stored one
that is to be switched on. -/
def Change.validated (view : SeriesView) : Change → Option SeriesRequest
  | .update request => some request
  | .enable => some view.request
  | .disable => none

def validateChange (call : ChangeCall) (view : SeriesView) : Prog State Failure Unit :=
  match call.change.validated view with
  | some request => validateTemplate env cal call.subject request call.validation
  | none => pure ()

/-- `update` and `set_enabled`. -/
def changeSeries (ack : Ack) (call : ChangeCall) : Prog State Failure SeriesMutationResult := do
  let found ← Prog.read fun s => s.get cal call.subject call.seriesId
  let view ← Prog.ofExcept found
  validateChange env cal call view
  let now ← Prog.read (·.clock)
  seriesTransaction ack (State.change env cal call.subject call.seriesId call.change
    call.ifMatch call.idempotencyKey now)

structure GenerationSummary where
  (generated blocked : Nat)

def GenerationSummary.count (summary : GenerationSummary) :
    Option OccurrenceState → GenerationSummary
  | none => summary
  | some (.generated _) => { summary with generated := summary.generated + 1 }
  | some (.blocked _) => { summary with blocked := summary.blocked + 1 }

/-- One round of a worker. A round that finds nothing has nothing to commit. -/
def workerRound (env : SeriesEnv) (cal : Calendar) (now : Time) (failed : List Uuid)
    (round : Round) : Prog State Failure (Option (Option OccurrenceState)) :=
  transact round.ack storeUnavailable storeUnavailable Option.isSome
    (State.generateOne env cal now failed round)

/-- The loop of `generate_due`, for as many rounds as it gets to do: it ends
when nothing is due, and does not come back to a series whose round failed. An
error from before any series was found ends the worker. -/
def generateRounds (env : SeriesEnv) (cal : Calendar) (now : Time) :
    List Round → List Uuid → GenerationSummary → Prog State Failure GenerationSummary
  | [], _, summary => pure summary
  | round :: rest, failed, summary => do
    let outcome ← (workerRound env cal now failed round).attempt
    match outcome with
    | .ok none => pure summary
    | .ok (some recorded) => generateRounds env cal now rest failed (summary.count recorded)
    | .error e =>
      if round.ack = .refused then .raise e
      else generateRounds env cal now rest (round.pick :: failed) summary

/-- `generate_due`, at the time the scheduler reads. -/
def generateDue (rounds : List Round) : Prog State Failure GenerationSummary := do
  let now ← Prog.read (·.clock)
  generateRounds env cal now rounds [] ⟨0, 0⟩

/-! ## Runs -/

inductive SeriesCall where
  | create (ack : Ack) (call : CreateCall)
  | change (ack : Ack) (call : ChangeCall)
  | generate (rounds : List Round)

def SeriesCall.program : SeriesCall → Prog State Failure Unit
  | .create ack call => (createSeries env cal ack call).discard
  | .change ack call => (changeSeries env cal ack call).discard
  | .generate rounds => (generateDue env cal rounds).discard

/-- What else happens: time passes, and tasks are dispatched and handled. The
tables of series are not touched, and uploads stay as they are. -/
structure Outside (s s' : State) : Prop where
  clock : s.clock ≤ s'.clock
  uploads : filesAt none s.tasks.files <+: filesAt none s'.tasks.files
  series : s'.series = s.series
  versions : s'.versions = s.versions
  occurrences : s'.occurrences = s.occurrences
  items : s'.items = s.items

theorem Outside.refl (s : State) : Outside s s :=
  ⟨le_refl _, List.prefix_rfl, rfl, rfl, rfl, rfl⟩

def Unused (s : State) : Prop :=
  (∀ id, s.series id = none) ∧ s.versions = [] ∧ s.occurrences = [] ∧ s.items = []

/-- Interleavings of any requests and workers, from a store without series. A
process that dies leaves the store as it is. -/
def SeriesRun : List State → Procs State Failure → Prop :=
  PoolRun Unused Outside (fun _ p => ∃ call : SeriesCall, p = call.program env cal) fun _ s => s

end

end EternalAI.Recurrence

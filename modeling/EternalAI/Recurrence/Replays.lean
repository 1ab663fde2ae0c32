import EternalAI.Recurrence.Versions

/-!
# Recurring series — repeating a request to the service

The store answers a repeated request from its table of versions. The service
does not ask the store first: it reads the series, validates the rule against
the clock, the calendar and the directory of the moment, reads the clock once
more, and only then hands the request on. Between these actions anything may
happen. Here it is said exactly when a request that was carried out is still
answered, in terms of what its actions find.

* `Acceptable` — what the calendar and the directory have to say to a rule.
* `createSeries_ends`, `changeSeries_ends` — what the actions of a request find.
* `repeated_request_answered_iff` — when a repeated request is answered.
-/

namespace EternalAI.Recurrence

open Lib Dispatch List Prog

variable {env : SeriesEnv} {cal cal' : Calendar} {s s' s₂ : State} {t t₂ h : List State} {id : Uuid}
  {row : SeriesRow} {request : SeriesRequest} {subject : Subject} {key : Uuid}
  {change : Change} {ack : Ack} {ifMatch ifMatch' : String} {view : SeriesView}
  {validation : Validation}

def State.moved (s : State) (tasks : World) (clock : Time) : State :=
  { s with tasks := tasks, clock := clock }

/-! ## The validation of a rule -/

/-- **A rule that would be accepted anew** at the time `now`. -/
structure Acceptable (cal : Calendar) (subject : Subject) (request : SeriesRequest)
    (validation : Validation) (now : Time) : Prop where
  /-- The rule has a next instant, before any date whose local time is left out, and
  that instant has a deadline. -/
  calendar : ∃ scheduled occurrence, nextScheduled cal request ⟨now, true, false⟩ = .ok scheduled ∧
    occurrenceRequest cal request scheduled = .ok occurrence
  tenant : subject.tenantId ≠ []
  /-- The directory can be read and is still fresh in the end, and the owner may
  dispatch to every target of the template. -/
  directory : ∃ prep, validation.preparation = .ok prep ∧
    validateTargets subject request.template.targets prep.fresh prep.leaders = .ok () ∧
    prep.fresh.recheck prep.recheckedAt = .ok ()

theorem occurrenceRequest_targets {scheduled : Time} {occurrence : DispatchRequest}
    (hOk : occurrenceRequest cal request scheduled = .ok occurrence) :
    occurrence.targets = request.template.targets := by
  unfold occurrenceRequest at hOk
  simp only [bind_ok] at hOk
  obtain ⟨zone, -, shown, -, hOk⟩ := hOk
  split at hOk
  · obtain ⟨deadline, -, hOk⟩ := bind_ok.mp hOk
    cases hOk
    rfl
  · cases hOk

theorem checkTemplate_iff (env : SeriesEnv) {now : Time} :
    checkTemplate env cal subject request validation now = .ok () ↔
      Acceptable cal subject request validation now := by
  unfold checkTemplate ofDispatch
  simp only [bind_ok, mapError_ok]
  constructor
  · rintro ⟨scheduled, hNext, occurrence, hOccurrence, prep, hPrep, p, hReady, -⟩
    obtain ⟨hTargets, hTenant, hFresh⟩ := prepareDispatch_iff.mp ⟨p, hReady⟩
    rw [occurrenceRequest_targets hOccurrence] at hTargets
    exact ⟨⟨scheduled, occurrence, hNext, hOccurrence⟩, hTenant, prep, hPrep, hTargets, hFresh⟩
  · rintro ⟨⟨scheduled, occurrence, hNext, hOccurrence⟩, hTenant, prep, hPrep, hTargets, hFresh⟩
    rw [← occurrenceRequest_targets hOccurrence] at hTargets
    obtain ⟨p, hReady⟩ := prepareDispatch_iff.mpr ⟨hTargets, hTenant, hFresh⟩
    exact ⟨scheduled, hNext, occurrence, hOccurrence, prep, hPrep, p, hReady, rfl⟩

theorem Acceptable.zone {now : Time} (hAccept : Acceptable cal subject request validation now) :
    (cal request.timezone).isSome := by
  obtain ⟨scheduled, -, hNext, -⟩ := hAccept.calendar
  obtain ⟨zone, -, -, hZone, -⟩ := nextScheduled_ok hNext
  rw [hZone]
  rfl

/-! ## The actions of a request -/

variable {result : SeriesMutationResult} {x₀ x₁ x₂ x₃ x' : State}

theorem validateTemplate_ends {β : Type} {k : Unit → Prog State Failure β} {x : State × State}
    {steps : List (State × State)} {r : Except Failure β} :
    (validateTemplate env cal subject request validation >>= k).Ends ((x₁, x₁) :: x :: steps) r ↔
      Acceptable cal subject request validation x₁.clock ∧ (k ()).Ends (x :: steps) r := by
  have hStep : (validateTemplate env cal subject request validation >>= k) =
      Prog.read (·.clock) >>= fun now =>
        Prog.ofExcept (checkTemplate env cal subject request validation now) >>= k := rfl
  rw [hStep, ends_read, ends_ofExcept, ← checkTemplate_iff env]
  constructor
  · rintro ⟨-, ⟨⟩, hBoth⟩
    exact hBoth
  · intro hBoth
    exact ⟨rfl, (), hBoth⟩

theorem seriesTransaction_ends {α : Type} {f : State → Except Failure (α × State)} {a : α} :
    (seriesTransaction ack f).Ends [(s, s')] (.ok a) ↔ ack = .delivered ∧ f s = .ok (a, s') := by
  constructor
  · intro hEnds
    obtain ⟨⟨_, hEq⟩, -⟩ | ⟨s₁, a₁, s₁', hf, hSteps, ⟨hAck, hOk⟩ | ⟨-, hOk⟩⟩ := hEnds.of_transact
    · cases hEq
    · cases hSteps
      cases hOk
      exact ⟨hAck.resolve_right nofun, hf⟩
    · cases hOk
  · rintro ⟨rfl, hf⟩
    exact ends_atomic.mpr hf

/-- A creation validates its rule by the clock of `x₁` and asks the store, in `x₃`, by
the clock of `x₂`. -/
theorem createSeries_ends {call : CreateCall} :
    (createSeries env cal ack call).Ends [(x₁, x₁), (x₂, x₂), (x₃, x')] (.ok result) ↔
      ack = .delivered ∧ Acceptable cal call.subject call.request call.validation x₁.clock ∧
      x₃.create env cal call.subject call.request call.idempotencyKey x₂.clock =
        .ok (result, x') := by
  unfold createSeries
  rw [validateTemplate_ends, ends_read, seriesTransaction_ends]
  exact (and_congr_right fun _ => and_iff_right rfl).trans and_left_comm

/-- The states in which a change is validated: a change that switches the series off
is not. -/
def Change.validations (x : State) : Change → List (State × State)
  | .disable => []
  | _ => [(x, x)]

/-- A change reads the series in `x₀`, validates by the clock of `x₁`, and asks the
store, in `x₃`, by the clock of `x₂`. -/
theorem changeSeries_ends {call : ChangeCall} :
    (changeSeries env cal ack call).Ends
        ((x₀, x₀) :: (call.change.validations x₁ ++ [(x₂, x₂), (x₃, x')])) (.ok result) ↔
      ack = .delivered ∧ ∃ current, x₀.get cal call.subject call.seriesId = .ok current ∧
        (∀ rule ∈ call.change.validated current,
          Acceptable cal call.subject rule call.validation x₁.clock) ∧
        x₃.change env cal call.subject call.seriesId call.change call.ifMatch call.idempotencyKey
          x₂.clock = .ok (result, x') := by
  obtain ⟨subject, id, change, ifMatch, key, validation⟩ := call
  -- the second reading of the clock, and the transaction
  have hStore : (Prog.read (·.clock) >>= fun now => seriesTransaction ack
      (State.change env cal subject id change ifMatch key now)).Ends [(x₂, x₂), (x₃, x')]
        (.ok result) ↔ ack = .delivered ∧
          x₃.change env cal subject id change ifMatch key x₂.clock = .ok (result, x') :=
    ends_read.trans ((and_iff_right rfl).trans seriesTransaction_ends)
  unfold changeSeries
  simp only [← exists_and_left, and_left_comm (a := ack = .delivered)]
  cases change with
  | update _ | enable =>
    refine ends_read.trans ((and_iff_right rfl).trans (ends_ofExcept.trans ?_))
    refine exists_congr fun current => and_congr_right fun _ => validateTemplate_ends.trans ?_
    simp only [Change.validated, Option.mem_some_iff, forall_eq', hStore]
  | disable =>
    refine ends_read.trans ((and_iff_right rfl).trans (ends_ofExcept.trans ?_))
    refine exists_congr fun current => and_congr_right fun _ => hStore.trans ?_
    simp [Change.validated]

/-! ## Repeated requests -/

/-- **A repeated creation** is answered if and only if its rule would be accepted anew,
still has a first due instant when the store is asked, and its attachments are there. -/
theorem Creates.answered_iff (hRun : Run Unused (SeriesStep env cal) (s₂ :: t₂))
    (hAfter : s' ∈ s₂ :: t₂) (hCreate : Creates env cal subject request key s view s')
    (tasks : World) (clock : Time) (x₁ x₂ : State) :
    (createSeries env cal' ack ⟨subject, request, key, validation⟩).Ends
        [(x₁, x₁), (x₂, x₂), (s₂.moved tasks clock, s₂.moved tasks clock)]
        (.ok ⟨view, true⟩) ↔
      ack = .delivered ∧ Acceptable cal' subject request validation x₁.clock ∧
      (∃ due, firstDue cal' request x₂.clock = .ok due) ∧
      ∃ found, templateAttachments subject.tenantId subject.aiUserId
        request.template.attachmentIds tasks.files = .ok found := by
  obtain ⟨row, v, -, hOwned, hMem, hAnswers, rfl, ⟨directory, hDirectory⟩, -, hRule⟩ :=
    hCreate.made
  obtain ⟨row₂, -, hOwned₂, -, hFind, -⟩ := hAnswers.later hRun hAfter hOwned hMem
  refine createSeries_ends.trans (and_congr_right fun _ => and_congr_right fun hAccept => ?_)
  -- before it looks for the snapshot, the store computes the row that it would write
  rw [create_of_version (s := s₂.moved tasks clock) hOwned₂ hFind hAnswers]
  -- the zone of the snapshot is that of the rule, which has just been validated
  have hValid : cal'.validate v.snapshot = .ok v.snapshot :=
    validate_ok.mpr ⟨rfl, by rw [hRule]; exact hAccept.zone⟩
  simp only [bind_ok, hDirectory, hValid]
  constructor
  · rintro ⟨-, -, found, hFound, due, hDue, -⟩
    exact ⟨⟨due, hDue⟩, found, hFound⟩
  · rintro ⟨⟨due, hDue⟩, found, hFound⟩
    exact ⟨directory, rfl, found, hFound, due, hDue, v.snapshot, rfl, rfl⟩

/-- **A repeated change** is answered if and only if the series can be read both times,
the rule to be validated would be accepted anew, and the zone of the stored snapshot is
still known. -/
theorem Commits.answered_iff (hRun : Run Unused (SeriesStep env cal) (s₂ :: t₂))
    (hBefore : s ∈ s₂ :: t₂) (hAfter : s' ∈ s₂ :: t₂)
    (hCommit : Commits env cal subject id change ifMatch key s view s') (tasks : World)
    (clock : Time) (x₀ x₁ x₂ : State) :
    (changeSeries env cal' ack ⟨subject, id, change, ifMatch', key, validation⟩).Ends
        ((x₀, x₀) :: (change.validations x₁ ++
          [(x₂, x₂), (s₂.moved tasks clock, s₂.moved tasks clock)])) (.ok ⟨view, true⟩) ↔
      ack = .delivered ∧ (∃ current, x₀.get cal' subject id = .ok current ∧
        ∀ rule ∈ change.validated current, Acceptable cal' subject rule validation x₁.clock) ∧
      (∃ current, (s₂.moved tasks clock).get cal' subject id = .ok current) ∧
      (cal' view.request.timezone).isSome := by
  obtain ⟨row, row', -, v, -, hOwned, -, -, -, hVersions, hAnswers, rfl⟩ :=
    hCommit.made fun other x hx => (sound_run hRun s hBefore other).keyed x hx
  have hMem : v ∈ s'.versionsOf id := hVersions ▸ mem_append_right _ mem_cons_self
  obtain ⟨row₂, -, hOwned₂, -, hFind, -⟩ := hAnswers.later hRun hAfter hOwned hMem
  have hHere : (s₂.moved tasks clock).owned subject id = .ok row₂ := hOwned₂
  have hGet :
      (s₂.moved tasks clock).get cal' subject id = (s₂.moved tasks clock).view cal' row₂ := by
    unfold State.get
    rw [hHere]
    rfl
  have hStore : (s₂.moved tasks clock).change env cal' subject id change ifMatch' key x₂.clock =
        .ok (⟨v.snapshot, true⟩, s₂.moved tasks clock) ↔
      (∃ current, (s₂.moved tasks clock).get cal' subject id = .ok current) ∧
        (cal' v.snapshot.request.timezone).isSome := by
    rw [hGet]
    cases hView : (s₂.moved tasks clock).view cal' row₂ with
    | error e =>
      -- the stored rule is read before the table of versions
      have hFails : (s₂.moved tasks clock).change env cal' subject id change ifMatch' key x₂.clock =
          .error e := by
        unfold State.change
        rw [hHere]
        show ((s₂.moved tasks clock).view cal' row₂ >>= _) = _
        rw [hView]
        rfl
      rw [hFails]
      simp
    | ok current =>
      rw [change_of_version hHere hView hFind hAnswers]
      simp only [map_ok, validate_ok]
      simp
  rw [changeSeries_ends]
  simp only [hStore, ← and_assoc, exists_and_right]

/--
**When a repeated request is answered.** A creation or a change that was carried out in
some history is repeated under its key. The actions of the repetition take place in any
states: its validation reads the clock in `x₁`, its store gets the clock of `x₂`, and its
transaction finds the tables of any later state of the history, while the tasks and
files, the clock and the time zone database may have changed in any way.

* The creation is answered with its snapshot if and only if the database answers its
  COMMIT, its rule is acceptable by the clock of `x₁`, it has a first due instant by the
  clock of `x₂`, and its attachments can still be found.
* The change is answered with its snapshot if and only if the database answers its
  COMMIT, the series could be read in `x₀`, the rule to be validated is acceptable by the
  clock of `x₁`, the series can be read by the transaction, and the zone of the snapshot
  is known.
-/
theorem repeated_request_answered_iff {ps : Procs State Failure}
    (hRun : SeriesRun env cal h ps) :
    (∀ s s' t s₂ t₂, s' :: s :: t <:+ s₂ :: t₂ → s₂ :: t₂ <:+ h → ∀ subject request key view,
      Creates env cal subject request key s view s' → ∀ cal' ack tasks clock validation x₁ x₂,
        ((createSeries env cal' ack ⟨subject, request, key, validation⟩).Ends
            [(x₁, x₁), (x₂, x₂), (s₂.moved tasks clock, s₂.moved tasks clock)]
            (.ok ⟨view, true⟩) ↔
          ack = .delivered ∧ Acceptable cal' subject request validation x₁.clock ∧
          (∃ due, firstDue cal' request x₂.clock = .ok due) ∧
          ∃ found, templateAttachments subject.tenantId subject.aiUserId
            request.template.attachmentIds tasks.files = .ok found)) ∧
    ∀ s s' t s₂ t₂, s' :: s :: t <:+ s₂ :: t₂ → s₂ :: t₂ <:+ h →
      ∀ subject id change ifMatch key view,
        Commits env cal subject id change ifMatch key s view s' →
        ∀ cal' ack tasks clock validation ifMatch' x₀ x₁ x₂,
          ((changeSeries env cal' ack ⟨subject, id, change, ifMatch', key, validation⟩).Ends
              ((x₀, x₀) :: (change.validations x₁ ++
                [(x₂, x₂), (s₂.moved tasks clock, s₂.moved tasks clock)]))
              (.ok ⟨view, true⟩) ↔
            ack = .delivered ∧
            (∃ current, x₀.get cal' subject id = .ok current ∧ ∀ rule ∈ change.validated current,
              Acceptable cal' subject rule validation x₁.clock) ∧
            (∃ current, (s₂.moved tasks clock).get cal' subject id = .ok current) ∧
            (cal' view.request.timezone).isSome) := by
  have hSteps := hRun.steps
  constructor
  · intro s s' t s₂ t₂ hSuf hEnd subject request key view hCreate cal' ack tasks clock
      validation x₁ x₂
    exact hCreate.answered_iff (hSteps.of_suffix hEnd)
      (hSuf.subset mem_cons_self) tasks clock x₁ x₂
  · intro s s' t s₂ t₂ hSuf hEnd subject id change ifMatch key view hCommit cal' ack tasks
      clock validation ifMatch' x₀ x₁ x₂
    exact hCommit.answered_iff (hSteps.of_suffix hEnd)
      (hSuf.subset (mem_cons_of_mem _ mem_cons_self))
      (hSuf.subset mem_cons_self) tasks clock x₀ x₁ x₂

open Recurrence.Sample

/-- The creation of the sample series is answered again one day later, while the clock
goes on between its actions. -/
theorem repeated_request_answered_sample :
    ∃ s' t view x₁ x₂, history [.asked (.create .delivered creation)] = s' :: t ∧
      x₁.clock < x₂.clock ∧
      (createSeries plainEnv calendar .delivered creation).Ends [(x₁, x₁), (x₂, x₂), (s', s')]
        (.ok ⟨view, true⟩) := by
  obtain ⟨s, s', t, view, hEq, hCreate⟩ := creates
  obtain ⟨ps, hRun⟩ := history_run [.asked (.create .delivered creation)]
  refine ⟨s', s :: t, view, s'.moved s'.tasks (day 6), s'.moved s'.tasks (day 6 + 1), hEq,
    Int.lt_succ (day 6), ?_⟩
  rw [hEq] at hRun
  refine ((repeated_request_answered_iff hRun).1 s s' t s' (s :: t) suffix_rfl
    suffix_rfl _ _ _ view hCreate calendar .delivered s'.tasks s'.clock validation _ _).mpr
    ⟨rfl, ?_, ?_, [], rfl⟩
  · exact (checkTemplate_iff plainEnv).mp
      (by decide +kernel : checkTemplate plainEnv calendar _ _ _ (day 6) = .ok ())
  · exact ⟨_, (by decide +kernel : firstDue calendar daily (day 6 + 1) =
      .ok (some (day 6 + 9000000000)))⟩

/-- **Validation hides a request that was carried out.** The head creates a
series and repeats the request while the directory is missing: the request fails
instead of being answered with its snapshot. -/
theorem repeated_request_hidden :
    ¬ ∀ (env : SeriesEnv) (cal : Calendar) (h : List State) (ps : Procs State Failure),
      SeriesRun env cal h ps → ∀ s s' t s₂ t₂, s' :: s :: t <:+ s₂ :: t₂ → s₂ :: t₂ <:+ h →
        ∀ subject request key view, Creates env cal subject request key s view s' →
          ∀ cal' tasks clock validation,
            (createSeries env cal' .delivered ⟨subject, request, key, validation⟩).run
              (s₂.moved tasks clock) = (.ok ⟨view, true⟩, s₂.moved tasks clock) := by
  intro hClaim
  obtain ⟨s, s', t, view, hEq, hCreate⟩ := creates
  obtain ⟨ps, hRun⟩ := history_run [.asked (.create .delivered creation)]
  rw [hEq] at hRun
  have hAnswer := hClaim _ _ _ _ hRun s s' t s' (s :: t) suffix_rfl suffix_rfl _ _ _ view
    hCreate calendar s'.tasks (day 6) ⟨0, .error .organizationDirectoryMissing⟩
  -- the validation comes before the store is asked
  have hFails : checkTemplate plainEnv calendar Dispatch.Sample.head daily
      ⟨0, .error .organizationDirectoryMissing⟩ (day 6) =
      .error .organizationDirectoryMissing := by decide +kernel
  simp only [createSeries, validateTemplate, run_bind, run_read, run_ofExcept, State.moved,
    hFails] at hAnswer
  cases congrArg Prod.fst hAnswer

end EternalAI.Recurrence

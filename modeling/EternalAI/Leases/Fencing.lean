import EternalAI.Leases.Capacity
import EternalAI.Lib.Idle

/-!
# Browser leases — fencing of old claims

A claim is a value that its holder may use at any later time. Once the lease was
reserved again, released or quarantined, or has passed its deadline, the claim is
of no use for business: no operation with it succeeds or changes a row.

Nothing here depends on the revision of the claim. Within an epoch a lease never
comes back from quarantine or release, and a deadline that has passed cannot be
moved, since a renewal is itself business; so the end of an epoch is final for
every claim of it (`Over`).

* `Over.step`, `over_of_suffix` — an epoch that is over stays over.
* `stale_claims_fenced` — the main result.
-/

namespace EternalAI.Leases

open Lib List
open Dispatch (Str Time)

variable {env : LeaseEnv} {s s' : State} {t h : List State} {claim : Claim} {pool : Pool}
  {row row' : Lease} {ps : Procs State LeaseError}

/-! ## Claims in hand -/

/-- The claim is one of the lease that the binding has in this state. -/
def Claim.TakenFrom (claim : Claim) (s : State) : Prop :=
  ∃ row, s.lease claim.binding.key = some row ∧ row.leaseEpoch = claim.leaseEpoch

/-- The claims that operations return, with the states before and after the
transaction. -/
inductive Returned (env : LeaseEnv) (s s' : State) : Claim → Prop
  | reserve {auth : AuthFact} {binding : BindingFact} {pool : Pool} {duration : Time}
      {current : Except LeaseError Unit} {draw : Reservation} {claim : Claim} :
      s.reserve env auth binding pool duration current draw = .ok (claim, s') →
      Returned env s s' claim
  | start {claim next : Claim} {pool : Pool} {current : Except LeaseError Unit} :
      s.startAcquisition env claim pool current = .ok (next, s') → Returned env s s' next
  | record {claim next : Claim} {pool : Pool} {envelope : ResourceEnvelope} {evidence : Bytes}
      {current : Except LeaseError Unit} :
      s.recordAcquired env claim pool envelope evidence current = .ok (next, s') →
      Returned env s s' next
  | renew {claim next : Claim} {pool : Pool} {duration : Time}
      {current : Except LeaseError Unit} :
      s.renew env claim pool duration current = .ok (next, s') → Returned env s s' next
  | quarantine {claim next : Claim} {pool : Pool} :
      s.quarantine env claim pool = .ok (next, s') → Returned env s s' next
  | recover {key : BindingKey} {row : Lease} {claim : Claim} : s.lease key = some row →
      row.recovered = some claim → s' = s → Returned env s s' claim

theorem lease_put_of_found {key : BindingKey} (hFound : s.lease key = some row)
    (hKey : row'.key = row.key) : (s.putLease row').lease key = some row' := by
  rw [← lookup_key hFound, ← hKey]
  exact lease_putLease_self

theorem Writes.taken {next : Claim} (hWrites : Writes env s claim next s') :
    next.TakenFrom s' := by
  obtain ⟨hFound, -, hKey, hBinding, hEpoch⟩ := hWrites
  refine ⟨_, ?_, hEpoch⟩
  rw [hBinding]
  exact lease_put_of_found hFound hKey

/-- **A returned claim is taken from the state it was returned in.** -/
theorem Returned.taken (hReturned : Returned env s s' claim) : claim.TakenFrom s' := by
  cases hReturned with
  | @reserve auth binding pool duration current draw _ hOk =>
    have hReserves : Reserves env binding.key claim [s', s] :=
      ⟨auth, binding, pool, duration, current, draw, rfl, hOk⟩
    obtain ⟨-, -, -, -, hBinding, -⟩ := reserve_ok hOk
    obtain ⟨⟨row', hRow', hEpoch⟩, -⟩ := hReserves.epoch
    refine ⟨row', ?_, hEpoch⟩
    rw [hBinding]
    exact hRow'
  | start hOk => exact (startAcquisition_ok hOk).taken
  | record hOk => exact (recordAcquired_ok hOk).taken
  | renew hOk => exact (renew_ok hOk).taken
  | quarantine hOk => exact (quarantine_ok hOk).taken
  | @recover key row _ hRow hClaim hSame =>
    subst hSame
    simp only [Lease.recovered, Option.bind_eq_bind, Option.bind_eq_some_iff] at hClaim
    obtain ⟨_, -, _, -, _, -, _, -, _, -, _, -, _, -, _, -, hClaim⟩ := hClaim
    split at hClaim
    · cases hClaim
      refine ⟨row, ?_, rfl⟩
      rw [lookup_key hRow]
      exact hRow
    · cases hClaim

/-! ## The end of an epoch -/

/-- The lease of the claim was reserved again, released or quarantined, or has
passed its deadline. -/
def State.Lapsed (s : State) (claim : Claim) : Prop :=
  ∃ row, s.lease claim.binding.key = some row ∧
    (row.leaseEpoch ≠ claim.leaseEpoch ∨ row.state = .released ∨ row.state = .quarantined ∨
      ∃ deadline, row.deadline = some deadline ∧ deadline ≤ s.clock)

/-- No business is left for the claims of this epoch. -/
def Lease.Over (row : Lease) (epoch : Nat) (now : Time) : Prop :=
  epoch < row.leaseEpoch ∨ epoch = row.leaseEpoch ∧
    (row.state ≠ .held ∨ ∃ deadline, row.deadline = some deadline ∧ deadline ≤ now)

def Over (claim : Claim) (s : State) : Prop :=
  ∃ row, s.lease claim.binding.key = some row ∧ row.Over claim.leaseEpoch s.clock

variable {epoch : Nat} {now : Time}

theorem Lease.Over.later {now' : Time} (hOver : row.Over epoch now) (hTime : now ≤ now') :
    row.Over epoch now' := by
  rcases hOver with hLt | ⟨hEq, hState | ⟨deadline, hDeadline, hPast⟩⟩
  · exact .inl hLt
  · exact .inr ⟨hEq, .inl hState⟩
  · exact .inr ⟨hEq, .inr ⟨deadline, hDeadline, hPast.trans hTime⟩⟩

theorem Lease.Live.not_over (hLive : row.Live claim now) : ¬row.Over row.leaseEpoch now := by
  rintro (hLt | ⟨-, hState | ⟨deadline, hDeadline, hPast⟩⟩)
  · exact Nat.lt_irrefl _ hLt
  · exact hState hLive.current.2.2
  · have hSame : deadline = claim.deadline :=
      Option.some.inj (hDeadline.symm.trans hLive.current.2.1)
    exact absurd hLive.deadline (not_lt.mpr (hSame ▸ hPast))

/-- **A move does not bring an epoch back.** -/
theorem LeaseMove.over (hMove : LeaseMove env s (some row) row') (hOver : row.Over epoch s.clock) :
    row'.Over epoch s.clock := by
  -- business is only possible in a later epoch than one that is over
  have hNewer : ∀ {claim}, row.Live claim s.clock → epoch < row.leaseEpoch := by
    intro claim hLive
    rcases hOver with hLt | ⟨hEq, hRest⟩
    · exact hLt
    · exact absurd (.inr ⟨rfl, hRest⟩) hLive.not_over
  cases hMove with
  | @reserved _ free next hGet _ _ hEpoch _ =>
    obtain rfl : free = row := hGet
    have hNext : (free.reserved next s.clock).leaseEpoch = free.leaseEpoch + 1 := hEpoch
    have hLe : epoch ≤ free.leaseEpoch := by
      rcases hOver with hLt | ⟨hEq, -⟩ <;> omega
    exact .inl (by omega)
  -- these go through the fence
  | started hLive | recorded hLive | renewed hLive => exact .inl (hNewer hLive)
  | quarantined | cleared =>
    rcases hOver with hLt | ⟨hEq, -⟩
    · exact .inl hLt
    · exact .inr ⟨hEq, .inl fun hState => nomatch hState⟩

theorem Over.step (hOver : Over claim s) (hStep : LeaseStep env (s :: t) s') : Over claim s' := by
  obtain ⟨row, hRow, hOver⟩ := hOver
  obtain ⟨hTime, hSame | ⟨row', hTable, hMove⟩⟩ := hStep.effect
  · refine ⟨row, ?_, hOver.later hTime⟩
    rw [State.lease, hSame]
    exact hRow
  · unfold Over
    rw [lease_of_put hTable]
    split
    · rename_i hKey
      rw [← hKey, hRow] at hMove
      exact ⟨row', rfl, (hMove.over hOver).later hTime⟩
    · exact ⟨row, hRow, hOver.later hTime⟩

variable {s₁ : State} {t₁ : List State}

theorem over_of_suffix (hRun : Run Unleased (LeaseStep env) (s :: t)) (hOver : Over claim s₁)
    (hOrder : s₁ :: t₁ <:+ s :: t) : Over claim s := by
  have hAll := hRun.rel_head (R := fun a b => Over claim a → Over claim b) (fun _ hOver => hOver)
    (fun hFirst hSecond hOver => hSecond (hFirst hOver)) fun _ _ _ hStep hOver => hOver.step hStep
  exact hAll s₁ (hOrder.subset mem_cons_self) hOver

theorem over_of_lapsed {s₀ : State} (hRun : Run Unleased (LeaseStep env) (s :: t))
    (hMem : s₀ ∈ s :: t) (hTaken : claim.TakenFrom s₀) (hLapsed : s.Lapsed claim) :
    Over claim s := by
  obtain ⟨row₀, hRow₀, hEpoch⟩ := hTaken
  obtain ⟨row, hRow, hWhy⟩ := hLapsed
  obtain ⟨row₁, hRow₁, hLater⟩ := (within_later hRun s₀ hMem).2 _ row₀ hRow₀
  obtain rfl := Option.some.inj (hRow.symm.trans hRow₁)
  have hLe : claim.leaseEpoch ≤ row.leaseEpoch := hEpoch ▸ hLater.epoch
  refine ⟨row, hRow, ?_⟩
  -- in a later epoch the claim is over anyway; in its own one, for one of three reasons
  rcases Nat.lt_or_eq_of_le hLe with hLt | hEq
  · exact .inl hLt
  · refine .inr ⟨hEq, ?_⟩
    rcases hWhy with hNe | hReleased | hQuarantined | hPast
    · exact absurd hEq.symm hNe
    · exact .inl fun hHeld => nomatch hReleased.symm.trans hHeld
    · exact .inl fun hHeld => nomatch hQuarantined.symm.trans hHeld
    · exact .inr hPast

/-! ## What a claim can still do -/

theorem Over.refused {current : Except LeaseError Unit} (hOver : Over claim s) :
    s.businessLocked env claim pool current ≠ .ok row := by
  intro hOk
  obtain ⟨hFound, hLive⟩ := businessLocked_ok hOk
  obtain ⟨row₁, hRow₁, hOver⟩ := hOver
  obtain rfl := Option.some.inj (hFound.symm.trans hRow₁)
  rw [← hLive.owned.2.1] at hOver
  exact hLive.not_over hOver

/-- Whatever happens before each of its actions, the program changes nothing and
does not succeed. -/
abbrev Futile (env : LeaseEnv) {α : Type} (p : Prog State LeaseError α) (h : List State) : Prop :=
  Idle Unleased (LeaseStep env) (fun _ => False) p h

section Over

variable {s₁ : State} {t₁ : List State} {answers : Answers} (hOver : Over claim s₁)
  (hHere : s₁ :: t₁ <:+ h)

include hOver hHere

variable {current : Except LeaseError Unit}

theorem refused_later (hSuf : h <:+ s :: t) (hRun : Run Unleased (LeaseStep env) (s :: t)) :
    s.businessLocked env claim pool current ≠ .ok row :=
  (over_of_suffix hRun hOver (hHere.trans hSuf)).refused

theorem look_futile : Futile env (look (State.businessLocked env claim pool current)) h := by
  refine Idle.seq (Idle.read (Q := fun x => ∀ row, x ≠ .ok row) fun s t hSuf hRun row => ?_)
    fun x _ _ hNone => Idle.ofExcept fun row hOk => hNone row hOk
  exact refused_later hOver hHere hSuf hRun

theorem write_futile {α : Type} {k : State → Lease → Except LeaseError (α × State)} :
    Futile env (write answers fun s => s.businessLocked env claim pool current >>= k s) h := by
  refine Idle.transact fun s t hSuf hRun a s' hOk => ?_
  obtain ⟨row, hRow, -⟩ := bind_ok.mp hOk
  exact absurd hRow (refused_later hOver hHere hSuf hRun)

theorem startAcquisition_futile : Futile env (startAcquisition env claim answers) h :=
  Idle.ofExcept_seq fun _ _ => write_futile hOver hHere

theorem recordAcquired_futile (evidence : Bytes) :
    Futile env (recordAcquired env claim evidence answers) h :=
  Idle.ofExcept_seq fun _ _ => Idle.ofExcept_seq fun _ _ => (look_futile hOver hHere).stuck

theorem renew_futile (ttlSeconds : Int) : Futile env (renew env claim ttlSeconds answers) h :=
  Idle.ofExcept_seq fun _ _ => Idle.ofExcept_seq fun _ _ => write_futile hOver hHere

theorem authorizeResource_futile : Futile env (authorizeResource env claim answers) h :=
  Idle.ofExcept_seq fun _ _ => (look_futile hOver hHere).stuck

end Over

/-! ## Cleanup, once more -/

/-- The lease of the claim was released, and perhaps reserved again. -/
def Gone (claim : Claim) (s : State) : Prop :=
  ∃ row, s.lease claim.binding.key = some row ∧ (claim.leaseEpoch < row.leaseEpoch ∨
    claim.leaseEpoch = row.leaseEpoch ∧ row.state = .released)

theorem Gone.later (hGone : Gone claim s) (hLater : Later s s') : Gone claim s' := by
  obtain ⟨row, hRow, hWhy⟩ := hGone
  obtain ⟨row', hRow', hRows⟩ := hLater _ row hRow
  refine ⟨row', hRow', ?_⟩
  have hLe := hRows.epoch
  rcases hWhy with hLt | ⟨hEq, hState⟩
  · exact .inl (hLt.trans_le hLe)
  · rcases Nat.lt_or_eq_of_le hLe with hLt | hSame
    · exact .inl (hEq ▸ hLt)
    · exact .inr ⟨hEq.trans hSame, hRows.released hSame hState⟩

theorem Gone.over (hGone : Gone claim s) : Over claim s := by
  obtain ⟨row, hRow, hLt | ⟨hEq, hState⟩⟩ := hGone
  · exact ⟨row, hRow, .inl hLt⟩
  · exact ⟨row, hRow, .inr ⟨hEq, .inl fun hHeld => nomatch hState.symm.trans hHeld⟩⟩

theorem Gone.not_owned (hGone : Gone claim s) (hFound : s.lease claim.binding.key = some row) :
    ¬row.ownedBy claim := by
  intro hOwned
  obtain ⟨row₁, hRow₁, hWhy⟩ := hGone
  obtain rfl := Option.some.inj (hFound.symm.trans hRow₁)
  rcases hWhy with hLt | ⟨-, hState⟩
  · exact absurd hOwned.2.1 (Nat.ne_of_gt hLt)
  · exact hOwned.unreleased hState

variable {proof : Option Proof}

theorem gone_of_cleanup (hOk : s.cleanup env claim pool proof = .ok (true, s')) :
    Gone claim s' := by
  obtain ⟨row, hFound, ⟨hState, hEpoch, -, rfl⟩ |
    ⟨hOwned, revision, ⟨hNot, -⟩ | ⟨-, -, -, rfl⟩⟩⟩ := cleanup_ok hOk
  · exact ⟨row, hFound, .inr ⟨hEpoch.symm, hState⟩⟩
  · cases hNot
  · exact ⟨_, lease_put_of_found hFound rfl, .inr ⟨hOwned.2.1.symm, rfl⟩⟩

theorem Gone.cleanup {done : Bool} (hGone : Gone claim s)
    (hOk : s.cleanup env claim pool proof = .ok (done, s')) : s' = s ∧ done = true := by
  obtain ⟨row, hFound, ⟨-, -, hDone, hSame⟩ | ⟨hOwned, -⟩⟩ := cleanup_ok hOk
  · exact ⟨hSame, hDone⟩
  · exact absurd hOwned (hGone.not_owned hFound)

theorem Gone.snapshot (hGone : Gone claim s) : s.snapshot claim ≠ .ok row := by
  intro hOk
  unfold State.snapshot at hOk
  split at hOk
  · cases hOk
  · rename_i found hFound
    obtain ⟨_, hMatch, -⟩ := bind_ok.mp hOk
    exact hGone.not_owned hFound (ensure_ok.mp hMatch).1

theorem cleanup_idle {answers : Answers} (hGone : Gone claim s₁) (hHere : s₁ :: t₁ <:+ h)
    (evidence : Option Bytes) :
    Idle Unleased (LeaseStep env) (fun done => done = true)
      (cleanup env claim evidence answers) h := by
  -- whatever happens until the program comes to act, the lease is still gone then
  have hStill : ∀ s t, h <:+ s :: t → Run Unleased (LeaseStep env) (s :: t) → Gone claim s :=
    fun s t hSuf hRun => hGone.later
      (within_later hRun s₁ ((hHere.trans hSuf).subset mem_cons_self)).2
  refine Idle.ofExcept_seq fun pool _ => Idle.ofExcept_seq fun _ _ => ?_
  cases evidence with
  | none => exact Idle.transact fun s t hSuf hRun _ _ hOk => (hStill s t hSuf hRun).cleanup hOk
  | some evidence =>
    have hLook : Futile env (look (State.snapshot claim)) h :=
      Idle.seq (Idle.read (Q := fun x => ∀ row, x ≠ .ok row)
        fun s t hSuf hRun _ => (hStill s t hSuf hRun).snapshot)
        fun x _ _ hNone => Idle.ofExcept fun row hOk => hNone row hOk
    exact Idle.stuck hLook.stuck

/-! ## The main result -/

/--
**Old claims are fenced.** In every interleaving of lease operations: if the lease
of a claim from an earlier state was reserved again, released or quarantined, or
has passed its deadline, then from then on every transaction of its holder is
refused, and no start of an acquisition, record, renewal or authorisation with the
claim changes a row or succeeds, whatever else happens before each of its actions;
after a release as never sent no claim of that lease starts an acquisition; and a
cleanup that has succeeded changes nothing when it is repeated.
-/
theorem stale_claims_fenced (hRun : LeaseRun env h ps) :
    (∀ s₁ t₁ s₀ claim, s₁ :: t₁ <:+ h → s₀ ∈ s₁ :: t₁ → claim.TakenFrom s₀ → s₁.Lapsed claim →
      (∀ s t, s₁ :: t₁ <:+ s :: t → s :: t <:+ h → ∀ pool current row,
        s.businessLocked env claim pool current ≠ .ok row) ∧
      ∀ answers, Futile env (startAcquisition env claim answers) h ∧
        (∀ evidence, Futile env (recordAcquired env claim evidence answers) h) ∧
        (∀ ttlSeconds, Futile env (renew env claim ttlSeconds answers) h) ∧
        Futile env (authorizeResource env claim answers) h) ∧
    (∀ s' s t claim pool, s' :: s :: t <:+ h → s.cleanup env claim pool none = .ok (true, s') →
      ∀ old : Claim, old.binding.key = claim.binding.key → old.leaseEpoch = claim.leaseEpoch →
        ∀ answers, Futile env (startAcquisition env old answers) h) ∧
    ∀ s' s t claim pool proof, s' :: s :: t <:+ h →
      s.cleanup env claim pool proof = .ok (true, s') → ∀ evidence answers,
        Idle Unleased (LeaseStep env) (fun done => done = true)
          (cleanup env claim evidence answers) h := by
  have hSteps := hRun.steps
  refine ⟨fun s₁ t₁ s₀ claim hHere hMem hTaken hLapsed => ?_,
    fun s' s t claim pool hHere hOk old hKey hEpoch answers => ?_,
    fun s' s t claim pool proof hHere hOk evidence answers => ?_⟩
  · have hOver := over_of_lapsed (hSteps.of_suffix hHere) hMem hTaken hLapsed
    refine ⟨fun s t hOrder hNow pool current row => ?_, fun answers => ?_⟩
    · exact (over_of_suffix (hSteps.of_suffix hNow) hOver hOrder).refused
    · exact ⟨startAcquisition_futile hOver hHere, recordAcquired_futile hOver hHere,
        renew_futile hOver hHere, authorizeResource_futile hOver hHere⟩
  · -- `Over` is about the binding and the epoch, so it is the same for every claim of the lease
    obtain ⟨row, hRow, hOver⟩ := (gone_of_cleanup hOk).over
    have hOld : Over old s' := ⟨row, by rw [hKey]; exact hRow, by rw [hEpoch]; exact hOver⟩
    exact startAcquisition_futile hOld hHere
  · exact cleanup_idle (gone_of_cleanup hOk) hHere evidence

open Sample

/-- In the sample history the first claim is of no use after the binding was
reserved again, and its cleanup can be repeated. -/
theorem stale_claims_fenced_sample :
    Futile plainEnv (startAcquisition plainEnv (Sample.claim 1) answers) history ∧
    Futile plainEnv (authorizeResource plainEnv (Sample.claim 3) answers) history ∧
    Idle Unleased (LeaseStep plainEnv) (fun done => done = true)
      (cleanup plainEnv (Sample.claim 3) (some [2]) answers) history := by
  obtain ⟨ps, hRun⟩ := history_run
  rw [history_eq] at hRun ⊢
  obtain ⟨hFence, -, hAgain⟩ := stale_claims_fenced hRun
  obtain ⟨row₁, hRow₁, hEpoch₁⟩ : ∃ row ∈ one.lease bindingKey, row.leaseEpoch = 1 := by
    decide +kernel
  obtain ⟨row₅, hRow₅, hEpoch₅⟩ : ∃ row ∈ five.lease bindingKey, row.leaseEpoch = 2 := by
    decide +kernel
  have hTaken : ∀ revision, (Sample.claim revision).TakenFrom one :=
    fun _ => ⟨row₁, hRow₁, hEpoch₁⟩
  have hLapsed : ∀ revision, five.Lapsed (Sample.claim revision) := by
    refine fun _ => ⟨row₅, hRow₅, .inl ?_⟩
    rw [hEpoch₅]
    exact Nat.succ_ne_self 1
  have hMem : one ∈ [five, four, three, three, two, two, two, one, empty] := by
    simp only [mem_cons, true_or, or_true]
  obtain ⟨-, hFutile⟩ := hFence _ _ _ _ suffix_rfl hMem (hTaken 1) (hLapsed 1)
  obtain ⟨-, hFutile'⟩ := hFence _ _ _ _ suffix_rfl hMem (hTaken 3) (hLapsed 3)
  refine ⟨(hFutile answers).1, (hFutile' answers).2.2.2, ?_⟩
  exact hAgain four three _ (Sample.claim 3) pool (some proof) ⟨[five], rfl⟩ rfl (some [2]) answers

end EternalAI.Leases

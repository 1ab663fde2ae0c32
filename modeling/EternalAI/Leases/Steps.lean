import EternalAI.Leases.Service

/-!
# Browser leases — the steps of the table

Whatever operations are interleaved, the lease table moves by whole transactions
(`LeaseStep`), and a transaction writes at most one row. What it may make of that
row is `LeaseMove`: capacity, epochs and fencing are all proved from it.

* `LeaseRun.steps` — the states of every interleaving are a run of such steps.
* `LeaseStep.effect` — a step leaves the table alone or makes one move.
-/

namespace EternalAI.Leases

open Lib Safe
open Dispatch (Str Time)

variable {env : LeaseEnv} {s s' : State} {t h : List State} {claim next : Claim} {pool : Pool}
  {row : Lease} {current : Except LeaseError Unit}

/-- The fact was verified from the evidence, and it is one of a release. -/
def Proof.Verified (env : LeaseEnv) (claim : Claim) (pool : Pool) (proof : Proof) : Prop :=
  ∃ reading resource, env.verified reading claim pool resource proof.evidence = .ok proof.fact ∧
    proof.fact.outcome ≠ .acquired

inductive LeaseStep (env : LeaseEnv) : List State → State → Prop
  | outside {s s' : State} {t : List State} : Outside s s' → LeaseStep env (s :: t) s'
  | reserved {s s' : State} {t : List State} {auth : AuthFact} {binding : BindingFact}
      {pool : Pool} {duration : Time} {current : Except LeaseError Unit} {draw : Reservation}
      {claim : Claim} :
      s.reserve env auth binding pool duration current draw = .ok (claim, s') →
      LeaseStep env (s :: t) s'
  | started {s s' : State} {t : List State} {claim next : Claim} {pool : Pool}
      {current : Except LeaseError Unit} :
      s.startAcquisition env claim pool current = .ok (next, s') → LeaseStep env (s :: t) s'
  | recorded {s s' : State} {t : List State} {claim next : Claim} {pool : Pool}
      {envelope : ResourceEnvelope} {evidence : Bytes} {current : Except LeaseError Unit} :
      s.recordAcquired env claim pool envelope evidence current = .ok (next, s') →
      LeaseStep env (s :: t) s'
  | renewed {s s' : State} {t : List State} {claim next : Claim} {pool : Pool} {duration : Time}
      {current : Except LeaseError Unit} :
      s.renew env claim pool duration current = .ok (next, s') → LeaseStep env (s :: t) s'
  | quarantined {s s' : State} {t : List State} {claim next : Claim} {pool : Pool} :
      s.quarantine env claim pool = .ok (next, s') → LeaseStep env (s :: t) s'
  | cleaned {s s' : State} {t : List State} {claim : Claim} {pool : Pool}
      {proof : Option Proof} {done : Bool} :
      env.pool claim.providerKey = .ok pool → (∀ p ∈ proof, p.Verified env claim pool) →
      s.cleanup env claim pool proof = .ok (done, s') → LeaseStep env (s :: t) s'

/-! ## The operations take only such steps -/

theorem LeaseStep.same : LeaseStep env (s :: t) s := .outside ⟨le_refl _, rfl⟩

abbrev Acts (env : LeaseEnv) {α : Type} (p : Prog State LeaseError α) (h : List State) : Prop :=
  Safe Unleased (LeaseStep env) (fun _ _ => True) p h

variable {answers : Answers} {α : Type}

theorem write_acts {f : State → Except LeaseError (α × State)}
    (hf : ∀ s t a s', f s = .ok (a, s') → LeaseStep env (s :: t) s') :
    Acts env (write answers f) h :=
  Safe.transact (fun _ _ => .same) hf

theorem look_acts {f : State → Except LeaseError α} : Acts env (look f) h :=
  andThen (Safe.read (fun _ _ => .same) fun _ _ _ _ => trivial)
    fun _ => Safe.ofExcept fun _ _ => trivial

variable {auth : AuthFact} {binding : BindingFact} {ttlSeconds : Int} {draw : Reservation}

theorem reserve_acts {name : Str} :
    Acts env (reserve env auth binding name ttlSeconds draw answers) h := by
  refine ofExcept_seq fun duration _ => ofExcept_seq fun pool _ =>
    ofExcept_seq fun _ _ => ?_
  exact write_acts fun _ _ _ _ hOk => .reserved hOk

theorem startAcquisition_acts : Acts env (startAcquisition env claim answers) h :=
  ofExcept_seq fun _ _ => write_acts fun _ _ _ _ hOk => .started hOk

variable {evidence : Bytes}

theorem recordAcquired_acts : Acts env (recordAcquired env claim evidence answers) h := by
  refine ofExcept_seq fun pool _ => ofExcept_seq fun _ _ =>
    andThen look_acts fun row => require_seq fun _ => ?_
  refine ofExcept_seq fun _ _ => ofExcept_seq fun fact _ => require_seq fun _ => ?_
  refine andThen look_acts fun row => require_seq fun _ => ?_
  refine ofExcept_seq fun _ _ => ofExcept_seq fun _ _ => ofExcept_seq fun _ _ =>
    ofExcept_seq fun envelope _ => ?_
  exact write_acts fun _ _ _ _ hOk => .recorded hOk

theorem renew_acts : Acts env (renew env claim ttlSeconds answers) h :=
  ofExcept_seq fun _ _ => ofExcept_seq fun _ _ =>
    write_acts fun _ _ _ _ hOk => .renewed hOk

theorem authorizeResource_acts : Acts env (authorizeResource env claim answers) h := by
  refine ofExcept_seq fun pool _ => andThen look_acts fun row =>
    require_seq fun _ => ofExcept_seq fun found _ => ?_
  cases found with
  | none => exact trivial
  | some resource =>
    refine ofExcept_seq fun _ _ => ofExcept_seq fun _ _ => ?_
    exact andThen look_acts fun _ => trivial

theorem quarantine_acts : Acts env (quarantine env claim answers) h :=
  ofExcept_seq fun _ _ => ofExcept_seq fun _ _ =>
    write_acts fun _ _ _ _ hOk => .quarantined hOk

theorem provenRelease_safe :
    Safe Unleased (LeaseStep env) (fun proof _ => proof.Verified env claim pool)
      (provenRelease env claim pool evidence answers) h := by
  refine andThen look_acts fun row => ofExcept_seq fun resource _ =>
    ofExcept_seq fun fact hFact => require_seq fun hOutcome => ?_
  exact ⟨answers.verification, resource, hFact, hOutcome⟩

theorem cleanup_acts {evidence : Option Bytes} :
    Acts env (cleanup env claim evidence answers) h := by
  refine ofExcept_seq fun pool hPool => ofExcept_seq fun _ _ => ?_
  cases evidence with
  | none =>
    exact write_acts fun _ _ _ _ hOk =>
      .cleaned hPool (fun p hp => absurd hp (Option.not_mem_none p)) hOk
  | some evidence =>
    refine Safe.seq provenRelease_safe fun proof _ _ hProof => write_acts fun _ _ _ _ hOk => ?_
    refine .cleaned hPool (fun p hp => ?_) hOk
    rw [← Option.some.inj hp]
    exact hProof

variable {key : BindingKey}

theorem recoverCleanup_acts : Acts env (recoverCleanup env key answers) h := by
  refine ofExcept_seq fun _ _ => andThen (Safe.read
    (fun _ _ => .same) fun _ _ _ _ => trivial) fun found => ?_
  cases found with
  | none => exact trivial
  | some row =>
    refine require_seq fun _ => ofExcept_seq fun _ _ => ?_
    cases row.recovered with
    | none => exact trivial
    | some claim => exact ofExcept_seq fun _ _ => trivial

theorem leaseCall_acts (call : LeaseCall) (answers : Answers) :
    Acts env (call.program env answers) h := by
  cases call with
  | reserves auth binding name ttlSeconds draw => exact ended reserve_acts
  | starts claim => exact ended startAcquisition_acts
  | records claim evidence => exact ended recordAcquired_acts
  | renews claim ttlSeconds => exact ended renew_acts
  | authorizes claim => exact ended authorizeResource_acts
  | quarantines claim => exact ended quarantine_acts
  | cleans claim evidence => exact ended cleanup_acts
  | recovers key => exact ended recoverCleanup_acts

/-- **Interleavings of lease operations are runs of transactions.** -/
theorem LeaseRun.steps {ps : Procs State LeaseError} (hRun : LeaseRun env h ps) :
    Run Unleased (LeaseStep env) h := by
  refine (PoolRun.refines (fun _ _ _ => .outside) (fun _ _ _ => .same) ?_ hRun).1
  rintro i p ⟨call, answers, rfl⟩ h' -
  exact leaseCall_acts call answers

/-! ## What the transactions do -/

theorem increment_ok {value value' : Nat} (hOk : increment value = .ok value') :
    value' = value + 1 := by
  obtain ⟨-, hEq⟩ := ensure_bind_ok.mp hOk
  exact (Except.ok.inj hEq).symm

theorem locked_ok {locked : Locked} (hOk : s.locked env key pool = .ok locked) :
    env.limits pool.providerKey none = some locked.globalLimit ∧
    env.limits pool.providerKey (some key.tenantId) = some locked.tenantLimit ∧
    locked.row = s.lease key ∧ locked.now = s.clock := by
  unfold State.locked at hOk
  split at hOk
  · rename_i hGlobal hTenant
    obtain ⟨-, hOk⟩ := ensure_bind_ok.mp hOk
    split at hOk
    · cases hOk
    · cases hOk
      exact ⟨hGlobal, hTenant, rfl, rfl⟩
  · cases hOk

/-- A holder may do its business: the row is the one of the claim, and neither
the lease nor the authority has expired. -/
structure Lease.Live (row : Lease) (claim : Claim) (now : Time) : Prop where
  owned : row.ownedBy claim
  current : row.current claim
  deadline : now < claim.deadline
  auth : now < claim.auth.expiresAt

theorem businessLocked_ok (hOk : s.businessLocked env claim pool current = .ok row) :
    s.lease claim.binding.key = some row ∧ row.Live claim s.clock := by
  obtain ⟨locked, hLocked, hOk⟩ := bind_ok.mp hOk
  obtain ⟨-, -, hRow, hNow⟩ := locked_ok hLocked
  simp only [bind_ok] at hOk
  obtain ⟨binding, -, _, -, hOk⟩ := hOk
  rw [hRow, hNow] at hOk
  split at hOk
  · cases hOk
  · rename_i found hFound
    obtain ⟨_, hMatch, hOk⟩ := bind_ok.mp hOk
    obtain ⟨hTime, hEq⟩ := ensure_bind_ok.mp hOk
    obtain ⟨hOwned, hCurrent⟩ := ensure_ok.mp hMatch
    cases hEq
    exact ⟨hFound, hOwned, hCurrent rfl, hTime.1, hTime.2⟩

theorem claimLocked_ok (hOk : s.claimLocked env claim pool = .ok row) :
    s.lease claim.binding.key = some row := by
  obtain ⟨locked, hLocked, hOk⟩ := bind_ok.mp hOk
  obtain ⟨-, -, hRow, -⟩ := locked_ok hLocked
  rw [hRow] at hOk
  split at hOk
  · cases hOk
  · rename_i found hFound
    cases hOk
    exact hFound

def State.HasRoom (env : LeaseEnv) (s : State) (providerKey tenantId : Str) : Prop :=
  s.counted providerKey none < (env.limits providerKey none).getD 0 ∧
  s.counted providerKey (some tenantId) < (env.limits providerKey (some tenantId)).getD 0

theorem reserve_ok {duration : Time}
    (hOk : s.reserve env auth binding pool duration current draw = .ok (claim, s')) :
    ∃ row, row = (s.lease binding.key).getD (.blank binding.key s.clock) ∧
      row.key = binding.key ∧ row.state = .released ∧
      claim.binding = .fact binding ∧ claim.leaseEpoch = row.leaseEpoch + 1 ∧
      s.HasRoom env claim.providerKey binding.key.tenantId ∧
      s' = s.putLease (row.reserved claim s.clock) := by
  obtain ⟨locked, hLocked, hOk⟩ := bind_ok.mp hOk
  obtain ⟨hGlobal, hTenant, hRow, hNow⟩ := locked_ok hLocked
  simp only [bind_ok, ensure_ok, exists_const] at hOk
  obtain ⟨_, -, _, -, -, -, hFree, hRoom, epoch, hEpoch, revision, -, hOk⟩ := hOk
  cases hOk
  rw [hRow, hNow] at hFree hEpoch
  refine ⟨_, rfl, ?_, hFree, rfl, increment_ok hEpoch, ?_, by rw [hRow, hNow]⟩
  · -- a row that is found has the key; a binding without one gets a blank row
    cases hFound : s.lease binding.key with
    | none => rfl
    | some found => exact lookup_key hFound
  · unfold State.HasRoom
    rw [hGlobal, hTenant]
    exact hRoom

/-- What a transaction may write in the place of a row. -/
inductive LeaseMove (env : LeaseEnv) (s : State) : Option Lease → Lease → Prop
  | reserved {old : Option Lease} {row : Lease} {claim : Claim} :
      row = old.getD (.blank claim.binding.key s.clock) → row.key = claim.binding.key →
      row.state = .released → claim.leaseEpoch = row.leaseEpoch + 1 →
      s.HasRoom env claim.providerKey claim.binding.key.tenantId →
      LeaseMove env s old (row.reserved claim s.clock)
  | started {row : Lease} {claim : Claim} {revision : Nat} : row.Live claim s.clock →
      LeaseMove env s (some row) (row.started revision s.clock)
  | recorded {row : Lease} {claim : Claim} {revision : Nat} {envelope : ResourceEnvelope}
      {proof : Bytes} : row.Live claim s.clock →
      LeaseMove env s (some row) (row.recorded revision envelope proof s.clock)
  | renewed {row : Lease} {claim : Claim} {revision : Nat} {deadline : Time} :
      row.Live claim s.clock → LeaseMove env s (some row) (row.renewed revision deadline s.clock)
  | quarantined {row : Lease} {claim : Claim} {revision : Nat} {phase : AcquisitionPhase} :
      row.ownedBy claim → LeaseMove env s (some row) (row.quarantined revision phase s.clock)
  | cleared {row : Lease} {claim : Claim} {pool : Pool} {proof : Option Proof} {revision : Nat} :
      row.ownedBy claim → env.pool claim.providerKey = .ok pool →
      (∀ p ∈ proof, p.Verified env claim pool) → (proof = none → row.neverSent = true) →
      env.checkResource row claim proof = .ok () →
      LeaseMove env s (some row) (row.cleared revision
        ((proof.map (·.fact.outcome)).getD .released) (env.releaseDigest claim pool proof) s.clock)

/-- An operation with a claim that writes its row, and answers with a claim of its epoch. -/
inductive Writes (env : LeaseEnv) (s : State) (claim next : Claim) : State → Prop
  | mk {row row' : Lease} : s.lease claim.binding.key = some row →
      LeaseMove env s (some row) row' → row'.key = row.key → next.binding = claim.binding →
      row'.leaseEpoch = next.leaseEpoch → Writes env s claim next (s.putLease row')

variable {next : Claim}

theorem startAcquisition_ok (hOk : s.startAcquisition env claim pool current = .ok (next, s')) :
    Writes env s claim next s' := by
  obtain ⟨row, hRow, hOk⟩ := bind_ok.mp hOk
  obtain ⟨hFound, hLive⟩ := businessLocked_ok hRow
  simp only [bind_ok, ensure_ok, exists_const] at hOk
  obtain ⟨-, revision, -, hOk⟩ := hOk
  cases hOk
  exact .mk hFound (.started hLive) rfl rfl hLive.owned.2.1

theorem recordAcquired_ok {envelope : ResourceEnvelope}
    (hOk : s.recordAcquired env claim pool envelope evidence current = .ok (next, s')) :
    Writes env s claim next s' := by
  obtain ⟨row, hRow, hOk⟩ := bind_ok.mp hOk
  obtain ⟨hFound, hLive⟩ := businessLocked_ok hRow
  simp only [bind_ok, ensure_ok, exists_const] at hOk
  obtain ⟨-, revision, -, hOk⟩ := hOk
  cases hOk
  exact .mk hFound (.recorded hLive) rfl rfl hLive.owned.2.1

theorem renew_ok {duration : Time}
    (hOk : s.renew env claim pool duration current = .ok (next, s')) :
    Writes env s claim next s' := by
  obtain ⟨row, hRow, hOk⟩ := bind_ok.mp hOk
  obtain ⟨hFound, hLive⟩ := businessLocked_ok hRow
  obtain ⟨revision, -, hOk⟩ := bind_ok.mp hOk
  cases hOk
  exact .mk hFound (.renewed hLive) rfl rfl hLive.owned.2.1

theorem quarantine_ok (hOk : s.quarantine env claim pool = .ok (next, s')) :
    Writes env s claim next s' := by
  obtain ⟨row, hRow, hOk⟩ := bind_ok.mp hOk
  obtain ⟨_, hMatch, hOk⟩ := bind_ok.mp hOk
  obtain ⟨revision, -, hOk⟩ := bind_ok.mp hOk
  cases hOk
  -- no fence here: an expired lease may be put into quarantine as well
  have hOwned := (ensure_ok.mp hMatch).1
  exact .mk (claimLocked_ok hRow) (.quarantined hOwned) rfl rfl hOwned.2.1

/-- What a cleanup does with the row of its claim: it answers a repetition, it
keeps the lease in quarantine, or it gives it back. -/
theorem cleanup_ok {proof : Option Proof} {done : Bool}
    (hOk : s.cleanup env claim pool proof = .ok (done, s')) :
    ∃ row, s.lease claim.binding.key = some row ∧
      ((row.state = .released ∧ row.leaseEpoch = claim.leaseEpoch ∧ done = true ∧ s' = s) ∨
      row.ownedBy claim ∧ ∃ revision,
        ((done = false ∧ s' = s.putLease (row.quarantined revision .unknown s.clock)) ∨
        (proof = none → row.neverSent = true) ∧ env.checkResource row claim proof = .ok () ∧
          done = true ∧ s' = s.putLease (row.cleared revision
            ((proof.map (·.fact.outcome)).getD .released) (env.releaseDigest claim pool proof)
            s.clock))) := by
  obtain ⟨row, hRow, hOk⟩ := bind_ok.mp hOk
  refine ⟨row, claimLocked_ok hRow, ?_⟩
  split at hOk
  · rename_i hAgain
    cases hOk
    exact .inl ⟨hAgain.1, hAgain.2, rfl, rfl⟩
  · simp only [bind_ok] at hOk
    obtain ⟨_, hMatch, revision, -, hOk⟩ := hOk
    refine .inr ⟨(ensure_ok.mp hMatch).1, revision, ?_⟩
    split at hOk
    · cases hOk
      exact .inl ⟨rfl, rfl⟩
    · rename_i hSent
      obtain ⟨_, hResource, hOk⟩ := bind_ok.mp hOk
      cases hOk
      refine .inr ⟨fun hNone => ?_, hResource, rfl, rfl⟩
      subst hNone
      rw [Option.isNone_none, and_iff_left rfl, Bool.not_eq_false] at hSent
      exact hSent

theorem lease_putLease_self : (s.putLease row).lease row.key = some row := lookup_put_self

/-- **What a step does to the table**: time goes on, and at most one row is
written. -/
theorem LeaseStep.effect (hStep : LeaseStep env (s :: t) s') : s.clock ≤ s'.clock ∧
    (s'.leases = s.leases ∨ ∃ row', s'.leases = put Lease.key row' s.leases ∧
      LeaseMove env s (s.lease row'.key) row') := by
  -- a row is found under its key, so a written row takes the place of the one read
  have hMoved : ∀ {key : BindingKey} {row row' : Lease}, s.lease key = some row →
      row'.key = row.key → LeaseMove env s (some row) row' →
      LeaseMove env s (s.lease row'.key) row' := by
    intro key row row' hRow hKey hMove
    rw [hKey, lookup_key hRow, hRow]
    exact hMove
  have hWritten : ∀ {claim next : Claim}, Writes env s claim next s' → s.clock ≤ s'.clock ∧
      (s'.leases = s.leases ∨ ∃ row', s'.leases = put Lease.key row' s.leases ∧
        LeaseMove env s (s.lease row'.key) row') := by
    rintro claim next ⟨hFound, hMove, hKey, -, -⟩
    exact ⟨le_refl _, .inr ⟨_, rfl, hMoved hFound hKey hMove⟩⟩
  cases hStep with
  | outside hOut => exact ⟨hOut.clock, .inl hOut.leases⟩
  | reserved hOk =>
    obtain ⟨row, hRow, hKey, hFree, hBinding, hEpoch, hRoom, rfl⟩ := reserve_ok hOk
    refine ⟨le_refl _, .inr ⟨_, rfl, ?_⟩⟩
    show LeaseMove env s (s.lease row.key) _
    rw [hKey]
    refine .reserved ?_ ?_ hFree hEpoch ?_ <;> rw [hBinding]
    exacts [hRow, hKey, hRoom]
  | started hOk => exact hWritten (startAcquisition_ok hOk)
  | recorded hOk => exact hWritten (recordAcquired_ok hOk)
  | renewed hOk => exact hWritten (renew_ok hOk)
  | quarantined hOk => exact hWritten (quarantine_ok hOk)
  | cleaned hPool hProof hOk =>
    obtain ⟨row, hFound, ⟨-, -, -, rfl⟩ |
      ⟨hOwned, revision, ⟨-, rfl⟩ | ⟨hUnsent, hResource, -, rfl⟩⟩⟩ := cleanup_ok hOk
    · exact ⟨le_refl _, .inl rfl⟩
    · exact ⟨le_refl _, .inr ⟨_, rfl, hMoved hFound rfl (.quarantined hOwned)⟩⟩
    · exact ⟨le_refl _, .inr ⟨_, rfl, hMoved hFound rfl
        (.cleared hOwned hPool hProof hUnsent hResource)⟩⟩

end EternalAI.Leases

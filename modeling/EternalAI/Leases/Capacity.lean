import EternalAI.Leases.Steps

/-!
# Browser leases — capacity, epochs and releases

What holds along every interleaving of lease operations:

* the unreleased leases of a provider, of all tenants and of each tenant, stay
  within the configured limits, and a binding has at most one;
* the epoch of a binding grows from one reservation to the next;
* capacity is given back only for a lease for which nothing was ever sent, or
  with verified evidence that its resource was released or terminated.

Rows keep an invariant (`Lease.Sound`) and only get later (`Lease.Later`); the
counts are bounded because a reservation counts before it writes.

* `lease_capacity_kept` — the main result.
-/

namespace EternalAI.Leases

open Lib List
open Dispatch (Str Time)

variable {env : LeaseEnv} {s s' : State} {t h : List State} {row row' : Lease}
  {old : Option Lease} {key : BindingKey} {ps : Procs State LeaseError}

/-! ## A row, and a row later -/

structure Lease.Sound (row : Lease) : Prop where
  held : row.capacityHeld = true ↔ row.state ≠ .released
  provider : row.state ≠ .released → row.providerKey.isSome = true

/-- How the row of a binding may have changed. Within an epoch a release is
final, and a send is not forgotten before the release. -/
structure Lease.Later (row row' : Lease) : Prop where
  epoch : row.leaseEpoch ≤ row'.leaseEpoch
  released : row.leaseEpoch = row'.leaseEpoch → row.state = .released → row'.state = .released
  sent : row.leaseEpoch = row'.leaseEpoch → row.acquisitionSendStarted = true →
    row'.acquisitionSendStarted = true ∨ row'.state = .released

theorem Lease.Later.refl (row : Lease) : row.Later row :=
  ⟨Nat.le_refl _, fun _ hState => hState, fun _ hSent => .inl hSent⟩

theorem Lease.Later.trans {row'' : Lease} (hFirst : row.Later row') (hSecond : row'.Later row'') :
    row.Later row'' := by
  have hLe := hFirst.epoch
  have hLe' := hSecond.epoch
  -- epochs only grow, so equal ones at the ends are equal all the way
  refine ⟨hLe.trans hLe', fun hEq hState => ?_, fun hEq hSent => ?_⟩
  · exact hSecond.released (by omega) (hFirst.released (by omega) hState)
  · rcases hFirst.sent (by omega) hSent with hSent' | hState'
    · exact hSecond.sent (by omega) hSent'
    · exact .inr (hSecond.released (by omega) hState')

theorem Lease.ownedBy.unreleased {claim : Claim} (hOwned : row.ownedBy claim) :
    row.state ≠ .released := hOwned.2.2.2.2.2.2.2.2.2.2.2.2

/-- **A move keeps a row sound.** -/
theorem LeaseMove.sound (hMove : LeaseMove env s old row') (hOld : ∀ row ∈ old, row.Sound) :
    row'.Sound := by
  cases hMove with
  | reserved => exact ⟨⟨(nofun), fun _ => rfl⟩, fun _ => rfl⟩
  | @started row | @recorded row | @renewed row =>
    exact ⟨(hOld row rfl).held, (hOld row rfl).provider⟩
  | @quarantined row claim _ _ hOwned =>
    have hSound := hOld row rfl
    have hHeld := hSound.held.mpr hOwned.unreleased
    exact ⟨⟨(nofun), fun _ => hHeld⟩, fun _ => hSound.provider hOwned.unreleased⟩
  | cleared =>
    exact ⟨⟨nofun, fun hState => absurd rfl hState⟩,
      fun hState => absurd rfl hState⟩

/-- **A move takes a row to a later one.** -/
theorem LeaseMove.later (hMove : LeaseMove env s old row') : ∀ row ∈ old, row.Later row' := by
  intro row₀ hRow
  cases hMove with
  | @reserved _ row claim hGet hKey hFree hEpoch hRoom =>
    obtain rfl := Option.mem_def.mp hRow
    have hSame : row = row₀ := hGet
    subst hSame
    have hNext : (row.reserved claim s.clock).leaseEpoch = row.leaseEpoch + 1 := hEpoch
    -- a new epoch promises nothing about the one before
    refine ⟨by omega, fun hEq => ?_, fun hEq => ?_⟩ <;> omega
  | started =>
    cases hRow
    exact ⟨Nat.le_refl _, fun _ hState => hState, fun _ _ => .inl rfl⟩
  | recorded | renewed =>
    cases hRow
    exact ⟨Nat.le_refl _, fun _ hState => hState, fun _ hSent => .inl hSent⟩
  | quarantined hOwned =>
    cases hRow
    exact ⟨Nat.le_refl _, fun _ hState => absurd hState hOwned.unreleased,
      fun _ hSent => .inl hSent⟩
  | cleared =>
    cases hRow
    exact ⟨Nat.le_refl _, fun _ _ => rfl, fun _ _ => .inr rfl⟩

/-! ## Counting -/

/-- The row counts against this provider, for all tenants or for one. -/
def Lease.counts (providerKey : Str) (tenant : Option Str) (row : Lease) : Bool :=
  row.providerKey = some providerKey ∧ row.capacityHeld = true ∧
    ∀ tenantId ∈ tenant, row.key.tenantId = tenantId

variable {providerKey : Str} {tenant : Option Str}

theorem counted_eq :
    s.counted providerKey tenant = s.leases.countP (Lease.counts providerKey tenant) := rfl

theorem LeaseMove.counts_le (hMove : LeaseMove env s old row')
    (hCounts : row'.counts providerKey tenant = true) :
    old.any (Lease.counts providerKey tenant) = true ∨
    s.counted providerKey tenant < (env.limits providerKey tenant).getD 0 := by
  cases hMove with
  | @reserved _ row claim hGet hKey hFree hEpoch hRoom =>
    obtain ⟨hProvider, -, hTenant⟩ := of_decide_eq_true hCounts
    obtain rfl : claim.providerKey = providerKey := Option.some.inj hProvider
    -- a reservation has counted both before it writes
    refine .inr ?_
    cases tenant with
    | none => exact hRoom.1
    | some tenantId =>
      have hSame : row.key.tenantId = tenantId := hTenant tenantId rfl
      rw [← hSame, hKey]
      exact hRoom.2
  | started | recorded | renewed | quarantined => exact .inl hCounts
  | cleared => simp [Lease.counts, Lease.cleared, Lease.blank] at hCounts

theorem LeaseMove.counted_le (hMove : LeaseMove env s (s.lease row'.key) row')
    (hTable : s'.leases = put Lease.key row' s.leases)
    (hWithin : s.counted providerKey tenant ≤ (env.limits providerKey tenant).getD 0) :
    s'.counted providerKey tenant ≤ (env.limits providerKey tenant).getD 0 := by
  have hPut : (put Lease.key row' s.leases).countP (Lease.counts providerKey tenant) +
      (if (lookup Lease.key row'.key s.leases).any (Lease.counts providerKey tenant) then 1
        else 0) =
      s.leases.countP (Lease.counts providerKey tenant) +
        if row'.counts providerKey tenant then 1 else 0 := countP_put _
  rw [← hTable, ← counted_eq, ← counted_eq] at hPut
  -- the count grows only if the new row counts and the one it replaces did not
  by_cases hCounts : row'.counts providerKey tenant = true
  · rw [if_pos hCounts] at hPut
    rcases hMove.counts_le hCounts with hOld | hRoom
    · rw [if_pos (show (lookup Lease.key row'.key s.leases).any _ = true from hOld)] at hPut
      omega
    · omega
  · rw [if_neg hCounts] at hPut
    omega

/-! ## Runs -/

structure Within (env : LeaseEnv) (s : State) : Prop where
  keys : (s.leases.map Lease.key).Nodup
  rows : ∀ key row, s.lease key = some row → row.Sound
  counted : ∀ providerKey tenant,
    s.counted providerKey tenant ≤ (env.limits providerKey tenant).getD 0

def Later (s s' : State) : Prop :=
  ∀ key row, s.lease key = some row → ∃ row', s'.lease key = some row' ∧ row.Later row'

theorem Later.refl (s : State) : Later s s := fun _ row hRow => ⟨row, hRow, .refl row⟩

theorem Later.trans {s'' : State} (hFirst : Later s s') (hSecond : Later s' s'') : Later s s'' := by
  intro key row hRow
  obtain ⟨row', hRow', hLater⟩ := hFirst key row hRow
  obtain ⟨row'', hRow'', hLater'⟩ := hSecond key row' hRow'
  exact ⟨row'', hRow'', hLater.trans hLater'⟩

theorem lease_of_put (hTable : s'.leases = put Lease.key row' s.leases) (key : BindingKey) :
    s'.lease key = if key = row'.key then some row' else s.lease key := by
  unfold State.lease
  rw [hTable]
  by_cases hKey : key = row'.key
  · rw [if_pos hKey, hKey, lookup_put_self]
  · rw [if_neg hKey, lookup_put_of_ne hKey]

theorem LeaseStep.within_later (hStep : LeaseStep env (s :: t) s') (hWithin : Within env s) :
    Within env s' ∧ Later s s' := by
  obtain ⟨-, hSame | ⟨row', hTable, hMove⟩⟩ := hStep.effect
  · have hLease : ∀ key, s'.lease key = s.lease key := fun key => by
      rw [State.lease, State.lease, hSame]
    refine ⟨⟨hSame ▸ hWithin.keys, fun key row hRow => ?_, fun pk tenant => ?_⟩,
      fun key row hRow => ?_⟩
    · exact hWithin.rows key row (hLease key ▸ hRow)
    · rw [counted_eq, hSame]
      exact hWithin.counted pk tenant
    · exact ⟨row, (hLease key).trans hRow, .refl row⟩
  · have hLease := lease_of_put hTable
    refine ⟨⟨?_, fun key row hRow => ?_, fun pk tenant => ?_⟩, fun key row hRow => ?_⟩
    · rw [hTable]
      exact nodup_put hWithin.keys
    · rw [hLease] at hRow
      split at hRow
      · rw [← Option.some.inj hRow]
        exact hMove.sound fun row hOld => hWithin.rows _ row hOld
      · exact hWithin.rows key row hRow
    · exact hMove.counted_le hTable (hWithin.counted pk tenant)
    · rw [hLease]
      split
      · rename_i hKey
        exact ⟨row', rfl, hMove.later row (hKey ▸ hRow)⟩
      · exact ⟨row, hRow, .refl row⟩

theorem within_later (hRun : Run Unleased (LeaseStep env) (s :: t)) :
    ∀ s₀ ∈ s :: t, Within env s₀ ∧ Later s₀ s := by
  refine hRun.mem_inv_rel ?_ Later.refl Later.trans ?_
  · intro s hEmpty
    refine ⟨?_, fun key row hRow => ?_, fun pk tenant => ?_⟩
    · rw [hEmpty]
      exact nodup_nil
    · rw [State.lease, hEmpty] at hRow
      cases hRow
    · rw [counted_eq, hEmpty]
      exact Nat.zero_le _
  · intro s t s' hPast hStep
    exact hStep.within_later (hPast s mem_cons_self).1

theorem within_of_mem (hRun : Run Unleased (LeaseStep env) h) : ∀ s ∈ h, Within env s := by
  obtain ⟨s₀, t₀, rfl⟩ := exists_cons_of_ne_nil hRun.ne_nil
  exact fun s hs => (within_later hRun s hs).1

/-! ## Unreleased leases, reservations and releases -/

def State.unreleased (s : State) (providerKey : Str) (tenant : Option Str) : Nat :=
  s.leases.countP fun row => row.state ≠ .released ∧ row.providerKey = some providerKey ∧
    ∀ tenantId ∈ tenant, row.key.tenantId = tenantId

theorem Within.unreleased_eq (hWithin : Within env s) (providerKey : Str) (tenant : Option Str) :
    s.unreleased providerKey tenant = s.counted providerKey tenant := by
  refine countP_congr fun row hRow => ?_
  have hSound := hWithin.rows row.key row (lookup_of_mem hWithin.keys hRow)
  rw [decide_eq_true_iff, decide_eq_true_iff, hSound.held]
  exact ⟨fun hAll => ⟨hAll.2.1, hAll.1, hAll.2.2⟩, fun hAll => ⟨hAll.2.1, hAll.1, hAll.2.2⟩⟩

/-- In the last step of this history the binding was reserved with this claim. -/
def Reserves (env : LeaseEnv) (key : BindingKey) (claim : Claim) : List State → Prop
  | s' :: s :: _ => ∃ auth binding pool duration current draw, binding.key = key ∧
      s.reserve env auth binding pool duration current draw = .ok (claim, s')
  | _ => False

theorem Reserves.shape {claim : Claim} {p : List State} (hReserves : Reserves env key claim p) :
    ∃ s' s t, p = s' :: s :: t := by
  cases p with
  | nil => exact hReserves.elim
  | cons s' rest =>
    cases rest with
    | nil => exact hReserves.elim
    | cons s t => exact ⟨s', s, t, rfl⟩

theorem Reserves.epoch {claim : Claim} (hReserves : Reserves env key claim (s' :: s :: t)) :
    (∃ row', s'.lease key = some row' ∧ row'.leaseEpoch = claim.leaseEpoch) ∧
    ∀ row, s.lease key = some row → row.leaseEpoch < claim.leaseEpoch := by
  obtain ⟨auth, binding, pool, duration, current, draw, rfl, hOk⟩ := hReserves
  obtain ⟨row, hRow, hKey, -, -, hEpoch, -, rfl⟩ := reserve_ok hOk
  refine ⟨⟨row.reserved claim s.clock, ?_, rfl⟩, fun found hFound => ?_⟩
  · rw [← hKey]
    exact lease_putLease_self
  · rw [hFound] at hRow
    have hSame : row = found := hRow
    rw [hEpoch, hSame]
    exact Nat.lt_succ_self _

/-- Nothing was sent for this lease, now or earlier in its epoch. -/
def Lease.UnsentIn (row : Lease) (h : List State) : Prop :=
  row.neverSent = true ∧ ∀ s ∈ h, ∀ row₀, s.lease row.key = some row₀ →
    row₀.leaseEpoch = row.leaseEpoch → row₀.acquisitionSendStarted = false

/-- There is verified evidence that the resource of this lease was released or
terminated, and the release keeps its outcome and its digest. -/
def Lease.ProvenGone (env : LeaseEnv) (row row' : Lease) : Prop :=
  ∃ claim pool reading resource evidence fact, row.ownedBy claim ∧
    env.pool claim.providerKey = .ok pool ∧
    env.verify reading (env.expectation claim pool resource) evidence = .ok fact ∧
    fact.meets (env.expectation claim pool resource) ∧
    (fact.outcome = .released ∨ fact.outcome = .terminated) ∧
    (∀ envelope ∈ row.resource, env.decrypt claim envelope = .ok fact.resourceRef) ∧
    row'.releaseOutcome = some fact.outcome ∧
    row'.releaseProofDigest = some (env.digest .releaseProof evidence)

theorem verified_ok {reading : Nat} {claim : Claim} {pool : Pool} {resource : Option Bytes}
    {evidence : Bytes} {fact : ProviderFact}
    (hOk : env.verified reading claim pool resource evidence = .ok fact) :
    env.verify reading (env.expectation claim pool resource) evidence = .ok fact ∧
    fact.meets (env.expectation claim pool resource) := by
  obtain ⟨-, hOk⟩ := ensure_bind_ok.mp hOk
  obtain ⟨found, hVerify, hOk⟩ := bind_ok.mp hOk
  obtain ⟨hMeets, hEq⟩ := ensure_bind_ok.mp hOk
  cases hEq
  exact ⟨hVerify, hMeets⟩

theorem checkResource_ok {claim : Claim} {proof : Proof}
    (hOk : env.checkResource row claim (some proof) = .ok ()) :
    ∀ envelope ∈ row.resource, env.decrypt claim envelope = .ok proof.fact.resourceRef := by
  intro envelope hEnvelope
  obtain ⟨resource, hResource, hSame⟩ := bind_ok.mp hOk
  unfold LeaseEnv.resource at hResource
  rw [Option.mem_def.mp hEnvelope] at hResource
  obtain ⟨found, hFound, hEq⟩ := bind_ok.mp hResource
  cases hEq
  rw [hFound, ensure_ok.mp hSame found rfl]

/-- **Capacity is given back for nothing else.** -/
theorem LeaseMove.given_back (hMove : LeaseMove env s (some row) row')
    (hHeld : row.capacityHeld = true) (hBack : row'.capacityHeld = false) :
    row.neverSent = true ∨ row.ProvenGone env row' := by
  cases hMove with
  | reserved => cases hBack
  | started | recorded | renewed | quarantined => exact absurd (hHeld.symm.trans hBack) (by decide)
  | @cleared _ claim pool proof _ hOwned hPool hProof hUnsent hResource =>
    cases proof with
    | none => exact .inl (hUnsent rfl)
    | some proof =>
      -- cleanup refuses evidence of an acquisition, so it is of a release or a termination
      obtain ⟨reading, resource, hVerified, hOutcome⟩ := hProof proof rfl
      obtain ⟨hVerify, hMeets⟩ := verified_ok hVerified
      refine .inr ⟨claim, pool, reading, resource, proof.evidence, proof.fact, hOwned, hPool,
        hVerify, hMeets, ?_, checkResource_ok hResource, rfl, rfl⟩
      cases hFact : proof.fact.outcome with
      | acquired => exact absurd hFact hOutcome
      | released => exact .inl rfl
      | terminated => exact .inr rfl

/-- A lease for which nothing is sent now had nothing sent in its epoch. -/
theorem unsentIn_of_neverSent (hRun : Run Unleased (LeaseStep env) (s :: t))
    (hRow : s.lease key = some row) (hHeld : row.capacityHeld = true)
    (hUnsent : row.neverSent = true) : row.UnsentIn (s :: t) := by
  refine ⟨hUnsent, fun s₀ hMem row₀ hRow₀ hEpoch => ?_⟩
  obtain ⟨row₁, hRow₁, hLater⟩ := (within_later hRun s₀ hMem).2 _ row₀ hRow₀
  rw [lookup_key hRow, hRow, Option.some.injEq] at hRow₁
  subst hRow₁
  have hOpen := ((within_later hRun s mem_cons_self).1.rows key row hRow).held.mp hHeld
  -- a send is forgotten at the release only, and a lease that holds its place is not released
  rw [← Bool.not_eq_true]
  intro hSent
  rcases hLater.sent hEpoch hSent with hStill | hReleased
  · simp [Lease.neverSent, hStill] at hUnsent
  · exact hOpen hReleased

/-! ## The main result -/

/--
**Lease capacity.** In every interleaving of lease operations: the unreleased
leases of each provider, of all tenants and of each tenant, are within the
configured limit (none where no limit is configured), and every unreleased lease
belongs to a provider; a binding has at most one unreleased lease; of two
reservations of a binding the later one has the greater epoch; and a step that
gives capacity back does so for a lease for which nothing was ever sent, or with
a verified proof that its resource was released or terminated.
-/
theorem lease_capacity_kept (hRun : LeaseRun env h ps) :
    (∀ s ∈ h, ∀ providerKey tenant,
      s.unreleased providerKey tenant ≤ (env.limits providerKey tenant).getD 0) ∧
    (∀ s ∈ h, ∀ row ∈ s.leases, row.state ≠ .released → row.providerKey.isSome = true) ∧
    (∀ s ∈ h, ∀ key, (s.leases.countP fun row => row.key = key ∧ row.state ≠ .released) ≤ 1) ∧
    (∀ p₁ p₂ key claim₁ claim₂, p₂ <:+ h → p₁ <:+ p₂ → p₁ ≠ p₂ → Reserves env key claim₁ p₁ →
      Reserves env key claim₂ p₂ → claim₁.leaseEpoch < claim₂.leaseEpoch) ∧
    ∀ s' s t, s' :: s :: t <:+ h → ∀ key row, s.lease key = some row → row.capacityHeld = true →
      ∃ row', s'.lease key = some row' ∧ (row'.capacityHeld = false →
        row.UnsentIn (s :: t) ∨ row.ProvenGone env row') := by
  have hSteps := hRun.steps
  refine ⟨fun s hs pk tenant => ?_, fun s hs row hRow hOpen => ?_, fun s hs key => ?_, ?_, ?_⟩
  · have hWithin := within_of_mem hSteps s hs
    rw [hWithin.unreleased_eq]
    exact hWithin.counted pk tenant
  · have hWithin := within_of_mem hSteps s hs
    exact (hWithin.rows row.key row (lookup_of_mem hWithin.keys hRow)).provider hOpen
  · -- Keys do not repeat in the table, released rows included.
    calc (s.leases.countP fun row => row.key = key ∧ row.state ≠ .released)
        ≤ s.leases.countP fun row => row.key = key :=
          countP_mono_left fun row _ hBoth => by simp_all
      _ = (s.leases.map Lease.key).count key := by
          rw [List.count, countP_map]
          refine countP_congr fun row _ => ?_
          simp
      _ ≤ 1 := nodup_iff_count_le_one.mp (within_of_mem hSteps s hs).keys key
  · intro p₁ p₂ key claim₁ claim₂ hHere hOrder hApart hFirst hSecond
    obtain ⟨s₁', s₁, t₁, rfl⟩ := hFirst.shape
    obtain ⟨s₂', s₂, t₂, rfl⟩ := hSecond.shape
    obtain ⟨⟨row₁, hRow₁, hEpoch₁⟩, -⟩ := hFirst.epoch
    have hBefore : s₁' :: s₁ :: t₁ <:+ s₂ :: t₂ :=
      (suffix_cons_iff.mp hOrder).resolve_left hApart
    have hPast := hSteps.of_suffix ((suffix_cons _ _).trans hHere)
    -- The row that the second reservation finds has at least the epoch of the first.
    obtain ⟨row₂, hRow₂, hLater⟩ :=
      (within_later hPast s₁' (hBefore.subset mem_cons_self)).2 key row₁ hRow₁
    calc claim₁.leaseEpoch = row₁.leaseEpoch := hEpoch₁.symm
      _ ≤ row₂.leaseEpoch := hLater.epoch
      _ < claim₂.leaseEpoch := hSecond.epoch.2 row₂ hRow₂
  · intro s' s t hHere key row hRow hHeld
    have hNow := hSteps.of_suffix hHere
    have hPast := hSteps.of_suffix ((suffix_cons _ _).trans hHere)
    -- A step writes at most one row, and only that one can give its capacity back.
    obtain ⟨-, hSame | ⟨row', hTable, hMove⟩⟩ := hNow.last_step.effect
    · refine ⟨row, by rw [State.lease, hSame]; exact hRow, fun hBack => ?_⟩
      exact absurd (hHeld.symm.trans hBack) (by decide)
    · rw [lease_of_put hTable]
      split
      · rename_i hKey
        subst hKey
        rw [hRow] at hMove
        refine ⟨row', rfl, fun hBack => ?_⟩
        exact (hMove.given_back hHeld hBack).imp_left (unsentIn_of_neverSent hPast hRow hHeld)
      · refine ⟨row, hRow, fun hBack => absurd (hHeld.symm.trans hBack) (by decide)⟩

namespace Sample

def pool : Pool := ⟨['p'], [['a']], [7]⟩

/-- One pool with one place. Evidence `[1]` is of an acquisition, any other of a
release. -/
def plainEnv : LeaseEnv where
  registry := some ⟨[pool], by decide⟩
  limits := fun _ _ => some 1
  challenge := fun _ digest => digest
  digest := fun _ bytes => bytes
  encrypt := fun _ _ resource => .ok ⟨['v'], ['k'], [0], resource⟩
  decrypt := fun _ envelope => .ok envelope.encryptedPayload
  verify := fun _ expected evidence => .ok ⟨expected.claim.providerKey, expected.claim.operationId,
    expected.claim.holderId, expected.claim.leaseEpoch, expected.challenge,
    expected.manifestDigest, [9], if evidence = [1] then .acquired else .released⟩

def bindingKey : BindingKey := ⟨['t'], ['u'], .oa, ['b']⟩

def binding : BindingFact := ⟨bindingKey, 1, [5]⟩

def auth : AuthFact := ⟨⟨['t'], ['u'], ['s']⟩, some 1, none, [6], 1000000000, by decide⟩

def answers : Answers := ⟨fun _ => .ok (), .ok (), .ok (), .ok (), 0, 0, .delivered⟩

def draw (name : Char) : Reservation := ⟨[name], ['o', name], true⟩

def empty : State := ⟨0, fun _ => some ⟨1, .active, [5], none⟩, []⟩

def claim (revision : Nat) : Claim :=
  ⟨auth, .fact binding, 1, revision, ['x'], ['o', 'x'], ['p'], 60000000⟩

/-- A lease is reserved through the alias, its resource acquired and released, and
the binding reserved again. -/
def turns : List (Turn State LeaseError) :=
  [.call ((LeaseCall.reserves auth binding ['a'] 60 (draw 'x')).program plainEnv answers),
    .call ((LeaseCall.starts (claim 1)).program plainEnv answers),
    .call ((LeaseCall.records (claim 2) [1]).program plainEnv answers),
    .call ((LeaseCall.cleans (claim 3) (some [2])).program plainEnv answers),
    .call ((LeaseCall.reserves auth binding ['p'] 60 (draw 'y')).program plainEnv answers)]

def history : List State := Turn.inTurn turns [empty]

theorem history_run : ∃ ps, LeaseRun plainEnv history ps := by
  have hEmpty : Unleased empty := rfl
  refine PoolRun.inTurn hEmpty ?_
  simp only [turns, forall_mem_cons]
  refine ⟨?_, ?_, ?_, ?_, ?_, nofun⟩ <;> exact fun _ => ⟨_, _, rfl⟩

def reserving (name : Char) : State → Except LeaseError (Claim × State) :=
  State.reserve plainEnv auth binding pool 60000000 (.ok ()) (draw name)

def one : State := Prog.committed (reserving 'x') empty

def two : State := Prog.committed (State.startAcquisition plainEnv (claim 1) pool (.ok ())) one

def three : State :=
  Prog.committed (State.recordAcquired plainEnv (claim 2) pool ⟨['v'], ['k'], [0], [9]⟩ [1]
    (.ok ())) two

def proof : Proof := ⟨[2], ⟨['p'], ['o', 'x'], ['x'], 1, [7], [7], [9], .released⟩⟩

def four : State := Prog.committed (State.cleanup plainEnv (claim 3) pool (some proof)) three

def five : State := Prog.committed (reserving 'y') four

def again : Claim := ⟨auth, .fact binding, 2, 5, ['y'], ['o', 'y'], ['p'], 60000000⟩

theorem history_eq : history = [five, four, three, three, two, two, two, one, empty] := rfl

end Sample

open Sample

/-- In the sample history the place is taken again after a proven release, under
a greater epoch. -/
theorem lease_capacity_kept_sample :
    five.unreleased ['p'] none = 1 ∧ five.unreleased ['p'] none ≤ 1 ∧
    (claim 1).leaseEpoch < again.leaseEpoch ∧
    ∃ row row', three.lease bindingKey = some row ∧
      four.lease bindingKey = some row' ∧ row.capacityHeld = true ∧
      row'.capacityHeld = false ∧ row.ProvenGone plainEnv row' := by
  obtain ⟨ps, hRun⟩ := history_run
  rw [history_eq] at hRun
  obtain ⟨hCapacity, -, -, hEpochs, hBack⟩ := lease_capacity_kept hRun
  have hFirst : Reserves plainEnv bindingKey (claim 1) [one, empty] :=
    ⟨auth, binding, pool, 60000000, .ok (), draw 'x', rfl, rfl⟩
  have hSecond : Reserves plainEnv bindingKey again [five, four, three, three, two, two, two,
        one, empty] :=
    ⟨auth, binding, pool, 60000000, .ok (), draw 'y', rfl, rfl⟩
  obtain ⟨row, hRow, hHeldRow, hSentRow⟩ : ∃ row ∈ three.lease bindingKey,
      row.capacityHeld = true ∧ row.neverSent = false := by decide +kernel
  have hFreed : ∀ row ∈ four.lease bindingKey, row.capacityHeld = false := by decide +kernel
  obtain ⟨row', hRow', hGone⟩ := hBack four three _ ⟨[five], rfl⟩ bindingKey row hRow hHeldRow
  have hFreed := hFreed row' hRow'
  refine ⟨by decide +kernel, hCapacity five mem_cons_self ['p'] none,
    hEpochs _ _ bindingKey _ _ suffix_rfl ⟨[five, four, three, three, two, two, two],
        rfl⟩ (fun hEq => by simpa using congrArg List.length hEq) hFirst hSecond,
    row, row', hRow, hRow', hHeldRow, hFreed, ?_⟩
  exact (hGone hFreed).resolve_left fun hUnsent =>
    absurd (hUnsent.1.symm.trans hSentRow) (by decide)

end EternalAI.Leases

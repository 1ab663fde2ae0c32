import EternalAI.Lib.Except
import EternalAI.Lib.Run
import EternalAI.Mcp.Model

/-!
# Governed MCP operations — concurrent driver calls

`McpDriver.call` lets four exchanges run at once, and one for each connection. A call waits
for one of four permits and then for the lock of its connection, which is in a table as
long as calls use it.

A call is interrupted only where it awaits something: `enter` is what it does before,
`Call.advance` what it does when it goes on, and `Call.leave` the `finally` block. It may be
answered, fail, time out or be cancelled wherever it is. A permit or a lock is taken when the
call goes on with it; a call that is cut before gives it back.

* `Sound` — what is counted, in terms of the calls and where they are.
* `driver_calls_bounded` — what holds in every interleaving.
-/

namespace EternalAI.Mcp.Driver

open Lib List Function

/-! ## Calls -/

/-- What identifies a connection. -/
structure Key where
  (tenantId userId serviceConfigId connectionId : String)
  deriving DecidableEq

def keyOf (context : McpAuthorizationContext) : Key :=
  ⟨context.tenantId, context.userId, context.serviceConfigId, context.connectionId⟩

/-- What a call waits for, if it has not got both. -/
inductive Point where
  | permit
  | lock
  | attempt
  deriving DecidableEq

structure Call where
  key : Key
  lock : Nat
  point : Point

/-- The columns of `ServiceConfig` that a call is checked against. -/
structure ServiceConfig where
  enabled : Bool
  tenantId : String
  serviceConfigVersion : Nat

/-- `mcp_service_unavailable`, `mcp_queue_full`. -/
inductive Refusal where
  | serviceUnavailable
  | queueFull
  deriving DecidableEq

/-- `McpDriver`. Locks are told apart by a number. -/
structure State where
  permits : Nat
  locked : Nat → Bool
  locks : Nat
  connections : Key → Option Nat
  connectionUsers : Key → Option Nat
  queued : Int
  calls : List Call

/-- The driver without calls, after some locks were made. -/
def State.idle (locks : Nat) : State :=
  ⟨4, fun _ => false, locks, fun _ => none, fun _ => none, 0, []⟩

/-- An entry of a table of counters, which is removed at zero. -/
def counter (n : Nat) : Option Nat := if n = 0 then none else some n

/-- `call` up to the first `await`. -/
def enter (configs : String → Option ServiceConfig) (context : McpAuthorizationContext)
    (s : State) : Except Refusal State := do
  ensure ((configs context.serviceConfigId).any fun config => config.enabled ∧
    config.tenantId = context.tenantId ∧
    config.serviceConfigVersion = context.serviceConfigVersion) .serviceUnavailable
  ensure (s.queued < 20) .queueFull
  let key := keyOf context
  let lock := (s.connections key).getD s.locks
  pure { s with
    locks := s.locks + 1
    connections := update s.connections key (some lock)
    connectionUsers := update s.connectionUsers key (some ((s.connectionUsers key).getD 0 + 1))
    queued := s.queued + 1
    calls := ⟨key, lock, .permit⟩ :: s.calls }

namespace Call

/-- A call goes on with what it has waited for, if it is there. -/
def advance (c : Call) (s : State) : Option (Point × State) :=
  match c.point with
  | .permit => if s.permits = 0 then none else some (.lock, { s with permits := s.permits - 1 })
  | .lock =>
    if s.locked c.lock then none
    else some (.attempt, { s with locked := update s.locked c.lock true, queued := s.queued - 1 })
  | .attempt => none

/-- The `finally` block. -/
def leave (c : Call) (s : State) : State :=
  let users := (s.connectionUsers c.key).getD 0 - 1
  { s with
    queued := if c.point = .attempt then s.queued else s.queued - 1
    locked := if c.point = .attempt then update s.locked c.lock false else s.locked
    permits := if c.point = .permit then s.permits else s.permits + 1
    connectionUsers := update s.connectionUsers c.key (counter users)
    connections := if users = 0 then update s.connections c.key none else s.connections }

end Call

inductive Step (configs : String → Option ServiceConfig) (s : State) : State → Prop
  | enters {context : McpAuthorizationContext} {s' : State} :
      enter configs context s = .ok s' → Step configs s s'
  | advances {c : Call} {rest : List Call} {point : Point} {s' : State} :
      s.calls.Perm (c :: rest) → c.advance s = some (point, s') →
      Step configs s { s' with calls := { c with point } :: rest }
  | leaves {c : Call} {rest : List Call} : s.calls.Perm (c :: rest) →
      Step configs s { c.leave s with calls := rest }

def DriverRun (configs : String → Option ServiceConfig) : List State → Prop :=
  Run (· = .idle 0) fun h s' => ∃ s ∈ h.head?, Step configs s s'

/-! ## What is counted -/

structure Sound (s : State) : Prop where
  permits : s.permits + s.calls.countP (·.point ≠ .permit) = 4
  locked : ∀ lock, s.calls.countP (fun c => c.point = .attempt ∧ c.lock = lock) =
    if s.locked lock then 1 else 0
  queued : s.queued = s.calls.countP (·.point ≠ .attempt)
  bounded : s.queued ≤ 20
  users : ∀ key, s.connectionUsers key = counter (s.calls.countP (·.key = key))
  used : ∀ c ∈ s.calls, s.connections c.key = some c.lock
  unused : ∀ key, s.calls.countP (·.key = key) = 0 → s.connections key = none

variable {configs : String → Option ServiceConfig} {s s' : State} {c : Call}
  {rest calls : List Call}

theorem counter_getD (n : Nat) : (counter n).getD 0 = n := by
  unfold counter
  split <;> simp [*]

theorem enter_sound {context : McpAuthorizationContext} (hSound : Sound s)
    (hOk : enter configs context s = .ok s') : Sound s' := by
  obtain ⟨-, hOk⟩ := ensure_bind_ok.mp hOk
  obtain ⟨hRoom, hOk⟩ := ensure_bind_ok.mp hOk
  cases hOk
  generalize keyOf context = new
  refine ⟨?_, fun lock => ?_, ?_, Int.add_one_le_of_lt hRoom, fun key => ?_, fun c hc => ?_,
    fun key hNone => ?_⟩
  · simpa using hSound.permits
  · simpa using hSound.locked lock
  · simp [hSound.queued]
  · rw [countP_cons, hSound.users, counter_getD]
    by_cases hKey : key = new
    · simp [hKey, counter]
    · simp [hKey, Ne.symm hKey, hSound.users]
  · rcases mem_cons.mp hc with rfl | hc
    · exact update_self ..
    · have hUsed := hSound.used c hc
      by_cases hKey : c.key = new
      · simp [← hKey, hUsed]
      · simp [hKey, hUsed]
  · rw [countP_cons] at hNone
    have hKey : key ≠ new := by
      rintro rfl
      simp at hNone
    simp only [update_of_ne hKey]
    exact hSound.unused key (Nat.add_eq_zero_iff.mp hNone).1

theorem Sound.perm (hSound : Sound s) (hPerm : s.calls.Perm calls) : Sound { s with calls } := by
  obtain ⟨hPermits, hLocked, hQueued, hBounded, hUsers, hUsed, hUnused⟩ := hSound
  simp only [hPerm.countP_eq] at hPermits hLocked hQueued hUsers hUnused
  exact ⟨hPermits, hLocked, hQueued, hBounded, hUsers, fun c hc => hUsed c (hPerm.mem_iff.mpr hc),
    hUnused⟩

theorem advance_sound {point : Point} (hSound : Sound { s with calls := c :: rest })
    (hNext : c.advance s = some (point, s')) :
    Sound { s' with calls := { c with point } :: rest } := by
  obtain ⟨hPermits, hLocked, hQueued, hBounded, hUsers, hUsed, hUnused⟩ := hSound
  have hUsed' := forall_mem_cons.mp hUsed
  unfold Call.advance at hNext
  split at hNext
  · rename_i hPoint
    split at hNext
    · cases hNext
    · cases hNext
      refine ⟨?_, ?_, ?_, hBounded, hUsers, forall_mem_cons.mpr hUsed', hUnused⟩
      · simp [hPoint] at hPermits ⊢
        omega
      · simpa [countP_cons, hPoint] using hLocked
      · simpa [hPoint] using hQueued
  · rename_i hPoint
    split at hNext
    · cases hNext
    · rename_i hFree
      cases hNext
      refine ⟨?_, fun lock => ?_, ?_, ?_, hUsers, forall_mem_cons.mpr hUsed', hUnused⟩
      · simpa [hPoint] using hPermits
      · have hHere := hLocked lock
        by_cases hLock : lock = c.lock
        · simp_all
        · simp_all [countP_cons, Ne.symm hLock]
      · simp [hPoint] at hQueued ⊢
        omega
      · simp only at hBounded ⊢
        omega
  · cases hNext

theorem leave_sound (hSound : Sound { s with calls := c :: rest }) :
    Sound { c.leave s with calls := rest } := by
  obtain ⟨hPermits, hLocked, hQueued, hBounded, hUsers, hUsed, hUnused⟩ := hSound
  simp only [countP_cons] at hPermits hLocked hQueued hUsers hUnused
  have hLeft : (s.connectionUsers c.key).getD 0 - 1 = rest.countP (·.key = c.key) := by
    simp [hUsers, counter_getD]
  refine ⟨?_, fun lock => ?_, ?_, ?_, fun key => ?_, fun x hx => ?_, fun key hNone => ?_⟩
  · by_cases hPoint : c.point = .permit <;> simp [Call.leave, hPoint] at hPermits ⊢ <;> omega
  · have hHere := hLocked lock
    by_cases hPoint : c.point = .attempt
    · by_cases hLock : c.lock = lock
      · simp only [hPoint, hLock, and_self, decide_true, if_true] at hHere
        simp only [Call.leave, hPoint, hLock, if_true, update_self, Bool.false_eq_true, if_false]
        split at hHere <;> omega
      · simpa [Call.leave, hPoint, hLock, Ne.symm hLock] using hHere
    · simpa [Call.leave, hPoint] using hHere
  · by_cases hPoint : c.point = .attempt <;> simp [Call.leave, hPoint, hQueued]
  · simp only [Call.leave] at hBounded ⊢
    split <;> omega
  · simp only [Call.leave, hLeft]
    by_cases hKey : key = c.key
    · simp [hKey]
    · simp [hKey, Ne.symm hKey, hUsers]
  · simp only [Call.leave, hLeft]
    split
    · rename_i hNone
      have hKey : x.key ≠ c.key := by simpa using countP_eq_zero.mp hNone x hx
      rw [update_of_ne hKey]
      exact hUsed x (mem_cons_of_mem _ hx)
    · exact hUsed x (mem_cons_of_mem _ hx)
  · simp only [Call.leave, hLeft]
    by_cases hKey : key = c.key
    · subst hKey
      simp [hNone]
    · have hGone := hUnused key (by simp [hNone, Ne.symm hKey])
      split <;> simp [hKey, hGone]

theorem run_sound {h : List State} (hRun : DriverRun configs h) : ∀ s ∈ h, Sound s := by
  refine Run.mem_inv ?_ ?_ hRun
  · rintro s rfl
    constructor <;> simp [State.idle, counter]
  · rintro s t s' hSound ⟨_, ⟨⟩, hStep⟩
    cases hStep with
    | enters hOk => exact enter_sound hSound hOk
    | advances hPerm hNext => exact advance_sound (hSound.perm hPerm) hNext
    | leaves hPerm => exact leave_sound (hSound.perm hPerm)

/--
**Driver calls keep to their limits.** In every interleaving of calls that are answered,
fail, time out or are cancelled wherever they wait: at most four exchanges run at once, and
at most one for a connection. The counter of the queue is the number of calls that wait,
which is twenty at most, and a call is refused for a full queue only at twenty. All calls
for a connection use one lock. Once all calls have ended, nothing is left of them.
-/
theorem driver_calls_bounded {h : List State} (hRun : DriverRun configs h) : ∀ s ∈ h,
    s.calls.countP (·.point = .attempt) ≤ 4 ∧
    (∀ key, s.calls.countP (fun c => c.point = .attempt ∧ c.key = key) ≤ 1) ∧
    s.queued = s.calls.countP (·.point ≠ .attempt) ∧ 0 ≤ s.queued ∧ s.queued ≤ 20 ∧
    (∀ context, enter configs context s = .error .queueFull →
      s.calls.countP (·.point ≠ .attempt) = 20) ∧
    (∀ c ∈ s.calls, ∀ c' ∈ s.calls, c.key = c'.key → c.lock = c'.lock) ∧
    (s.calls = [] → s = .idle s.locks) := by
  intro s hs
  have hSound := run_sound hRun s hs
  have hQueued := hSound.queued
  have hBounded := hSound.bounded
  refine ⟨?_, fun key => ?_, hQueued, ?_, hBounded, fun context hFull => ?_,
    fun c hc c' hc' hKey => ?_, fun hNone => ?_⟩
  · have hPermits := hSound.permits
    have hLe : s.calls.countP (·.point = .attempt) ≤ s.calls.countP (·.point ≠ .permit) :=
      countP_mono_left fun c _ hc => by simp [of_decide_eq_true hc]
    omega
  · cases hLock : s.connections key with
    | none =>
      -- A call in progress keeps its connection in the table.
      have hEmpty : s.calls.countP (fun c => c.point = .attempt ∧ c.key = key) = 0 := by
        refine countP_eq_zero.mpr fun c hc hBoth => ?_
        have hUsed := hSound.used c hc
        rw [(of_decide_eq_true hBoth).2, hLock] at hUsed
        cases hUsed
      omega
    | some lock =>
      have hLocked := hSound.locked lock
      -- All attempts under the key hold the one lock of the connection.
      have hLe : s.calls.countP (fun c => c.point = .attempt ∧ c.key = key) ≤
          s.calls.countP (fun c => c.point = .attempt ∧ c.lock = lock) := by
        refine countP_mono_left fun c hc hBoth => ?_
        obtain ⟨hPoint, rfl⟩ := of_decide_eq_true hBoth
        exact decide_eq_true ⟨hPoint, Option.some.inj ((hSound.used c hc).symm.trans hLock)⟩
      split at hLocked <;> omega
  · omega
  · have hRoom : ¬s.queued < 20 := by
      intro hRoom
      simp only [enter, ensure, if_pos hRoom] at hFull
      split at hFull <;> cases hFull
    omega
  · exact Option.some.inj ((hSound.used c hc).symm.trans (hKey ▸ hSound.used c' hc'))
  · obtain ⟨permits, locked, locks, connections, users, queued, calls⟩ := s
    cases hNone
    have hLocked : ∀ lock, locked lock = false := by simpa using hSound.locked
    have hConnections : ∀ key, connections key = none := by simpa using hSound.unused
    have hUsers : ∀ key, users key = none := by simpa [counter] using hSound.users
    have hPermits : permits = 4 := by simpa using hSound.permits
    simp only [State.idle, State.mk.injEq]
    exact ⟨hPermits, funext hLocked, trivial, funext hConnections, funext hUsers, hQueued, trivial⟩

namespace Sample

def services (_ : String) : Option ServiceConfig := some ⟨true, "x", 1⟩

def context : McpAuthorizationContext :=
  ⟨"x", "u", "", "t", "", "", "c", 1, "k", 1, 1, "", "", "", none, none⟩

end Sample

/-- A call that has got both runs alone on its connection. Another one that has a permit
waits for the lock. -/
theorem driver_calls_bounded_sample :
    ∃ s t, DriverRun Sample.services (s :: t) ∧
      s.calls.map (fun c => (c.point, (c.advance s).isSome)) = [(.lock, false), (.attempt, false)] ∧
      s.calls.countP (fun c => c.point = .attempt ∧ c.key = keyOf Sample.context) ≤ 1 := by
  have hEnter : enter Sample.services Sample.context (.idle 0) = .ok _ := rfl
  have hFirst : DriverRun Sample.services [_, _, _, .idle 0] :=
    .step (.step (.step (.start rfl) ⟨_, rfl, .enters hEnter⟩)
      ⟨_, rfl, .advances (Perm.refl _) rfl⟩) ⟨_, rfl, .advances (Perm.refl _) rfl⟩
  have hRun : DriverRun Sample.services (_ :: _ :: [_, _, _, .idle 0]) :=
    .step (.step hFirst ⟨_, rfl, .enters (show enter _ Sample.context _ = .ok _ from rfl)⟩)
      ⟨_, rfl, .advances (Perm.refl _) rfl⟩
  exact ⟨_, _, hRun, rfl, (driver_calls_bounded hRun _ mem_cons_self).2.1 _⟩

end EternalAI.Mcp.Driver

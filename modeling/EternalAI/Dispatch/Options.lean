import EternalAI.Dispatch.Service
import EternalAI.Lib.Sorted
import Mathlib.Data.Char
import Mathlib.Data.List.Lex
import Mathlib.Data.Prod.Lex

/-!
# Dispatched tasks — the targets that are offered

`list_dispatch_options` derives from the directory, by itself, whom a principal may
dispatch to, and hands the targets out in pages. `_validate_targets` decides on them when
they come back in a request.

* `offered_iff` — an offer is a target that validation accepts.
* `options_filter` — a search narrows the offers down, in their order.
* `walk_from` — the cursors lead through all of them.
* `options_accepted` — the whole.

Of the view that is returned, `kind`, `has_more`, `snapshot_version` and
`can_self_dispatch` are left out: they repeat what was asked or follow from the rest.
-/

namespace EternalAI.Dispatch

open Lib List

/-! ## The listing -/

/-- `base64`, `int` and `str.casefold`, with what is relied on. -/
structure OptionsEnv where
  casefold : Str → Str
  b64encode : Str → Str
  /-- Nothing where it raises. -/
  b64decode : Str → Option Str
  int : Str → Option Int
  b64decode_b64encode : ∀ text, b64decode (b64encode text) = some text
  b64encode_nil : ∀ text, b64encode text = [] → text = []
  int_toDigits : ∀ n : Nat, int (Nat.toDigits 10 n) = some n

/-- A directory that `read_fresh_directory_view` has accepted, with the columns that only
the listing reads. -/
structure DirectoryView extends FreshDirectory where
  snapshotVersion : Nat
  displayName : Membership → Option Str
  departments_nodup : (departments.map Department.departmentId).Nodup
  memberships_nodup : (memberships.map fun m => (m.departmentId, m.userId)).Nodup

inductive OptionsError where
  | directoryScopeDenied | dispatchOptionsRequestInvalid | organizationDirectorySnapshotChanged
  | dispatch (error : DispatchError)
  deriving DecidableEq

structure Offer where
  kind : TargetKind
  departmentId : Str
  (directoryUserId displayName : Option Str)
  departmentDisplayName : Str
  deriving DecidableEq

def Offer.columns (o : Offer) : TargetKind × Str × Option Str :=
  (o.kind, o.departmentId, o.directoryUserId)

/-- `(o["department_id"], o.get("directory_user_id", ""))`. -/
def Offer.key (o : Offer) : Str ×ₗ Str := toLex (o.departmentId, o.directoryUserId.getD [])

/-- `o.get("display_name", o["department_display_name"])`. -/
def Offer.name (o : Offer) : Str := o.displayName.getD o.departmentDisplayName

structure Ask where
  kind : TargetKind
  query : Str
  departmentId : Option Str

/-- `not query or query.casefold() in name.casefold()`. -/
def OptionsEnv.finds (env : OptionsEnv) (query name : Str) : Bool :=
  query = [] || (env.casefold name).tails.any ((env.casefold query).isPrefixOf ·)

/-- A row of the directory as the loops look at it. -/
structure Entry where
  offer : Offer
  /-- The id that is counted where the row cannot be selected. -/
  id : Str
  selectable : Bool

namespace DirectoryView

section

variable (view : DirectoryView)

/-- `member.display_name or member.user_id`. -/
def memberName (m : Membership) : Str :=
  match view.displayName m with
  | none | some [] => m.userId
  | some name => name

def ofMember (m : Membership) : Entry where
  offer := { kind := .user, departmentId := m.departmentId, directoryUserId := some m.userId
             displayName := some (view.memberName m)
             departmentDisplayName := ((view.departments.find? fun d =>
               d.departmentId = m.departmentId).map Department.displayName).getD [] }
  id := m.userId
  selectable := (view.membershipsOf m.userId).length = 1 ∧ view.hasDepartment m.departmentId

def ofDepartment (d : Department) : Entry where
  offer := { kind := .department, departmentId := d.departmentId, directoryUserId := none
             displayName := none, departmentDisplayName := d.displayName }
  id := d.departmentId
  selectable := match view.heads d.departmentId with
    | [head] => (view.membershipsOf head.userId).length = 1
    | _ => false

def entries : TargetKind → List Entry
  | .user => view.memberships.map view.ofMember
  | .department => view.departments.map view.ofDepartment

end

end DirectoryView

section

variable (env : OptionsEnv) (view : DirectoryView) (actor : Membership) (leaders : List Str)

def Entry.kept (ask : Ask) (e : Entry) : Bool :=
  (ask.kind = .department || ask.departmentId.all fun d => d = [] || e.offer.departmentId = d) &&
    mayDispatchTo actor leaders e.offer.columns && env.finds ask.query e.offer.name

/-- The loops of `list_dispatch_options`. -/
def candidates (ask : Ask) : List Entry :=
  (view.entries ask.kind).filter (Entry.kept env actor leaders ask)

/-- `options`, searched once more and sorted. -/
def options (ask : Ask) : List Offer :=
  ((((candidates env view actor leaders ask).filter Entry.selectable).map Entry.offer).filter
    fun o => env.finds ask.query o.name).insertionSort fun a b => a.key ≤ b.key

def admitAsk (ask : Ask) : Except DispatchError Unit := do
  ensure (ask.kind = .department → isDepartmentHead actor ∨ actor.userId ∈ leaders)
    .notDepartmentHead
  match ask.kind, ask.departmentId with
  | .user, some d => do
    ensure (d = actor.departmentId ∨ actor.userId ∈ leaders)
      (if isDepartmentHead actor then .crossDepartmentDispatchDenied else .notDepartmentHead)
    ensure (view.hasDepartment d) .dispatchTargetDepartmentMissing
  | _, _ => pure ()

end

def TargetKind.text : TargetKind → Str
  | .user => "user".toList
  | .department => "department".toList

def cursorText (version offset : Nat) (kind : TargetKind) : Str :=
  [':'].intercalate [Nat.toDigits 10 version, Nat.toDigits 10 offset, kind.text]

section

variable (env : OptionsEnv) (subject : Subject) (view : DirectoryView)

def offsetOf (kind : TargetKind) : Option Str → Except OptionsError Nat
  | none | some [] => .ok 0
  | some cursor =>
    match (env.b64decode cursor).map fun raw => raw.splitOn ':' with
    | some [version, offset, cursorKind] =>
      match env.int offset with
      | some (.ofNat n) => do
        ensure (cursorKind = kind.text) .dispatchOptionsRequestInvalid
        ensure ((env.int version).isSome) .dispatchOptionsRequestInvalid
        ensure (env.int version = some view.snapshotVersion) .organizationDirectorySnapshotChanged
        pure n
      | _ => .error .dispatchOptionsRequestInvalid
    | _ => .error .dispatchOptionsRequestInvalid

/-- `DispatchOptionsView`. -/
structure OptionsView where
  items : List Offer
  nextCursor : Option Str
  unselectableCount : Nat
  canDispatchOthers : Bool

/-- One call: the cursor, the page size, and when the directory is checked again. -/
structure PageCall where
  limit : Nat
  now : Tick

def listDispatchOptions (leaders : List Str) (ask : Ask) (call : PageCall) (cursor : Option Str) :
    Except OptionsError OptionsView := do
  ensure (subject.tenantId = "default".toList) .directoryScopeDenied
  let actor ← (memberOf subject view.toFreshDirectory).mapError .dispatch
  ensure (1 ≤ call.limit ∧ call.limit ≤ 100) .dispatchOptionsRequestInvalid
  (admitAsk view actor leaders ask).mapError .dispatch
  let offset ← offsetOf env view ask.kind cursor
  (view.recheck call.now).mapError .dispatch
  pure {
    items := ((options env view actor leaders ask).drop offset).take call.limit
    nextCursor := if (options env view actor leaders ask).length ≤ offset + call.limit then none
      else some (env.b64encode (cursorText view.snapshotVersion (offset + call.limit) ask.kind))
    unselectableCount := (((candidates env view actor leaders ask).filter fun e =>
      !e.selectable).map Entry.id).dedup.length
    canDispatchOthers := isDepartmentHead actor || actor.userId ∈ leaders }

/-! ## Offers -/

/-- What is offered where nothing is searched for. -/
def offers (leaders : List Str) (kind : TargetKind) : List Offer :=
  match memberOf subject view.toFreshDirectory with
  | .ok actor => options env view actor leaders ⟨kind, [], none⟩
  | .error _ => []

def Ask.wants (ask : Ask) (o : Offer) : Bool :=
  (ask.departmentId.all fun d => o.departmentId = d) && env.finds ask.query o.name

def asked (leaders : List Str) (ask : Ask) : List Offer :=
  (offers env subject view leaders ask.kind).filter (ask.wants env)

end

/-- The department filter is one of the users, and not blank. -/
def Ask.Proper (ask : Ask) : Prop := ∀ d ∈ ask.departmentId, ask.kind = .user ∧ d ≠ []

variable {env : OptionsEnv} {view : DirectoryView} {actor : Membership} {leaders : List Str}
  {subject : Subject} {ask : Ask} {o : Offer}

theorem mem_options : o ∈ options env view actor leaders ask ↔ ∃ e ∈ view.entries ask.kind,
    e.kept env actor leaders ask = true ∧ e.selectable = true ∧ e.offer = o := by
  rw [options, mem_insertionSort, mem_filter]
  simp only [candidates, mem_map, mem_filter]
  constructor
  · rintro ⟨⟨e, ⟨⟨hMem, hKept⟩, hSelectable⟩, rfl⟩, -⟩
    exact ⟨e, hMem, hKept, hSelectable, rfl⟩
  · rintro ⟨e, hMem, hKept, hSelectable, rfl⟩
    exact ⟨⟨e, ⟨⟨hMem, hKept⟩, hSelectable⟩, rfl⟩, (Bool.and_eq_true_iff.mp hKept).2⟩

theorem kept_iff (hProper : ask.Proper) {e : Entry} : e.kept env actor leaders ask = true ↔
    e.kept env actor leaders ⟨ask.kind, [], none⟩ = true ∧ ask.wants env e.offer = true := by
  have hFilter : (ask.kind = .department || ask.departmentId.all fun d => d = [] ||
      e.offer.departmentId = d) = ask.departmentId.all fun d => e.offer.departmentId = d := by
    cases hOf : ask.departmentId with
    | none => simp
    | some d =>
      obtain ⟨hKind, hBlank⟩ := hProper d hOf
      simp [hKind, hBlank]
  simp [Entry.kept, Ask.wants, hFilter, show env.finds [] e.offer.name = true from rfl,
    and_left_comm, and_assoc]

theorem entries_nodup (view : DirectoryView) (kind : TargetKind) :
    (((view.entries kind).map Entry.offer).map Offer.key).Nodup := by
  cases kind with
  | user =>
    rw [DirectoryView.entries, map_map, map_map]
    exact view.memberships_nodup
  | department =>
    have hNodup := view.departments_nodup.map (f := fun d => (toLex (d, []) : Str ×ₗ Str))
      fun _ _ hSame => congrArg Prod.fst (toLex.injective hSame)
    rw [map_map] at hNodup
    rw [DirectoryView.entries, map_map, map_map]
    exact hNodup

theorem options_sorted : Sorted Offer.key (options env view actor leaders ask) := by
  refine sorted_insertionSort ((entries_nodup view ask.kind).sublist ?_)
  have hSub : ((candidates env view actor leaders ask).filter Entry.selectable).Sublist
      (view.entries ask.kind) := filter_sublist.trans filter_sublist
  exact (filter_sublist.map _).trans ((hSub.map _).map _)

theorem options_filter (hProper : ask.Proper) : options env view actor leaders ask =
    (options env view actor leaders ⟨ask.kind, [], none⟩).filter (ask.wants env) := by
  -- both are sorted by a key that no two offers share, so the members decide
  refine options_sorted.eq_of_mem_iff (options_sorted.filter _) fun o => ?_
  rw [mem_filter, mem_options, mem_options]
  constructor
  · rintro ⟨e, hMem, hKept, hSelectable, rfl⟩
    obtain ⟨hPlain, hWants⟩ := (kept_iff hProper).mp hKept
    exact ⟨⟨e, hMem, hPlain, hSelectable, rfl⟩, hWants⟩
  · rintro ⟨⟨e, hMem, hPlain, hSelectable, rfl⟩, hWants⟩
    exact ⟨e, hMem, (kept_iff hProper).mpr ⟨hPlain, hWants⟩, hSelectable, rfl⟩

/-! ## Validation -/

theorem length_one {α : Type} {l : List α} {x : α} (hMem : x ∈ l) (hOne : l.length = 1) :
    l = [x] := by
  obtain ⟨y, rfl⟩ := length_eq_one_iff.mp hOne
  rw [mem_singleton.mp hMem]

variable {t : DispatchTarget}

attribute [local simp] DispatchTarget.departmentId ensure Except.bind Except.mapError

theorem resolveTarget_iff :
    resolveTarget view.toFreshDirectory t = .ok () ↔
      ∃ e ∈ view.entries t.kind, e.offer.columns = t.columns ∧ e.selectable = true := by
  cases t with
  | user u d =>
    have hColumns (m : Membership) :
        (view.ofMember m).offer.columns = (DispatchTarget.user u d).columns ↔
        m.departmentId = d.val ∧ m.userId = u.val := by
      simp [Offer.columns, DirectoryView.ofMember, DispatchTarget.columns, DispatchTarget.kind,
        DispatchTarget.directoryUserId]
    constructor
    · intro hOk
      have hDepartment : view.hasDepartment d.val = true := by
        by_contra hNone
        simp [resolveTarget, hNone] at hOk
      rcases hFound : view.membershipsOf u.val with _ | ⟨m, _ | ⟨m', rest⟩⟩ <;>
        simp [resolveTarget, hDepartment, hFound] at hOk
      obtain ⟨hMem, hUser⟩ := mem_filter.mp (hFound ▸ mem_singleton_self m)
      have hUser : m.userId = u.val := of_decide_eq_true hUser
      refine ⟨_, mem_map_of_mem hMem, (hColumns m).mpr ⟨hOk, hUser⟩, ?_⟩
      simp [DirectoryView.ofMember, hUser, hFound, hOk, hDepartment]
    · -- An entry is selectable if it is the person's only membership.
      rintro ⟨_, hMem, hSame, hSelectable⟩
      obtain ⟨m, hIs, rfl⟩ := mem_map.mp hMem
      obtain ⟨hIn, hUser⟩ := (hColumns m).mp hSame
      obtain ⟨hOne, hDepartment⟩ := of_decide_eq_true hSelectable
      have hFound : view.membershipsOf u.val = [m] := by
        rw [← hUser]
        exact length_one (mem_filter.mpr ⟨hIs, decide_eq_true rfl⟩) hOne
      simp [resolveTarget, ← hIn, hDepartment, hFound]
  | department d =>
    have hHas : view.hasDepartment d.val = true ↔
        ∃ x ∈ view.departments, x.departmentId = d.val := by
      simp [FreshDirectory.hasDepartment]
    constructor
    · intro hOk
      have hDepartment : view.hasDepartment d.val = true := by
        by_contra hNone
        simp [resolveTarget, hNone] at hOk
      obtain ⟨x, hMem, hx⟩ := hHas.mp hDepartment
      refine ⟨_, mem_map_of_mem hMem,
        congrArg (fun d => (TargetKind.department, d, (none : Option Str))) hx, ?_⟩
      -- No head and several heads are refused by both.
      rcases hHeads : view.heads d.val with _ | ⟨head, _ | ⟨other, rest⟩⟩ <;>
        simp [resolveTarget, hDepartment, hHeads] at hOk
      simpa [DirectoryView.ofDepartment, hx, hHeads] using hOk
    · rintro ⟨_, hMem, hSame, hSelectable⟩
      obtain ⟨x, hIs, rfl⟩ := mem_map.mp hMem
      have hx : x.departmentId = d.val := congrArg (fun c => c.2.1) hSame
      have hDepartment := hHas.mpr ⟨x, hIs, hx⟩
      rcases hHeads : view.heads d.val with _ | ⟨head, _ | ⟨other, rest⟩⟩ <;>
        simp [DirectoryView.ofDepartment, hx, hHeads] at hSelectable
      simp [resolveTarget, hDepartment, hHeads, hSelectable]

variable {targets : List DispatchTarget}

theorem resolveTargets_iff {fresh : FreshDirectory} :
    resolveTargets fresh targets = .ok () ↔ ∀ t ∈ targets, resolveTarget fresh t = .ok () := by
  induction targets with
  | nil => simp [resolveTargets]
  | cons t rest ih =>
    rw [resolveTargets, bind_ok, forall_mem_cons, ← ih]
    exact ⟨fun ⟨_, hBoth⟩ => hBoth, fun hBoth => ⟨(), hBoth⟩⟩

theorem validateTargets_iff :
    validateTargets subject targets view.toFreshDirectory leaders = .ok () ↔
      ∃ actor, memberOf subject view.toFreshDirectory = .ok actor ∧ ∀ t ∈ targets,
        mayDispatchTo actor leaders t.columns = true ∧
          resolveTarget view.toFreshDirectory t = .ok () := by
  rw [validateTargets, bind_ok]
  refine exists_congr fun actor => and_congr_right fun _ => ?_
  rw [forall₂_and, ← resolveTargets_iff, ← all_eq_true]
  split
  · exact ⟨fun hOk => ⟨‹_›, hOk⟩, And.right⟩
  · split <;> simp_all

theorem offered_iff :
    (∃ o ∈ offers env subject view leaders t.kind, o.columns = t.columns) ↔
      ∃ actor, memberOf subject view.toFreshDirectory = .ok actor ∧
        mayDispatchTo actor leaders t.columns = true ∧
          resolveTarget view.toFreshDirectory t = .ok () := by
  unfold offers
  cases memberOf subject view.toFreshDirectory with
  | error e => simp
  | ok actor =>
    have hKept {e : Entry} (hColumns : e.offer.columns = t.columns) :
        e.kept env actor leaders ⟨t.kind, [], none⟩ = mayDispatchTo actor leaders t.columns := by
      simp [Entry.kept, hColumns, show env.finds [] e.offer.name = true from rfl]
    simp only [mem_options, resolveTarget_iff, Except.ok.injEq, exists_eq_left']
    constructor
    · rintro ⟨_, ⟨e, hMem, hIs, hSelectable, rfl⟩, hColumns⟩
      exact ⟨(hKept hColumns).symm.trans hIs, e, hMem, hColumns, hSelectable⟩
    · rintro ⟨hMay, e, hMem, hColumns, hSelectable⟩
      exact ⟨_, ⟨e, hMem, (hKept hColumns).trans hMay, hSelectable, rfl⟩, hColumns⟩

section

variable (hMember : memberOf subject view.toFreshDirectory = .ok actor)

include hMember

theorem memberOf_mem : actor ∈ view.memberships := by
  unfold memberOf at hMember
  repeat' split at hMember
  all_goals cases hMember
  exact mem_of_mem_filter (‹view.membershipsOf _ = _› ▸ mem_singleton_self _)

theorem user_offer (hMem : o ∈ options env view actor leaders ⟨.user, [], none⟩) :
    view.hasDepartment o.departmentId = true ∧
      (o.departmentId = actor.departmentId ∨ actor.userId ∈ leaders) := by
  obtain ⟨_, hEntry, hKept, hSelectable, rfl⟩ := mem_options.mp hMem
  obtain ⟨m, hIs, rfl⟩ := mem_map.mp hEntry
  obtain ⟨hOne, hDepartment⟩ := of_decide_eq_true hSelectable
  refine ⟨hDepartment, ?_⟩
  have hMay : mayDispatchTo actor leaders (.user, m.departmentId, some m.userId) = true :=
    (Bool.and_eq_true_iff.mp (Bool.and_eq_true_iff.mp hKept).1).2
  simp only [mayDispatchTo, Bool.or_eq_true, Bool.and_eq_true, decide_eq_true_eq, beq_iff_eq,
    Option.some.injEq] at hMay
  rcases hMay with (hLeader | ⟨-, hSelf⟩) | ⟨-, hKind | hSame⟩
  · exact .inr hLeader
  · -- a person with one membership is offered the department of that one
    have hActor := memberOf_mem hMember
    have hOnly := length_one (mem_filter.mpr ⟨hIs, decide_eq_true rfl⟩) hOne
    have hBoth : actor ∈ view.membershipsOf m.userId :=
      mem_filter.mpr ⟨hActor, decide_eq_true hSelf.symm⟩
    rw [FreshDirectory.membershipsOf, hOnly] at hBoth
    exact .inl (congrArg Membership.departmentId (mem_singleton.mp hBoth).symm)
  · cases hKind
  · exact .inl hSame

theorem wants_of_refused {e : DispatchError} (hRefused : admitAsk view actor leaders ask = .error e)
    (hMem : o ∈ options env view actor leaders ⟨ask.kind, [], none⟩) : ask.wants env o = false := by
  by_contra hWants
  obtain ⟨hOf, -⟩ := Bool.and_eq_true_iff.mp (Bool.not_eq_false _ ▸ hWants)
  refine absurd hRefused ?_
  unfold admitAsk
  obtain ⟨kind, query, departmentId⟩ := ask
  cases kind with
  | department =>
    obtain ⟨_, hEntry, hKept, -, rfl⟩ := mem_options.mp hMem
    obtain ⟨d, -, rfl⟩ := mem_map.mp hEntry
    have hMay : mayDispatchTo actor leaders (.department, d.departmentId, none) = true :=
      (Bool.and_eq_true_iff.mp (Bool.and_eq_true_iff.mp hKept).1).2
    have hMay : isDepartmentHead actor ∨ actor.userId ∈ leaders := by
      simpa [mayDispatchTo, or_comm] using hMay
    simp [hMay, bind, pure, Except.pure]
  | user =>
    obtain ⟨hDepartment, hOwn⟩ := user_offer hMember hMem
    cases departmentId with
    | none => simp [bind, pure, Except.pure]
    | some d =>
      obtain rfl : o.departmentId = d := of_decide_eq_true hOf
      simp [hDepartment, hOwn, bind]

end

/-! ## Pages -/

theorem not_mem_cursor (version offset : Nat) (kind : TargetKind) :
    ∀ part ∈ [Nat.toDigits 10 version, Nat.toDigits 10 offset, kind.text], ':' ∉ part := by
  have hDigits (n : Nat) : ':' ∉ Nat.toDigits 10 n := fun hMem =>
    absurd (Nat.isDigit_of_mem_toDigits (by decide) (by decide) hMem) (by decide)
  simp only [forall_mem_cons, not_mem_nil, false_implies, implies_true, and_true]
  exact ⟨hDigits version, hDigits offset, by cases kind <;> decide⟩

theorem offsetOf_cursor (offset : Nat) (kind : TargetKind) :
    offsetOf env view kind (some (env.b64encode (cursorText view.snapshotVersion offset kind))) =
      .ok offset := by
  have hParts := splitOn_intercalate ':' (not_mem_cursor view.snapshotVersion offset kind)
    (cons_ne_nil _ _)
  have hDecode := env.b64decode_b64encode (cursorText view.snapshotVersion offset kind)
  cases hCursor : env.b64encode (cursorText view.snapshotVersion offset kind) with
  | nil =>
    have hText : cursorText view.snapshotVersion offset kind = [] := env.b64encode_nil _ hCursor
    rw [cursorText] at hText
    rw [hText] at hParts
    exact absurd (congrArg List.length hParts) (by simp)
  | cons c rest =>
    rw [hCursor] at hDecode
    simp only [offsetOf, hDecode, Option.map_some, cursorText, hParts, env.int_toDigits]
    simp [bind, pure, Except.pure]

/-- A client that follows the cursors, with a page size of its own for each call. -/
def walk (env : OptionsEnv) (subject : Subject) (view : DirectoryView) (leaders : List Str)
    (ask : Ask) :
    List PageCall → Option Str → Except OptionsError (List Offer)
  | [], _ => .ok []
  | call :: calls, cursor => do
    let page ← listDispatchOptions env subject view leaders ask call cursor
    match page.nextCursor with
    | none => pure page.items
    | some next => do
      let items ← walk env subject view leaders ask calls (some next)
      pure (page.items ++ items)

/-- The size of the page is allowed, and the directory still fresh. -/
def PageCall.Proper (view : DirectoryView) (call : PageCall) : Prop :=
  (1 ≤ call.limit ∧ call.limit ≤ 100) ∧ call.now ≤ view.validUntil

variable {calls : List PageCall}

section Walk

variable {cursor : Option Str} {offset : Nat} (hTenant : subject.tenantId = "default".toList)
  (hMember : memberOf subject view.toFreshDirectory = .ok actor)
  (hAdmit : admitAsk view actor leaders ask = .ok ())

include hTenant hMember hAdmit

theorem list_ok {call : PageCall} (hCall : call.Proper view)
    (hOffset : offsetOf env view ask.kind cursor = .ok offset) :
    ∃ page, listDispatchOptions env subject view leaders ask call cursor = .ok page ∧
      page.items = ((options env view actor leaders ask).drop offset).take call.limit ∧
      page.nextCursor =
        if (options env view actor leaders ask).length ≤ offset + call.limit then none
        else some (env.b64encode
          (cursorText view.snapshotVersion (offset + call.limit) ask.kind)) := by
  have hFresh : view.recheck call.now = .ok () := if_neg (not_lt.mpr hCall.2)
  simp [listDispatchOptions, hTenant, hMember, hAdmit, hCall.1, hOffset, hFresh,
    bind, pure, Except.pure]

theorem walk_from (hCalls : ∀ call ∈ calls, call.Proper view)
    (hOffset : offsetOf env view ask.kind cursor = .ok offset) :
    walk env subject view leaders ask calls cursor =
      .ok (((options env view actor leaders ask).drop offset).take
        (calls.map PageCall.limit).sum) := by
  induction calls generalizing cursor offset with
  | nil => rfl
  | cons call calls ih =>
    obtain ⟨hCall, hCalls⟩ := forall_mem_cons.mp hCalls
    obtain ⟨page, hPage, hItems, hNext⟩ := list_ok hTenant hMember hAdmit hCall hOffset
    rw [walk, hPage, map_cons, sum_cons, take_add, drop_drop]
    simp only [bind, Except.bind, hNext, hItems]
    split_ifs with hEnd
    · rw [drop_eq_nil_of_le hEnd, take_nil, append_nil]
      rfl
    · simp only [ih hCalls (offsetOf_cursor _ _)]
      rfl

end Walk

/-- What is offered, and what becomes of it. -/
structure OptionsAccepted (env : OptionsEnv) (subject : Subject) (view : DirectoryView)
    (leaders : List Str) : Prop where
  /-- A target that a request can name is offered where it is accepted. -/
  accepted : ∀ t : DispatchTarget,
    (∃ o ∈ offers env subject view leaders t.kind, o.columns = t.columns) ↔
    validateTargets subject [t] view.toFreshDirectory leaders = .ok ()
  sorted : ∀ kind, (offers env subject view leaders kind).Pairwise fun a b => a.key < b.key
  /-- The pages hold what is asked for, or the listing is refused where there is none of it. -/
  pages : ∀ ask : Ask, ask.Proper → ∀ calls : List PageCall, (∀ call ∈ calls, call.Proper view) →
    (asked env subject view leaders ask).length ≤ (calls.map PageCall.limit).sum →
      walk env subject view leaders ask calls none = .ok (asked env subject view leaders ask) ∨
      asked env subject view leaders ask = [] ∧
        ∃ e, walk env subject view leaders ask calls none = .error (.dispatch e)
  batch : ∀ targets : List DispatchTarget, targets ≠ [] →
    (∀ t ∈ targets, ∃ o ∈ offers env subject view leaders t.kind, o.columns = t.columns) →
    validateTargets subject targets view.toFreshDirectory leaders = .ok ()

theorem pages_asked (hTenant : subject.tenantId = "default".toList) (hProper : ask.Proper)
    (hCalls : ∀ call ∈ calls, call.Proper view)
    (hEnough : (asked env subject view leaders ask).length ≤ (calls.map PageCall.limit).sum) :
    walk env subject view leaders ask calls none = .ok (asked env subject view leaders ask) ∨
      asked env subject view leaders ask = [] ∧
        ∃ e, walk env subject view leaders ask calls none = .error (.dispatch e) := by
  unfold asked at *
  cases calls with
  | nil => exact .inl (congrArg _ (eq_nil_of_length_eq_zero (Nat.le_zero.mp hEnough)).symm)
  | cons call calls =>
    have hLimit := (hCalls call mem_cons_self).1
    cases hMember : memberOf subject view.toFreshDirectory with
    | error e =>
      simp [offers, walk, listDispatchOptions, hTenant, hMember, bind]
    | ok actor =>
      cases hAdmit : admitAsk view actor leaders ask with
      | error e =>
        refine .inr ⟨?_, e, ?_⟩
        · simp only [offers, hMember]
          exact filter_eq_nil_iff.mpr fun o hMem =>
            Bool.not_eq_true _ ▸ wants_of_refused hMember hAdmit hMem
        · simp [walk, listDispatchOptions, hTenant, hMember, hLimit, hAdmit, bind]
      | ok u =>
        have hFirst : offsetOf env view ask.kind none = .ok 0 := rfl
        have hWalk := walk_from hTenant hMember hAdmit hCalls hFirst
        simp only [offers, hMember, ← options_filter hProper] at hEnough ⊢
        rw [drop_zero, take_of_length_le hEnough] at hWalk
        exact .inl hWalk

theorem options_accepted (env : OptionsEnv) (subject : Subject) (view : DirectoryView)
    (leaders : List Str) (hTenant : subject.tenantId = "default".toList) :
    OptionsAccepted env subject view leaders where
  accepted t := by
    rw [offered_iff, validateTargets_iff]
    simp
  sorted kind := by
    unfold offers
    split
    · exact options_sorted
    · exact .nil
  pages _ hProper _ hCalls hEnough := pages_asked hTenant hProper hCalls hEnough
  batch targets hSome hAll := by
    obtain ⟨t, hMem⟩ := exists_mem_of_ne_nil targets hSome
    obtain ⟨actor, hMember, -⟩ := offered_iff.mp (hAll t hMem)
    refine validateTargets_iff.mpr ⟨actor, hMember, fun t hMem => ?_⟩
    obtain ⟨other, hOther, hMay⟩ := offered_iff.mp (hAll t hMem)
    rw [hMember] at hOther
    cases hOther
    exact hMay

namespace OptionsSample

def plain : OptionsEnv where
  casefold := id
  b64encode text := 'A' :: text
  b64decode text := some text.tail
  int text := some (Int.ofNat (Nat.ofDigitChars 10 text 0))
  b64decode_b64encode _ := rfl
  b64encode_nil _ := nofun
  int_toDigits n := congrArg (some ∘ Int.ofNat) (Nat.ofDigitChars_toDigits (by decide) (by decide))

def two : DirectoryView where
  departments := [⟨['s'], ['S']⟩, ⟨['l'], ['L']⟩]
  memberships := [⟨['a'], ['s'], some ['7', '5'], by decide⟩,
    ⟨['b'], ['l'], some ['7', '5'], by decide⟩, ⟨List.replicate 129 'c', ['s'], none, by decide⟩]
  validUntil := 9
  snapshotVersion := 4
  displayName _ := none
  departments_nodup := by decide
  memberships_nodup := by decide +kernel

def head : Subject := ⟨"default".toList, ['v'], some ['a'], by decide⟩

end OptionsSample

open OptionsSample in
/-- The head is offered the people of the own department, and the other department. -/
theorem options_accepted_sample : OptionsAccepted plain head two [] ∧
    (offers plain head two [] .user).map (·.departmentId) = [['s'], ['s']] ∧
    (offers plain head two [] .department).map (·.departmentId) = [['l'], ['s']] :=
  ⟨options_accepted plain head two [] rfl, by decide +kernel⟩

open OptionsSample in
/-- Departments are not looked up by their ids, and a request may be unable to name an offer. -/
theorem department_filter_ignored :
    (walk plain head two [] ⟨.department, [], some ['s']⟩ [⟨50, 0⟩] none).toOption ≠
        some ((offers plain head two [] .department).filter fun o => o.departmentId = ['s']) ∧
      ∃ o ∈ offers plain head two [] .user, ∀ t : DispatchTarget, t.columns ≠ o.columns := by
  refine ⟨by decide +kernel, two.ofMember ⟨List.replicate 129 'c', ['s'], none, by decide⟩ |>.offer,
    by decide +kernel, fun t hSame => ?_⟩
  cases t with
  | user u d =>
    have hLong : u.val = List.replicate 129 'c' := Option.some.inj (congrArg (fun c => c.2.2) hSame)
    have hFits := u.bounded.2
    rw [hLong, length_replicate] at hFits
    exact absurd hFits (by decide)
  | department d => cases congrArg Prod.fst hSame

end EternalAI.Dispatch

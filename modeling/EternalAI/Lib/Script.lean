import EternalAI.Lib.Except
import Mathlib.Data.List.Basic

/-!
# Transactions that write rows

A database transaction as the application writes it: a computation that may
give up with an exception, and that writes rows on its way. The tables it works
on are passed along as ordinary values; a `Script ω ε α` only records which
rows of type `ω` were written, in order, before it ended.

Two readings of a script are compared:

* `Script.result` — what the application alone does, `Script.rows` what it
  writes;
* `Script.run check bad` — the same against a database with constraints: the
  first row that fails `check` ends the script with `bad`.

`run_eq_result` says that they agree when every row written passes, and
`run_eq_ok` that a committed script has written nothing else.
-/

namespace EternalAI.Lib

open List

/-- A transaction in progress: it has returned, it has raised, or it writes a
row next. -/
inductive Script (ω ε α : Type) where
  | ret (a : α)
  | raise (e : ε)
  | put (row : ω) (next : Script ω ε α)

namespace Script

variable {ω ε α β : Type}

protected def bind : Script ω ε α → (α → Script ω ε β) → Script ω ε β
  | .ret a, k => k a
  | .raise e, _ => .raise e
  | .put row next, k => .put row (next.bind k)

instance : Monad (Script ω ε) where
  pure := .ret
  bind := Script.bind

def ofExcept : Except ε α → Script ω ε α
  | .ok a => .ret a
  | .error e => .raise e

/-- Raise `e` unless `c` holds. -/
def require (c : Prop) [Decidable c] (e : ε) : Script ω ε Unit :=
  if c then .ret () else .raise e

def write (row : ω) : Script ω ε Unit := .put row (.ret ())

/-- `UPDATE … WHERE p`: every row of the table that satisfies `p` is replaced,
and written. -/
def updateWhere (p : α → Bool) (f : α → α) (row : α → ω) : List α → Script ω ε (List α)
  | [] => .ret []
  | x :: xs =>
    if p x then .put (row (f x)) ((updateWhere p f row xs).bind fun ys => .ret (f x :: ys))
    else (updateWhere p f row xs).bind fun ys => .ret (x :: ys)

/-- Run a script on every item of a list, each from where the last one left
the table. -/
def foldScript (step : β → α → Script ω ε β) : List α → β → Script ω ε β
  | [], b => .ret b
  | x :: xs, b => (step b x).bind fun b' => foldScript step xs b'

def result : Script ω ε α → Except ε α
  | .ret a => .ok a
  | .raise e => .error e
  | .put _ next => next.result

def rows : Script ω ε α → List ω
  | .ret _ => []
  | .raise _ => []
  | .put row next => row :: next.rows

/-- Execution against constraints. -/
def run (check : ω → Bool) (bad : ε) : Script ω ε α → Except ε α
  | .ret a => .ok a
  | .raise e => .error e
  | .put row next => if check row then next.run check bad else .error bad

/-! ## Equations -/

@[simp] theorem bind_ret (a : α) (k : α → Script ω ε β) :
    (ret a : Script ω ε α) >>= k = k a := rfl

@[simp] theorem bind_raise (e : ε) (k : α → Script ω ε β) :
    (raise e : Script ω ε α) >>= k = raise e := rfl

@[simp] theorem bind_put (row : ω) (next : Script ω ε α) (k : α → Script ω ε β) :
    put row next >>= k = put row (next >>= k) := rfl

@[simp] theorem pure_eq_ret (a : α) : (pure a : Script ω ε α) = ret a := rfl

@[simp] theorem result_ret (a : α) : (ret a : Script ω ε α).result = .ok a := rfl

@[simp] theorem result_raise (e : ε) : (raise e : Script ω ε α).result = .error e := rfl

@[simp] theorem rows_ret (a : α) : (ret a : Script ω ε α).rows = [] := rfl

@[simp] theorem rows_raise (e : ε) : (raise e : Script ω ε α).rows = [] := rfl

@[simp] theorem result_ofExcept (x : Except ε α) :
    (ofExcept x : Script ω ε α).result = x := by
  cases x <;> rfl

@[simp] theorem rows_ofExcept (x : Except ε α) : (ofExcept x : Script ω ε α).rows = [] := by
  cases x <;> rfl

@[simp] theorem rows_require (c : Prop) [Decidable c] (e : ε) :
    (require c e : Script ω ε Unit).rows = [] := by
  unfold require
  split <;> rfl

@[simp] theorem result_write (row : ω) : (write row : Script ω ε Unit).result = .ok () := rfl

@[simp] theorem rows_write (row : ω) : (write row : Script ω ε Unit).rows = [row] := rfl

theorem result_bind (p : Script ω ε α) (k : α → Script ω ε β) :
    (p >>= k).result = match p.result with
      | .ok a => (k a).result
      | .error e => .error e := by
  induction p with
  | ret a | raise e => rfl
  | put row next ih => exact ih

theorem rows_bind (p : Script ω ε α) (k : α → Script ω ε β) :
    (p >>= k).rows = p.rows ++ match p.result with
      | .ok a => (k a).rows
      | .error _ => [] := by
  induction p with
  | ret a | raise e => rfl
  | put row next ih => exact congrArg (List.cons row) ih

variable {p : Script ω ε α} {check : ω → Bool}

variable {k : α → Script ω ε β} {b : β}

theorem result_bind_ok :
    (p >>= k).result = .ok b ↔ ∃ a, p.result = .ok a ∧ (k a).result = .ok b := by
  rw [result_bind]
  cases hp : p.result with
  | ok a | error e => simp

variable {a : α}

theorem rows_bind_ok (hp : p.result = .ok a) : (p >>= k).rows = p.rows ++ (k a).rows := by
  rw [rows_bind, hp]

variable {u : Unit} {c : Prop} {e : ε}

theorem result_require_ok [Decidable c] : (require c e : Script ω ε Unit).result = .ok u ↔ c := by
  unfold require
  split <;> simp_all

theorem result_updateWhere (p : α → Bool) (f : α → α) (row : α → ω) (xs : List α) :
    (updateWhere p f row xs : Script ω ε (List α)).result =
      .ok (xs.map fun x => if p x then f x else x) := by
  induction xs with
  | nil => rfl
  | cons x xs ih =>
    unfold updateWhere
    split <;>
      (show ((updateWhere p f row xs : Script ω ε (List α)) >>= _).result = _
       rw [result_bind, ih]
       simp_all)

theorem rows_updateWhere (p : α → Bool) (f : α → α) (row : α → ω) (xs : List α) :
    (updateWhere p f row xs : Script ω ε (List α)).rows =
      (xs.filter p).map fun x => row (f x) := by
  induction xs with
  | nil => rfl
  | cons x xs ih =>
    unfold updateWhere
    split
    · rename_i hx
      show row (f x) :: ((updateWhere p f row xs : Script ω ε (List α)) >>= _).rows = _
      rw [rows_bind, ih, result_updateWhere, filter_cons_of_pos hx]
      simp
    · rename_i hx
      show ((updateWhere p f row xs : Script ω ε (List α)) >>= _).rows = _
      rw [rows_bind, ih, result_updateWhere, filter_cons_of_neg hx]
      simp

/-! ## Folds -/

section

variable {step : β → α → Script ω ε β} {I : β → Prop} {xs : List α} {r : ω}

/-- What a fold has written was written by one of its steps. -/
theorem mem_rows_fold (hStep : ∀ b x b', I b → (step b x).result = .ok b' → I b') (hI : I b)
    (hRow : r ∈ (foldScript step xs b).rows) : ∃ x ∈ xs, ∃ b', I b' ∧ r ∈ (step b' x).rows := by
  induction xs generalizing b with
  | nil => cases hRow
  | cons x xs ih =>
    have hRow : r ∈ (step b x >>= fun b' => foldScript step xs b').rows := hRow
    rw [rows_bind, mem_append] at hRow
    rcases hRow with hHere | hLater
    · exact ⟨x, mem_cons_self, b, hI, hHere⟩
    · cases hRes : (step b x).result with
      | error e =>
        rw [hRes] at hLater
        cases hLater
      | ok b' =>
        rw [hRes] at hLater
        obtain ⟨y, hy, hRest⟩ := ih (hStep b x b' hI hRes) hLater
        exact ⟨y, mem_cons_of_mem _ hy, hRest⟩

variable {γ : Type} {p : γ → α → Bool} {f : γ → α → α} {row : α → ω}

/-- A table after a series of updates: each row has had them in turn. -/
theorem result_updates (cs : List γ) (xs : List α) :
    (foldScript (fun xs c => updateWhere (p c) (f c) row xs) cs xs : Script ω ε (List α)).result =
      .ok (xs.map fun x => cs.foldl (fun x c => if p c x then f c x else x) x) := by
  induction cs generalizing xs with
  | nil => simp [foldScript]
  | cons c cs ih =>
    show (updateWhere (p c) (f c) row xs >>= _).result = _
    rw [result_bind, result_updateWhere]
    show (foldScript _ cs _).result = _
    rw [ih, map_map]
    rfl

/-- What a series of updates writes, up to what they all keep. -/
theorem mem_rows_updates {κ : Type} {cs : List γ} (k : α → κ) (hk : ∀ c x, k (f c x) = k x)
    (hRow : r ∈ (foldScript (fun xs c => updateWhere (p c) (f c) row xs) cs xs :
      Script ω ε (List α)).rows) :
    ∃ c ∈ cs, ∃ x ∈ xs, ∃ y, k y = k x ∧ p c y = true ∧ r = row (f c y) := by
  have hStep : ∀ ys c zs, (∀ y ∈ ys, ∃ x ∈ xs, k y = k x) →
      (updateWhere (p c) (f c) row ys : Script ω ε (List α)).result = .ok zs →
      ∀ z ∈ zs, ∃ x ∈ xs, k z = k x := by
    intro ys c zs hKept hRes z hz
    rw [result_updateWhere] at hRes
    cases hRes
    obtain ⟨y, hy, rfl⟩ := mem_map.mp hz
    obtain ⟨x, hx, hSame⟩ := hKept y hy
    refine ⟨x, hx, ?_⟩
    split
    · exact (hk c y).trans hSame
    · exact hSame
  obtain ⟨c, hc, ys, hKept, hRow⟩ := mem_rows_fold hStep (fun y hy => ⟨y, hy, rfl⟩) hRow
  rw [rows_updateWhere] at hRow
  obtain ⟨y, hy, rfl⟩ := mem_map.mp hRow
  obtain ⟨hy, hp⟩ := mem_filter.mp hy
  obtain ⟨x, hx, hSame⟩ := hKept y hy
  exact ⟨c, hc, x, hx, y, hSame, hp, rfl⟩

end

/-! ## Constraints -/

variable {bad : ε}

theorem run_bind_ok : (p >>= k).run check bad = .ok b ↔
      ∃ a, p.run check bad = .ok a ∧ (k a).run check bad = .ok b := by
  induction p with
  | ret a =>
    rw [bind_ret]
    simp [run]
  | raise e =>
    rw [bind_raise]
    simp [run]
  | put row next ih =>
    rw [bind_put, run, run]
    by_cases hRow : check row = true
    · rw [if_pos hRow, if_pos hRow]
      exact ih
    · rw [if_neg hRow, if_neg hRow]
      simp

@[simp] theorem run_ofExcept (x : Except ε α) : (ofExcept x : Script ω ε α).run check bad = x := by
  cases x <;> rfl

theorem run_require_ok [Decidable c] :
    (require c e : Script ω ε Unit).run check bad = .ok u ↔ c := by
  unfold require
  split <;> simp_all [run]

theorem run_write_ok {row : ω} :
    (write row : Script ω ε Unit).run check bad = .ok u ↔ check row = true := by
  unfold write run
  split <;> simp_all [run]

/-- **Rows that pass do not stop a script.** -/
theorem run_eq_result (hRows : ∀ row ∈ p.rows, check row = true) : p.run check bad = p.result := by
  induction p with
  | ret a | raise e => rfl
  | put row next ih =>
    rw [run, if_pos (hRows row mem_cons_self)]
    exact ih fun r hr => hRows r (mem_cons_of_mem _ hr)

/-- **A script that commits has written only rows that pass.** -/
theorem run_eq_ok (hRun : p.run check bad = .ok a) :
    p.result = .ok a ∧ ∀ row ∈ p.rows, check row = true := by
  induction p with
  | ret b => exact ⟨hRun, fun row hr => nomatch hr⟩
  | raise e => cases hRun
  | put row next ih =>
    rw [run] at hRun
    split at hRun
    · rename_i hRow
      obtain ⟨hResult, hRows⟩ := ih hRun
      refine ⟨hResult, fun r hr => ?_⟩
      rcases mem_cons.mp hr with rfl | hr
      · exact hRow
      · exact hRows r hr
    · cases hRun

end Script

end EternalAI.Lib

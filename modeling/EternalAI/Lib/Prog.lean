import Mathlib.Logic.Function.Basic

/-!
# Resumption programs

An asynchronous procedure is modelled as a *resumption*: a tree of atomic
actions on a shared state, where the program may be interrupted before every
action. `Prog σ ε α` is the type of such procedures over the shared state `σ`,
raising exceptions of type `ε` and returning an `α`.

* `Prog.read` observes the shared state, `Prog.atomic` is a transaction: it
  either commits a new state or raises and leaves the state alone.
* `Prog.attempt` turns a raised exception into a value, which is all that
  `try`/`finally` needs.
* `Prog.run` executes a program alone, `Prog.trail` lists the states it goes
  through.
* `Prog.answers` is what a sequence of calls is answered.
* `Prog.Ends` is an execution with anything happening between the actions.

What interrupts a program, and what may be concluded from that, is the subject
of `Lib/Pool.lean`.
-/

namespace EternalAI.Lib

open List

/-- A program: it has returned, it has raised, or its next step updates the
shared state by `upd` and goes on with what it saw before the update. -/
inductive Prog (σ ε α : Type) where
  | ret (a : α)
  | raise (e : ε)
  | act (upd : σ → σ) (next : σ → Prog σ ε α)

namespace Prog

variable {σ ε α β : Type}

/-- Sequencing: the second program starts where the first returns. -/
protected def bind : Prog σ ε α → (α → Prog σ ε β) → Prog σ ε β
  | .ret a, k => k a
  | .raise e, _ => .raise e
  | .act upd next, k => .act upd fun s => (next s).bind k

instance : Monad (Prog σ ε) where
  pure := .ret
  bind := Prog.bind

/-- The same program with its exception as a value. -/
def attempt : Prog σ ε α → Prog σ ε (Except ε α)
  | .ret a => .ret (.ok a)
  | .raise e => .ret (.error e)
  | .act upd next => .act upd fun s => (next s).attempt

/-- A computation that needs no state. -/
def ofExcept : Except ε α → Prog σ ε α
  | .ok a => .ret a
  | .error e => .raise e

/-- Raise `e` unless `c` holds. -/
def require (c : Prop) [Decidable c] (e : ε) : Prog σ ε Unit :=
  if c then .ret () else .raise e

/-- Observe the shared state. -/
def read (f : σ → α) : Prog σ ε α :=
  .act id fun s => .ret (f s)

/-- The state a transaction leaves behind. -/
def committed (f : σ → Except ε (α × σ)) (s : σ) : σ :=
  match f s with
  | .ok (_, s') => s'
  | .error _ => s

/-- A transaction: commit the new state, or raise and change nothing. -/
def atomic (f : σ → Except ε (α × σ)) : Prog σ ε α :=
  .act (committed f) fun s => ofExcept ((f s).map Prod.fst)

/-- Run `body`, then `cleanup` whether or not `body` raised. -/
def andFinally (body : Prog σ ε α) (cleanup : Prog σ ε Unit) : Prog σ ε α := do
  let r ← body.attempt
  cleanup
  ofExcept r

/-- A program whose result is not looked at. -/
def discard (p : Prog σ ε α) : Prog σ ε Unit := do
  let _ ← p
  pure ()

/-- Execute a program alone, from the state `s`. -/
def run : Prog σ ε α → σ → Except ε α × σ
  | .ret a, s => (.ok a, s)
  | .raise e, s => (.error e, s)
  | .act upd next, s => (next s).run (upd s)

/-- The states after each action of a program executed alone, newest first,
on top of the states `t` before it. -/
def trail : Prog σ ε α → σ → List σ → List σ
  | .ret _, s, t => s :: t
  | .raise _, s, t => s :: t
  | .act upd next, s, t => (next s).trail (upd s) (s :: t)

/-- The history after a program was executed alone on top of it. -/
def after (p : Prog σ ε α) : List σ → List σ
  | [] => []
  | s :: t => p.trail s t

/-- The history after a program was executed alone on top of it and died after
`n` actions. -/
def dies (crash : σ → σ) : Nat → Prog σ ε α → List σ → List σ
  | n + 1, .act upd next, s :: t => (next s).dies crash n (upd s :: s :: t)
  | _, _, s :: t => crash s :: s :: t
  | _, _, [] => []

/-- Every state of a program executed alone from `s` satisfies `P`. -/
def Passes (P : σ → Prop) : Prog σ ε α → σ → Prop
  | .ret _, s | .raise _, s => P s
  | .act upd next, s => P s ∧ (next s).Passes P (upd s)

/-! ## Equations -/

@[simp] theorem bind_ret (a : α) (k : α → Prog σ ε β) : (ret a : Prog σ ε α) >>= k = k a := rfl

theorem bind_ret_right (p : Prog σ ε α) : p >>= ret = p := by
  induction p with
  | ret a | raise e => rfl
  | act upd next ih => exact congrArg (act upd) (funext ih)

@[simp] theorem bind_raise (e : ε) (k : α → Prog σ ε β) :
    (raise e : Prog σ ε α) >>= k = raise e := rfl

@[simp] theorem bind_act (upd : σ → σ) (next : σ → Prog σ ε α) (k : α → Prog σ ε β) :
    act upd next >>= k = act upd fun s => next s >>= k := rfl

@[simp] theorem pure_eq_ret (a : α) : (pure a : Prog σ ε α) = ret a := rfl

/-- Running a sequence runs the first program and then, unless it raised, the
second one from where the first left the state. -/
theorem run_bind (p : Prog σ ε α) (k : α → Prog σ ε β) (s : σ) :
    (p >>= k).run s = match p.run s with
      | (.ok a, s') => (k a).run s'
      | (.error e, s') => (.error e, s') := by
  induction p generalizing s with
  | ret a | raise e => rfl
  | act upd next ih =>
    rw [bind_act]
    show (next s >>= k).run (upd s) = _
    rw [ih s (upd s)]
    rfl

variable {k : α → Prog σ ε β} {f : σ → Except ε (α × σ)}

variable {s s' : σ} {p : Prog σ ε α} {a : α}

theorem run_bind_ok (hp : p.run s = (.ok a, s')) : (p >>= k).run s = (k a).run s' := by
  rw [run_bind, hp]

variable {e : ε}

theorem run_bind_error (hp : p.run s = (.error e, s')) : (p >>= k).run s = (.error e, s') := by
  rw [run_bind, hp]

theorem run_attempt (p : Prog σ ε α) (s : σ) :
    p.attempt.run s = (.ok (p.run s).1, (p.run s).2) := by
  induction p generalizing s with
  | ret a | raise e => rfl
  | act upd next ih => exact ih s (upd s)

@[simp] theorem run_ret (a : α) (s : σ) : (ret a : Prog σ ε α).run s = (.ok a, s) := rfl

@[simp] theorem run_read (f : σ → α) (s : σ) : (read f : Prog σ ε α).run s = (.ok (f s), s) := rfl

theorem run_ofExcept (x : Except ε α) (s : σ) : (ofExcept x : Prog σ ε α).run s = (x, s) := by
  cases x <;> rfl

theorem run_require (c : Prop) [Decidable c] (e : ε) (s : σ) :
    (require c e : Prog σ ε Unit).run s = (if c then .ok () else .error e, s) := by
  unfold require
  split <;> rfl

variable {c : Prop}

theorem of_run_require [Decidable c] (hRun : (require c e : Prog σ ε Unit).run s = (.ok (), s')) :
    c := by
  by_cases hc : c
  · exact hc
  · rw [run_require, if_neg hc] at hRun
    cases hRun

theorem committed_ok (hf : f s = .ok (a, s')) : committed f s = s' := by
  rw [committed, hf]

theorem committed_error (hf : f s = .error e) : committed f s = s := by
  rw [committed, hf]

theorem run_atomic (f : σ → Except ε (α × σ)) (s : σ) :
    (atomic f).run s = match f s with
      | .ok (a, s') => (.ok a, s')
      | .error e => (.error e, s) := by
  rw [atomic, run, run_ofExcept]
  cases hf : f s with
  | ok r => rw [committed_ok hf]; rfl
  | error e => rw [committed_error hf]; rfl

/-! ## The states of an execution -/

variable {P : σ → Prop}

theorem passes_bind : (p >>= k).Passes P s ↔
    p.Passes P s ∧ ∀ a s', p.run s = (.ok a, s') → (k a).Passes P s' := by
  induction p generalizing s with
  | ret a =>
    constructor
    · intro hAll
      refine ⟨?_, fun a s' hRun => by cases hRun; exact hAll⟩
      show P s
      cases hk : k a with
      | ret b | raise e => rw [bind_ret, hk] at hAll; exact hAll
      | act upd next => rw [bind_ret, hk] at hAll; exact hAll.1
    · exact fun hBoth => hBoth.2 a s rfl
  | raise e => exact ⟨fun hAll => ⟨hAll, nofun⟩, fun hBoth => hBoth.1⟩
  | act upd next ih => exact (and_congr_right fun _ => ih s).trans and_assoc.symm

theorem passes_attempt : p.attempt.Passes P s ↔ p.Passes P s := by
  induction p generalizing s with
  | ret a | raise e => exact Iff.rfl
  | act upd next ih => exact and_congr_right fun _ => ih s

theorem passes_read {f : σ → α} : (read f : Prog σ ε α).Passes P s ↔ P s := and_self_iff

theorem passes_ret : (ret a : Prog σ ε α).Passes P s ↔ P s := Iff.rfl

theorem passes_require [Decidable c] : (require c e : Prog σ ε Unit).Passes P s ↔ P s := by
  unfold require
  split <;> exact Iff.rfl

theorem passes_atomic : (atomic f).Passes P s ↔ P s ∧ P (committed f s) := by
  refine and_congr_right fun _ => ?_
  show (ofExcept ((f s).map Prod.fst)).Passes P (committed f s) ↔ _
  cases (f s).map Prod.fst <;> exact Iff.rfl

/-- Wherever the program dies, it leaves one of these states. -/
theorem Passes.dies (hAll : p.Passes P s) (crash : σ → σ) (n : Nat) (t : List σ) :
    ∃ x ∈ (p.dies crash n (s :: t)).head?, ∃ y, P y ∧ x = crash y := by
  induction n generalizing p s t with
  | zero =>
    refine ⟨crash s, by cases p <;> rfl, s, ?_, rfl⟩
    cases p with
    | ret a | raise e => exact hAll
    | act upd next => exact hAll.1
  | succ n ih =>
    cases p with
    | ret a | raise e => exact ⟨crash s, rfl, s, hAll, rfl⟩
    | act upd next => exact ih hAll.2 (s :: t)

/-! ## One call after the other -/

/-- What a sequence of calls is answered, each executed alone where the one before has
left the state. -/
def answers {κ : Type} (program : κ → Prog σ ε α) : List κ → σ → List (Except ε α)
  | [], _ => []
  | call :: calls, s =>
    ((program call).run s).1 :: answers program calls ((program call).run s).2

/-- Two services answer alike when every call does, and related states stay related. -/
theorem answers_eq {κ τ : Type} {p : κ → Prog σ ε α} {q : κ → Prog τ ε α} (R : σ → τ → Prop)
    {calls : List κ} (hCalls : ∀ call ∈ calls, ∀ s t, R s t →
      ((p call).run s).1 = ((q call).run t).1 ∧ R ((p call).run s).2 ((q call).run t).2) :
    ∀ s t, R s t → answers p calls s = answers q calls t := by
  induction calls with
  | nil => exact fun _ _ _ => rfl
  | cons call calls ih =>
    intro s t hR
    obtain ⟨hAnswer, hNext⟩ := hCalls call mem_cons_self s t hR
    rw [answers, answers, hAnswer]
    rw [ih (fun c hc => hCalls c (mem_cons_of_mem _ hc)) _ _ hNext]

/-! ## Executions that are interrupted -/

/-- An execution to the end: the states before and after each action of the
program, and its result. Whatever happens between two actions is arbitrary. -/
inductive Ends : Prog σ ε α → List (σ × σ) → Except ε α → Prop
  | ret {a : α} : Ends (.ret a) [] (.ok a)
  | raise {e : ε} : Ends (.raise e) [] (.error e)
  | act {upd : σ → σ} {next : σ → Prog σ ε α} {steps : List (σ × σ)} {r : Except ε α} (s : σ) :
      Ends (next s) steps r → Ends (.act upd next) ((s, upd s) :: steps) r

def Still (steps : List (σ × σ)) : Prop := ∀ s ∈ steps, s.2 = s.1

theorem still_nil : Still ([] : List (σ × σ)) := nofun

theorem Still.cons {steps : List (σ × σ)} (hStill : Still steps) : Still ((s, s) :: steps) := by
  intro x hx
  rcases mem_cons.mp hx with rfl | hx
  · rfl
  · exact hStill x hx

/-- A transaction that raises. -/
theorem still_failed (hf : f s = .error e) : Still [(s, committed f s)] := by
  rw [committed_error hf]
  exact still_nil.cons

variable {steps : List (σ × σ)} {r : Except ε β}

/-- A computation without state, followed by the rest of the program. -/
theorem Ends.of_ofExcept {x : Except ε α} (hEnds : Ends (ofExcept x >>= k) steps r) :
    (∃ e, x = .error e ∧ steps = [] ∧ r = .error e) ∨ ∃ a, x = .ok a ∧ Ends (k a) steps r := by
  cases x with
  | ok a => exact .inr ⟨a, rfl, hEnds⟩
  | error e =>
    cases hEnds
    exact .inl ⟨e, rfl, rfl, rfl⟩

theorem Ends.of_require [Decidable c] {k : Unit → Prog σ ε β}
    (hEnds : Ends (require c e >>= k) steps r) :
    (¬c ∧ steps = [] ∧ r = .error e) ∨ c ∧ Ends (k ()) steps r := by
  unfold require at hEnds
  split at hEnds
  · exact .inr ⟨‹c›, hEnds⟩
  · cases hEnds
    exact .inl ⟨‹¬c›, rfl, rfl⟩

theorem Ends.of_read {f : σ → α} (hEnds : Ends (read f >>= k) steps r) :
    ∃ s rest, steps = (s, s) :: rest ∧ Ends (k (f s)) rest r := by
  cases hEnds with
  | act s hRest => exact ⟨s, _, rfl, hRest⟩

/-- A transaction, followed by the rest of the program. -/
theorem Ends.of_atomic_seq (hEnds : Ends (atomic f >>= k) steps r) :
    ∃ s rest, steps = (s, committed f s) :: rest ∧
      ((∃ e, f s = .error e ∧ rest = [] ∧ r = .error e) ∨
        ∃ a s', f s = .ok (a, s') ∧ Ends (k a) rest r) := by
  cases hEnds with
  | act s hRest =>
    refine ⟨s, _, rfl, ?_⟩
    cases hf : f s with
    | ok x =>
      simp only [hf] at hRest
      exact .inr ⟨x.1, x.2, rfl, hRest⟩
    | error e =>
      simp only [hf] at hRest
      cases hRest
      exact .inl ⟨e, rfl, rfl, rfl⟩

theorem Ends.of_atomic {f : σ → Except ε (β × σ)} (hEnds : Ends (atomic f) steps r) :
    ∃ s, steps = [(s, committed f s)] ∧ r = (f s).map Prod.fst := by
  cases hEnds with
  | act s hRest =>
    refine ⟨s, ?_⟩
    cases hf : f s with
    | ok a | error e =>
      simp only [hf] at hRest
      cases hRest
      exact ⟨rfl, rfl⟩

/-! The same for an execution that is known to get further. -/

variable {x : σ × σ}

theorem ends_read {f : σ → α} :
    (read f >>= k).Ends (x :: steps) r ↔ x.2 = x.1 ∧ (k (f x.1)).Ends steps r := by
  constructor
  · intro hEnds
    obtain ⟨s, rest, hEq, hRest⟩ := hEnds.of_read
    cases hEq
    exact ⟨rfl, hRest⟩
  · obtain ⟨s, s'⟩ := x
    rintro ⟨hSame, hRest⟩
    obtain rfl : s' = s := hSame
    exact .act _ hRest

theorem ends_ofExcept {y : Except ε α} :
    (ofExcept y >>= k).Ends (x :: steps) r ↔ ∃ a, y = .ok a ∧ (k a).Ends (x :: steps) r := by
  constructor
  · intro hEnds
    obtain ⟨_, _, hNil, _⟩ | hSome := hEnds.of_ofExcept
    · cases hNil
    · exact hSome
  · rintro ⟨a, rfl, hRest⟩
    exact hRest

theorem ends_require [Decidable c] {k : Unit → Prog σ ε β} :
    (require c e >>= k).Ends (x :: steps) r ↔ c ∧ (k ()).Ends (x :: steps) r := by
  unfold require
  split
  · exact (and_iff_right ‹c›).symm
  · exact ⟨nofun, fun hBoth => absurd hBoth.1 ‹¬c›⟩

theorem ends_atomic : (atomic f).Ends [(s, s')] (.ok a) ↔ f s = .ok (a, s') := by
  constructor
  · intro hEnds
    obtain ⟨_, hEq, hOk⟩ := hEnds.of_atomic
    cases hEq
    obtain ⟨⟨_, _⟩, hf, rfl⟩ : ∃ out, f s = .ok out ∧ out.1 = a := by
      cases hf : f s with
      | ok out => exact ⟨out, rfl, by rw [hf] at hOk; exact (Except.ok.inj hOk).symm⟩
      | error e => rw [hf] at hOk; cases hOk
    rw [committed_ok hf, hf]
  · intro hf
    have hEnds : (atomic f).Ends [(s, committed f s)] (.ok a) := by
      refine .act s ?_
      rw [hf]
      exact .ret
    rwa [committed_ok hf] at hEnds

end Prog

end EternalAI.Lib

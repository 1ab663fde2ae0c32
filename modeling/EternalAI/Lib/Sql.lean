import Mathlib.Logic.Basic

/-!
# Three-valued conditions

SQL conditions are true, false or unknown, and unknown (`NULL`) arises from
comparing a null column. `Truth` is that type with the strong Kleene
connectives. A `CHECK` constraint is violated only by a condition that is
false; `(…) IS TRUE` also refuses one that is unknown.

Both readings distribute over `AND` and `OR`, so that a constraint is evaluated
by looking at its atoms.
-/

namespace EternalAI.Lib

/-- A truth value of SQL; `none` is unknown. -/
abbrev Truth := Option Bool

namespace Truth

variable {α : Type}

protected def and : Truth → Truth → Truth
  | some false, _ => some false
  | some true, b => b
  | none, some false => some false
  | none, _ => none

protected def or : Truth → Truth → Truth
  | some true, _ => some true
  | some false, b => b
  | none, some true => some true
  | none, _ => none

instance : AndOp Truth := ⟨Truth.and⟩

instance : OrOp Truth := ⟨Truth.or⟩

def known (c : Prop) [Decidable c] : Truth := some (decide c)

/-- `x IS NULL`. -/
def isNull (x : Option α) : Truth := some x.isNone

/-- `x IS NOT NULL`. -/
def isNotNull (x : Option α) : Truth := some x.isSome

def on (x : Option α) (c : α → Bool) : Truth := x.map c

/-- A condition on two columns that may be null. -/
def on₂ (x y : Option α) (c : α → α → Bool) : Truth := x.bind fun a => y.map fun b => c a b

/-- `t IS TRUE`. -/
def isTrue (t : Truth) : Bool := t == some true

/-- A `CHECK` of the condition passes. -/
def passes (t : Truth) : Bool := t != some false

/-! ## Evaluation -/

@[simp] theorem isTrue_and (a b : Truth) : (a &&& b).isTrue = (a.isTrue && b.isTrue) := by
  rcases a with _ | _ | _ <;> rcases b with _ | _ | _ <;> rfl

@[simp] theorem isTrue_or (a b : Truth) : (a ||| b).isTrue = (a.isTrue || b.isTrue) := by
  rcases a with _ | _ | _ <;> rcases b with _ | _ | _ <;> rfl

@[simp] theorem passes_and (a b : Truth) : (a &&& b).passes = (a.passes && b.passes) := by
  rcases a with _ | _ | _ <;> rcases b with _ | _ | _ <;> rfl

@[simp] theorem passes_or (a b : Truth) : (a ||| b).passes = (a.passes || b.passes) := by
  rcases a with _ | _ | _ <;> rcases b with _ | _ | _ <;> rfl

@[simp] theorem isTrue_known (c : Prop) [Decidable c] : (known c).isTrue = decide c := by
  by_cases hc : c <;> simp [known, isTrue, hc]

@[simp] theorem passes_known (c : Prop) [Decidable c] : (known c).passes = decide c := by
  by_cases hc : c <;> simp [known, passes, hc]

section

variable (x : Option α)

include x

@[simp] theorem isTrue_isNull : (isNull x).isTrue = x.isNone := by
  cases x <;> rfl

@[simp] theorem passes_isNull : (isNull x).passes = x.isNone := by
  cases x <;> rfl

@[simp] theorem isTrue_isNotNull : (isNotNull x).isTrue = x.isSome := by
  cases x <;> rfl

@[simp] theorem passes_isNotNull : (isNotNull x).passes = x.isSome := by
  cases x <;> rfl

@[simp] theorem isTrue_on (c : α → Bool) : (on x c).isTrue = x.any c := by
  cases x with
  | none => rfl
  | some a => cases hc : c a <;> simp [on, isTrue, hc]

@[simp] theorem passes_on (c : α → Bool) : (on x c).passes = x.all c := by
  cases x with
  | none => rfl
  | some a => cases hc : c a <;> simp [on, passes, hc]

end

@[simp] theorem isTrue_on₂ (x y : Option α) (c : α → α → Bool) :
    (on₂ x y c).isTrue = x.any fun a => y.any (c a) := by
  cases x with
  | none => rfl
  | some a =>
    cases y with
    | none => rfl
    | some b => cases hc : c a b <;> simp [on₂, isTrue, hc]

end Truth

end EternalAI.Lib

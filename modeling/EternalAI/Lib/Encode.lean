import Mathlib.Data.List.Basic

/-!
# Documents as bytes

An encoding of lists of named texts that ends itself at every level, so that different
documents have different bytes. A character is one byte, or four with a mark; a text is
closed by a zero.

* `documentBytes_injective` — the encoding is one.
-/

namespace EternalAI.Lib

open List

/-- The bytes of a character, of which the first is not zero. -/
def charBytes (c : Char) : List UInt8 :=
  if c.toNat < 128 then [UInt8.ofNat (c.toNat + 1)]
  else [200, UInt8.ofNat (c.toNat / 65536), UInt8.ofNat (c.toNat / 256 % 256),
    UInt8.ofNat (c.toNat % 256)]

def textBytes : List Char → List UInt8
  | [] => [0]
  | c :: cs => charBytes c ++ textBytes cs

def documentBytes (document : List (String × List Char)) : List UInt8 :=
  document.flatMap fun member => textBytes member.1.toList ++ textBytes member.2

theorem ofNat_inj_of_lt {a b : Nat} (ha : a < 256) (hb : b < 256)
    (hEq : UInt8.ofNat a = UInt8.ofNat b) : a = b := by
  have hNat := congrArg UInt8.toNat hEq
  rw [UInt8.toNat_ofNat_of_lt' ha, UInt8.toNat_ofNat_of_lt' hb] at hNat
  exact hNat

theorem char_toNat_lt (c : Char) : c.toNat < 1114112 := by
  have hValid : c.toNat.isValidChar := c.valid
  omega

variable {xs ys : List UInt8} {c : Char}

theorem charBytes_inj {d : Char} (hEq : charBytes c ++ xs = charBytes d ++ ys) :
    c = d ∧ xs = ys := by
  have hc := char_toNat_lt c
  have hd := char_toNat_lt d
  unfold charBytes at hEq
  split at hEq <;> split at hEq <;>
    simp only [cons_append, nil_append, List.cons.injEq] at hEq
  · have hCode := ofNat_inj_of_lt (by omega) (by omega) hEq.1
    exact ⟨Char.toNat_inj.mp (by omega), hEq.2⟩
  · have hCode : c.toNat + 1 = 200 := ofNat_inj_of_lt (by omega) (by omega) hEq.1
    omega
  · have hCode : d.toNat + 1 = 200 := ofNat_inj_of_lt (by omega) (by omega) hEq.1.symm
    omega
  · obtain ⟨-, hHigh, hMiddle, hLow, hRest⟩ := hEq
    have hHigh := ofNat_inj_of_lt (by omega) (by omega) hHigh
    have hMiddle := ofNat_inj_of_lt (by omega) (by omega) hMiddle
    have hLow := ofNat_inj_of_lt (by omega) (by omega) hLow
    exact ⟨Char.toNat_inj.mp (by omega), hRest⟩

/-- No character begins like the end of a text. -/
theorem charBytes_ne_zero : charBytes c ++ xs ≠ 0 :: ys := by
  intro hEq
  unfold charBytes at hEq
  split at hEq
  · simp only [cons_append, nil_append, List.cons.injEq] at hEq
    have hCode : c.toNat + 1 = 0 := ofNat_inj_of_lt (by omega) (by omega) hEq.1
    omega
  · simp only [cons_append, List.cons.injEq] at hEq
    exact absurd hEq.1 (by decide)

theorem textBytes_inj {as bs : List Char} (hEq : textBytes as ++ xs = textBytes bs ++ ys) :
    as = bs ∧ xs = ys := by
  induction as generalizing bs with
  | nil =>
    cases bs with
    | nil => exact ⟨rfl, (List.cons.inj hEq).2⟩
    | cons b bs =>
      rw [textBytes, textBytes, append_assoc] at hEq
      exact absurd hEq.symm charBytes_ne_zero
  | cons a as ih =>
    cases bs with
    | nil =>
      rw [textBytes, textBytes, append_assoc] at hEq
      exact absurd hEq charBytes_ne_zero
    | cons b bs =>
      rw [textBytes, textBytes, append_assoc, append_assoc] at hEq
      obtain ⟨hFirst, hMore⟩ := charBytes_inj hEq
      obtain ⟨hRest, hAfter⟩ := ih hMore
      exact ⟨by rw [hFirst, hRest], hAfter⟩

theorem textBytes_ne_nil (cs : List Char) : textBytes cs ≠ [] := by
  cases cs with
  | nil => exact cons_ne_nil _ _
  | cons c cs =>
    unfold textBytes charBytes
    split <;> exact cons_ne_nil _ _

/-- Different documents have different bytes. -/
theorem documentBytes_injective : Function.Injective documentBytes := by
  intro ds
  induction ds with
  | nil =>
    intro es hEq
    cases es with
    | nil => rfl
    | cons e es =>
      have hNil : textBytes e.1.toList = [] := (append_eq_nil_iff.mp
        (append_eq_nil_iff.mp hEq.symm).1).1
      exact absurd hNil (textBytes_ne_nil _)
  | cons d ds ih =>
    intro es hEq
    cases es with
    | nil =>
      have hNil : textBytes d.1.toList = [] := (append_eq_nil_iff.mp
        (append_eq_nil_iff.mp hEq).1).1
      exact absurd hNil (textBytes_ne_nil _)
    | cons e es =>
      have hBoth : textBytes d.1.toList ++ (textBytes d.2 ++ documentBytes ds) =
          textBytes e.1.toList ++ (textBytes e.2 ++ documentBytes es) := by
        rw [← append_assoc, ← append_assoc]
        exact hEq
      obtain ⟨hName, hBoth⟩ := textBytes_inj hBoth
      obtain ⟨hText, hRest⟩ := textBytes_inj hBoth
      rw [Prod.ext (String.toList_inj.mp hName) hText, ih hRest]

end EternalAI.Lib

import Mathlib.Data.List.Basic

/-!
# Bytes in hexadecimal

`hex` writes bytes as text, two lower-case digits each; different bytes have
different texts.
-/

namespace EternalAI.Lib

def hexDigit (n : Nat) : Char := Nat.digitChar (n % 16)

def hexByte (b : UInt8) : List Char := [hexDigit (b.toNat / 16), hexDigit b.toNat]

def hex (bytes : List UInt8) : List Char := bytes.flatMap hexByte

theorem hexDigit_inj {a b : Nat} (hEq : hexDigit a = hexDigit b) : a % 16 = b % 16 := by
  have hAll : ∀ i j : Fin 16, Nat.digitChar i.val = Nat.digitChar j.val → i = j := by decide
  have hFin := hAll ⟨a % 16, Nat.mod_lt _ (by decide)⟩ ⟨b % 16, Nat.mod_lt _ (by decide)⟩ hEq
  exact congrArg Fin.val hFin

theorem hexByte_inj {a b : UInt8} (hEq : hexByte a = hexByte b) : a = b := by
  injection hEq with hHigh hRest
  injection hRest with hLow _
  have hHigh := hexDigit_inj hHigh
  have hLow := hexDigit_inj hLow
  have ha := a.toNat_lt
  have hb := b.toNat_lt
  refine UInt8.toNat_inj.mp ?_
  omega

theorem hex_inj {xs ys : List UInt8} (hEq : hex xs = hex ys) : xs = ys := by
  induction xs generalizing ys with
  | nil =>
    cases ys with
    | nil => rfl
    | cons y ys => cases hEq
  | cons x xs ih =>
    cases ys with
    | nil => cases hEq
    | cons y ys =>
      have hBoth : hexByte x ++ hex xs = hexByte y ++ hex ys := hEq
      obtain ⟨hFirst, hRest⟩ := List.append_inj hBoth rfl
      rw [hexByte_inj hFirst, ih hRest]

end EternalAI.Lib

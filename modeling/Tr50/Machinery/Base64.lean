import Mathlib.Data.List.Basic
import Mathlib.Tactic

/-!
# Machinery/Base64 — bytes as text

Three bytes in four characters of six bits each; where the bytes run out before the third the last
characters are the pad.
-/

namespace Tr50.Machinery

/-- The character of a value below `64`. -/
def base64Char (n : ℕ) : UInt8 :=
  if n < 26 then UInt8.ofNat (65 + n)
  else if n < 52 then UInt8.ofNat (71 + n)
  else if n < 62 then UInt8.ofNat (n - 4)
  else if n = 62 then 43 else 47

def base64Pad : UInt8 := 61

/-- The coding of a text of bytes. -/
def base64 : List UInt8 → List UInt8
  | [] => []
  | [a] => [base64Char (a.toNat / 4), base64Char (a.toNat % 4 * 16), base64Pad, base64Pad]
  | [a, b] => [base64Char (a.toNat / 4), base64Char (a.toNat % 4 * 16 + b.toNat / 16),
      base64Char (b.toNat % 16 * 4), base64Pad]
  | a :: b :: c :: s => base64Char (a.toNat / 4) :: base64Char (a.toNat % 4 * 16 + b.toNat / 16)
      :: base64Char (b.toNat % 16 * 4 + c.toNat / 64) :: base64Char (c.toNat % 64) :: base64 s

/-- **Four characters for every three bytes**, and for what is left. -/
theorem length_base64 : ∀ s : List UInt8, (base64 s).length = 4 * ((s.length + 2) / 3)
  | [] => by simp [base64]
  | [_] => by simp [base64]
  | [_, _] => by simp [base64]
  | a :: b :: c :: s => by
      have ih := length_base64 s
      simp only [base64, List.length_cons]
      omega

end Tr50.Machinery

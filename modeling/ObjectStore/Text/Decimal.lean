/-! # Decimal digits

* **`Decimal.fixed`** — a number in a given count of digits, leading zeros included.
* **`Decimal.atLeast`** — a number in as many digits as it needs, but no fewer than a given count. -/

namespace ObjectStore.Decimal

/-- The character of a decimal digit. -/
def digitChar (d : Nat) : Char := Char.ofNat (48 + d)

/-- The last `width` digits of a number, leading zeros included. -/
def fixed : (width : Nat) → Nat → List Char
  | 0, _ => []
  | width + 1, n => fixed width (n / 10) ++ [digitChar (n % 10)]

@[simp] theorem length_fixed (width n : Nat) : (fixed width n).length = width := by
  induction width generalizing n with
  | zero => rfl
  | succ width ih => simp [fixed, ih]

/-- How many digits a number needs; zero needs one. -/
def digitCount (n : Nat) : Nat := if n < 10 then 1 else digitCount (n / 10) + 1

/-- A number in no fewer than `width` digits. -/
def atLeast (width n : Nat) : List Char := fixed (max width (digitCount n)) n

end ObjectStore.Decimal

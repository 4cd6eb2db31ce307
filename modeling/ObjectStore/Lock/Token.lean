import ObjectStore.StorageError
import ObjectStore.Text.Decimal

/-! # Lock tokens

* **`Token`** — the name of one party to a lock: what can be a single segment of a key.
* **`Token.ofString`** — the token with a given text, or why there is none.
* **`Token.numbered`** — generated tokens, in the form of random unique identifiers; different
  numbers give different ones (`numbered_injective`).
* **`Token.firstFree`** — the number of a generated token that is none of some texts
  (`numbered_firstFree_notMem`). -/

namespace ObjectStore

/-- A lock token. -/
structure Token where
  text : String
  /-- The text is not empty. -/
  nonempty : text ≠ ""
  /-- The text has no delimiter in it. -/
  undivided : delimiter ∉ text.toList
  deriving DecidableEq

namespace Token

@[ext] theorem ext {a b : Token} (h : a.text = b.text) : a = b := by
  cases a; cases b; cases h; rfl

instance : Repr Token := ⟨fun t _ => repr t.text⟩

/-- The token with a given text. A token names exactly one child of a key, so the empty text and
texts with a delimiter are refused. -/
def ofString (text : String) : Result Token :=
  if hn : text = "" then .error (.invalidKey "lock token must not be empty")
  else if hd : delimiter ∈ text.toList then
    .error (.invalidKey s!"lock token must not contain '/': {text}")
  else .ok ⟨text, hn, hd⟩

/-- A text is accepted if it is that of a token. -/
theorem ofString_eq_ok_iff {text : String} {t : Token} : ofString text = .ok t ↔ text = t.text := by
  constructor
  · intro h
    unfold ofString at h
    split at h
    · cases h
    · split at h
      · cases h
      · cases h
        rfl
  · rintro rfl
    rw [ofString, dif_neg t.nonempty, dif_neg t.undivided]

/-- The hexadecimal digits of a number, `width` of them. -/
def hexDigits : (width : Nat) → Nat → List Char
  | 0, _ => []
  | width + 1, n =>
    hexDigits width (n / 16) ++
      [if n % 16 < 10 then Decimal.digitChar (n % 16) else Char.ofNat (87 + n % 16)]

/-- What stands before the number in a generated token: four groups of digits, the third of which
begins with the version and the fourth with the variant. As many identifiers come before it as after
it. -/
def numberedFront : List Char :=
  '8' :: List.replicate 7 '0' ++ '-' :: List.replicate 4 '0' ++
    ['-', '4', '0', '0', '0', '-', '8', '0', '0', '0', '-']

/-- How many digits the last group of an identifier has: twelve, unless a number needs more. -/
def numberedWidth (n : Nat) : Nat := max 12 (n.log2 / 4 + 1)

/-- The text of the generated token of a given number: the form of a random identifier (version 4)
with the number in its last group. -/
def numberedText (n : Nat) : List Char := numberedFront ++ hexDigits (numberedWidth n) n

theorem delimiter_notMem_hexDigits (width n : Nat) : delimiter ∉ hexDigits width n := by
  induction width generalizing n with
  | zero => simp [hexDigits]
  | succ width ih =>
    have hlast : ∀ d < 16,
        (if d < 10 then Decimal.digitChar d else Char.ofNat (87 + d)) ≠ delimiter := by decide
    simp only [hexDigits, List.mem_append, List.mem_singleton, not_or]
    exact ⟨ih _, (hlast _ (Nat.mod_lt _ (by decide))).symm⟩

/-- The generated token of a given number. -/
def numbered (n : Nat) : Token where
  text := String.ofList (numberedText n)
  nonempty := by
    intro h
    have hlist := congrArg String.toList h
    simp [numberedText, numberedFront] at hlist
  undivided := by
    have hfront : delimiter ∉ numberedFront := by decide
    simp only [String.toList_ofList, numberedText, List.mem_append, not_or]
    exact ⟨hfront, delimiter_notMem_hexDigits _ n⟩

/-! ## Different numbers -/

@[simp] theorem length_hexDigits (width n : Nat) : (hexDigits width n).length = width := by
  induction width generalizing n with
  | zero => rfl
  | succ width ih => simp [hexDigits, ih]

/-- The digits determine the number as far as they go. -/
theorem mod_eq_of_hexDigits_eq {width n m : Nat} (h : hexDigits width n = hexDigits width m) :
    n % Nat.pow 16 width = m % Nat.pow 16 width := by
  induction width generalizing n m with
  | zero => simp [Nat.mod_one]
  | succ width ih =>
    have digit_injective : ∀ a < 16, ∀ b < 16,
        (if a < 10 then Decimal.digitChar a else Char.ofNat (87 + a)) =
          (if b < 10 then Decimal.digitChar b else Char.ofNat (87 + b)) → a = b := by decide
    obtain ⟨hfront, hlast⟩ := List.append_inj h (by simp)
    have hlow : n % 16 = m % 16 :=
      digit_injective _ (Nat.mod_lt _ (by decide)) _ (Nat.mod_lt _ (by decide))
        (List.singleton_inj.1 hlast)
    rw [Nat.pow_eq, Nat.pow_succ, Nat.mul_comm, Nat.mod_mul, Nat.mod_mul, hlow]
    exact congrArg (m % 16 + 16 * ·) (ih hfront)

/-- A number fits into its last group. -/
theorem lt_pow_numberedWidth (n : Nat) : n < Nat.pow 16 (numberedWidth n) := by
  have hlog : n < 2 ^ (n.log2 + 1) := Nat.lt_log2_self
  have hwidth : n.log2 + 1 ≤ 4 * numberedWidth n := by unfold numberedWidth; omega
  calc n < 2 ^ (n.log2 + 1) := hlog
    _ ≤ 2 ^ (4 * numberedWidth n) := Nat.pow_le_pow_right (by decide) hwidth
    _ = Nat.pow 16 (numberedWidth n) := by rw [Nat.pow_mul]; rfl

theorem numbered_injective {n m : Nat} (h : (numbered n).text = (numbered m).text) : n = m := by
  have hdigits : hexDigits (numberedWidth n) n = hexDigits (numberedWidth m) m := by
    simpa [numbered, numberedText] using congrArg String.toList h
  have hwidth : numberedWidth n = numberedWidth m := by
    simpa using congrArg List.length hdigits
  have hmod := mod_eq_of_hexDigits_eq (hwidth ▸ hdigits)
  have hn := lt_pow_numberedWidth n
  have hm := lt_pow_numberedWidth m
  rw [hwidth] at hn
  rwa [Nat.mod_eq_of_lt hn, Nat.mod_eq_of_lt hm] at hmod

/-! ## Free numbers -/

/-- The first number from a given one on whose token has none of some texts. -/
def firstFree (taken : List String) (n : Nat) : Nat :=
  if (numbered n).text ∈ taken then firstFree (taken.erase (numbered n).text) (n + 1) else n
termination_by taken.length
decreasing_by
  rename_i h
  have := List.length_erase_of_mem h
  have := List.length_pos_of_mem h
  omega

theorem le_firstFree (taken : List String) (n : Nat) : n ≤ firstFree taken n := by
  fun_induction firstFree taken n with
  | case1 taken n _ ih => omega
  | case2 => exact Nat.le_refl _

theorem numbered_firstFree_notMem (taken : List String) (n : Nat) :
    (numbered (firstFree taken n)).text ∉ taken := by
  fun_induction firstFree taken n with
  | case1 taken n _ ih =>
    intro hmem
    refine ih ((List.mem_erase_of_ne fun heq => ?_).2 hmem)
    have hle := le_firstFree (taken.erase (numbered n).text) (n + 1)
    have := numbered_injective heq
    omega
  | case2 taken n h => exact h

end Token

end ObjectStore

import Mathlib.Data.List.Basic
import ObjectStore.Text.Utf8

/-! # Texts and their bytes

The bytes of a text tell everything about it: they are decoded again, they are ordered as the texts
are, and one text begins with another one exactly if its bytes do.

* **`Utf8.decode_encode`** — the bytes of a text are decoded to the text.
* **`Utf8.encodeChar_append_lt`** — of two characters the smaller one has the smaller bytes, whatever
  follows them.
* **`Utf8.encode_lt_encode_iff`** — texts are ordered as their bytes are.
* **`Utf8.encode_prefix_encode_iff`** — texts begin with one another as their bytes do. -/

namespace ObjectStore.Utf8

theorem toNat_toUInt8 (n : Nat) : n.toUInt8.toNat = n % 256 := UInt8.toNat_ofNat'

/-- A character has a number below 110000 (in hexadecimal) that is not kept for surrogates. -/
theorem toNat_bounds (c : Char) :
    c.toNat < 0x110000 ∧ ¬ (0xD800 ≤ c.toNat ∧ c.toNat ≤ 0xDFFF) := by
  have hvalid : c.toNat < 0xD800 ∨ (0xDFFF < c.toNat ∧ c.toNat < 0x110000) := c.valid
  omega

@[simp] theorem encode_append (x y : List Char) : encode (x ++ y) = encode x ++ encode y := by
  simp [encode]

/-! ## Decoding -/

variable {n : Nat}

theorem within_of_le {low high : UInt8} (h : low.toNat ≤ n) (h' : n ≤ high.toNat) :
    within low high n.toUInt8 = true := by
  have hbyte := high.toNat_lt
  simp only [within, Bool.and_eq_true, decide_eq_true_eq, UInt8.le_iff_toNat_le, toNat_toUInt8]
  omega

theorem lead_single (h : n < 0x80) : lead n.toUInt8 = .single := by
  have hlead : ∀ n < 0x80, lead n.toUInt8 = .single := by decide
  exact hlead n h

theorem lead_double (h : 0x80 ≤ n) (h' : n < 0x800) :
    lead (0xC0 + n / 0x40).toUInt8 = .double := by
  have hlead : ∀ top < 0x20, 2 ≤ top → lead (0xC0 + top).toUInt8 = .double := by decide
  exact hlead (n / 0x40) (by omega) (by omega)

/-- The bounds of the second of three bytes exclude surrogates and overlong forms only. -/
theorem exists_lead_triple (h : 0x800 ≤ n) (h' : n < 0x10000)
    (hscalar : ¬ (0xD800 ≤ n ∧ n ≤ 0xDFFF)) :
    ∃ low high, lead (0xE0 + n / 0x1000).toUInt8 = .triple low high ∧
      within low high (0x80 + n / 0x40 % 0x40).toUInt8 = true := by
  have hlead : ∀ top < 0x10, lead (0xE0 + top).toUInt8 =
      .triple (if top = 0 then 0xA0 else 0x80) (if top = 0xD then 0x9F else 0xBF) := by decide
  refine ⟨_, _, hlead (n / 0x1000) (by omega), within_of_le ?_ ?_⟩
  · split <;> simp only [UInt8.reduceToNat] <;> omega
  · split <;> simp only [UInt8.reduceToNat] <;> omega

/-- The bounds of the second of four bytes exclude overlong forms and numbers that are too large
only. -/
theorem exists_lead_quadruple (h : 0x10000 ≤ n) (h' : n < 0x110000) :
    ∃ low high, lead (0xF0 + n / 0x40000).toUInt8 = .quadruple low high ∧
      within low high (0x80 + n / 0x1000 % 0x40).toUInt8 = true := by
  have hlead : ∀ top < 5, lead (0xF0 + top).toUInt8 =
      .quadruple (if top = 0 then 0x90 else 0x80) (if top = 4 then 0x8F else 0xBF) := by decide
  refine ⟨_, _, hlead (n / 0x40000) (by omega), within_of_le ?_ ?_⟩
  · split <;> simp only [UInt8.reduceToNat] <;> omega
  · split <;> simp only [UInt8.reduceToNat] <;> omega

theorem isContinuation_digit (n : Nat) : isContinuation (0x80 + n % 0x40).toUInt8 = true :=
  within_of_le (Nat.le_add_right 0x80 _) (by simp only [UInt8.reduceToNat]; omega)

/-- **The bytes of a character are decoded to it**, whatever follows them. -/
theorem decodeFrom_encodeChar_append (index : Nat) (found : List Char) (c : Char) (rest : Bytes) :
    decodeFrom index found (encodeChar c ++ rest) =
      decodeFrom (index + (encodeChar c).length) (c :: found) rest := by
  obtain ⟨hlast, hscalar⟩ := toNat_bounds c
  have hchar : ∀ n, n = c.toNat → Char.ofNat n = c := fun n hn => hn ▸ Char.ofNat_toNat c
  rw [encodeChar]
  -- one case for each number of bytes
  split_ifs with h1 h2 h3
  · rw [List.singleton_append, decodeFrom.eq_def]
    simp only [lead_single h1, assemble, List.foldl_nil, toNat_toUInt8]
    rw [hchar _ (by omega)]
    rfl
  · rw [List.cons_append, List.cons_append, List.nil_append, decodeFrom.eq_def]
    simp only [lead_double (Nat.le_of_not_lt h1) h2, isContinuation_digit, if_true, assemble,
      List.foldl_cons, List.foldl_nil, toNat_toUInt8]
    rw [hchar _ (by omega)]
    rfl
  · obtain ⟨low, high, hlead, hwithin⟩ := exists_lead_triple (Nat.le_of_not_lt h2) h3 hscalar
    rw [List.cons_append, List.cons_append, List.cons_append, List.nil_append, decodeFrom.eq_def]
    simp only [hlead, hwithin, isContinuation_digit, if_true, Bool.not_true, Bool.false_eq_true,
      if_false, assemble, List.foldl_cons, List.foldl_nil, toNat_toUInt8]
    rw [hchar _ (by omega)]
    rfl
  · obtain ⟨low, high, hlead, hwithin⟩ := exists_lead_quadruple (Nat.le_of_not_lt h3) hlast
    rw [List.cons_append, List.cons_append, List.cons_append, List.cons_append, List.nil_append,
      decodeFrom.eq_def]
    simp only [hlead, hwithin, isContinuation_digit, if_true, Bool.not_true, Bool.false_eq_true,
      if_false, assemble, List.foldl_cons, List.foldl_nil, toNat_toUInt8]
    rw [hchar _ (by omega)]
    rfl

theorem decodeFrom_encode (index : Nat) (found text : List Char) :
    decodeFrom index found (encode text) = .ok (found.reverse ++ text) := by
  induction text generalizing index found with
  | nil => rw [encode_nil, decodeFrom, List.append_nil]
  | cons c more ih =>
    rw [encode_cons, decodeFrom_encodeChar_append, ih, List.reverse_cons, List.append_assoc,
      List.singleton_append]

/-- **The bytes of a text are decoded to the text.** -/
theorem decode_encode (text : List Char) : decode (encode text) = .ok text := decodeFrom_encode ..

/-! ## Order -/

/-- Of two numbers the smaller one has the smaller digit at the first place of base 64 at which they
differ. -/
theorem digits_lt {m : Nat} (h : m < n) :
    m / 0x40000 < n / 0x40000 ∨ m / 0x40000 = n / 0x40000 ∧
      (m / 0x1000 % 0x40 < n / 0x1000 % 0x40 ∨ m / 0x1000 % 0x40 = n / 0x1000 % 0x40 ∧
        (m / 0x40 % 0x40 < n / 0x40 % 0x40 ∨ m / 0x40 % 0x40 = n / 0x40 % 0x40 ∧
          m % 0x40 < n % 0x40)) := by
  rcases (by omega : m / 0x40000 < n / 0x40000 ∨ m / 0x40000 = n / 0x40000) with hfirst | hfirst
  · exact .inl hfirst
  rcases (by omega : m / 0x1000 < n / 0x1000 ∨ m / 0x1000 = n / 0x1000) with hsecond | hsecond
  · omega
  rcases (by omega : m / 0x40 < n / 0x40 ∨ m / 0x40 = n / 0x40) with hthird | hthird
  · omega
  · omega

/-- **Of two characters the smaller one has the smaller bytes**, whatever follows them. -/
theorem encodeChar_append_lt {c d : Char} (h : c < d) (x y : Bytes) :
    encodeChar c ++ x < encodeChar d ++ y := by
  have hlt : c.toNat < d.toNat := h
  have hlast := (toNat_bounds d).1
  have hdigits := digits_lt hlt
  -- one case for each pair of lengths: a longer sequence has the larger lead byte
  simp only [encodeChar]
  split_ifs <;> simp (disch := omega) only [List.cons_append, List.nil_append,
    List.cons_lt_cons_iff, UInt8.lt_iff_toNat_lt, ← UInt8.toNat_inj, toNat_toUInt8,
    Nat.mod_eq_of_lt] <;> omega

theorem encodeChar_ne_nil (c : Char) : encodeChar c ≠ [] := by
  intro hnil
  have hpos := c.utf8Size_pos
  rw [← length_encodeChar, hnil] at hpos
  exact absurd hpos (by decide)

theorem encode_lt_encode {x y : List Char} (h : x < y) : encode x < encode y := by
  induction x generalizing y with
  | nil =>
    cases y with
    | nil => exact absurd h (List.lt_irrefl [])
    | cons d y =>
      obtain ⟨b, bytes, hbytes⟩ := List.exists_cons_of_ne_nil (encodeChar_ne_nil d)
      rw [encode_cons, hbytes]
      exact List.nil_lt_cons b _
  | cons c x ih =>
    cases y with
    | nil => exact absurd h (List.not_lt_nil _)
    | cons d y =>
      rw [encode_cons, encode_cons]
      rcases List.cons_lt_cons_iff.mp h with hlt | ⟨rfl, hlt⟩
      · exact encodeChar_append_lt hlt ..
      · exact List.append_left_lt (ih hlt)

/-- **Texts are ordered as their bytes are.** -/
theorem encode_lt_encode_iff {x y : List Char} : encode x < encode y ↔ x < y := by
  refine ⟨fun h => ?_, encode_lt_encode⟩
  by_contra hnot
  rcases List.le_iff_lt_or_eq.mp (List.not_lt.mp hnot) with hlt | rfl
  · exact List.lt_asymm h (encode_lt_encode hlt)
  · exact List.lt_irrefl _ h

/-- Two characters whose bytes both stand at the beginning of some bytes are the same. -/
theorem eq_of_encodeChar_append_eq {c d : Char} {x y : Bytes}
    (h : encodeChar c ++ x = encodeChar d ++ y) : c = d := by
  rcases Nat.lt_trichotomy c.toNat d.toNat with hlt | heq | hgt
  · exact absurd (h ▸ encodeChar_append_lt hlt x y) (List.lt_irrefl _)
  · exact Char.toNat_inj.mp heq
  · exact absurd (h ▸ encodeChar_append_lt hgt y x) (List.lt_irrefl _)

/-- What follows the bytes of a text in those of another one are the bytes of a text. -/
theorem exists_of_encode_append_eq {x y : List Char} {rest : Bytes}
    (h : encode x ++ rest = encode y) : ∃ more, y = x ++ more ∧ rest = encode more := by
  induction x generalizing y with
  | nil => exact ⟨y, rfl, h⟩
  | cons c x ih =>
    cases y with
    | nil =>
      rw [encode_cons, encode_nil, List.append_assoc, List.append_eq_nil_iff] at h
      exact absurd h.1 (encodeChar_ne_nil c)
    | cons d y =>
      rw [encode_cons, encode_cons, List.append_assoc] at h
      obtain rfl := eq_of_encodeChar_append_eq h
      obtain ⟨more, rfl, hrest⟩ := ih (List.append_cancel_left h)
      exact ⟨more, rfl, hrest⟩

/-- **Texts begin with one another as their bytes do.** -/
theorem encode_prefix_encode_iff {x y : List Char} : encode x <+: encode y ↔ x <+: y := by
  constructor
  · rintro ⟨rest, h⟩
    obtain ⟨more, rfl, -⟩ := exists_of_encode_append_eq h
    exact List.prefix_append x more
  · rintro ⟨more, rfl⟩
    exact ⟨encode more, (encode_append x more).symm⟩

end ObjectStore.Utf8

/-! # UTF-8 text in byte lists

Stored values are lists of bytes, and texts enter them in UTF-8.

* **`Utf8.encode`** — the bytes of a text; **`Utf8.size`** — how many they are.
* **`Utf8.decode`** — the text of some bytes, or the first place where they are not UTF-8.
* **`Utf8.Malformed`** — that place: either a sequence that no continuation can save, with the number
  of bytes that are certainly wrong, or a sequence cut short by the end of the bytes. -/

namespace ObjectStore

/-- A stored value, or a piece of one. -/
abbrev Bytes := List UInt8

namespace Utf8

/-- The UTF-8 bytes of one character. -/
def encodeChar (c : Char) : Bytes :=
  let n := c.toNat
  if n < 0x80 then [n.toUInt8]
  else if n < 0x800 then [(0xC0 + n / 0x40).toUInt8, (0x80 + n % 0x40).toUInt8]
  else if n < 0x10000 then
    [(0xE0 + n / 0x1000).toUInt8, (0x80 + n / 0x40 % 0x40).toUInt8, (0x80 + n % 0x40).toUInt8]
  else
    [(0xF0 + n / 0x40000).toUInt8, (0x80 + n / 0x1000 % 0x40).toUInt8,
      (0x80 + n / 0x40 % 0x40).toUInt8, (0x80 + n % 0x40).toUInt8]

/-- The UTF-8 bytes of a text. -/
def encode (text : List Char) : Bytes := text.flatMap encodeChar

@[simp] theorem encode_nil : encode [] = [] := rfl

@[simp] theorem encode_cons (c : Char) (text : List Char) :
    encode (c :: text) = encodeChar c ++ encode text := by
  simp [encode]

/-- How many bytes a text takes. -/
def size : List Char → Nat
  | [] => 0
  | c :: more => c.utf8Size + size more

theorem length_encodeChar (c : Char) : (encodeChar c).length = c.utf8Size := by
  have hval : c.toNat = c.val.toNat := rfl
  simp only [encodeChar, Char.utf8Size, UInt32.le_iff_toNat_le, hval]
  repeat' split
  all_goals simp_all
  all_goals omega

/-- The size of a text is that of its bytes. -/
theorem length_encode (text : List Char) : (encode text).length = size text := by
  induction text with
  | nil => rfl
  | cons c more ih => simp [size, length_encodeChar, ih]

/-- The first place where bytes fail to be UTF-8. -/
inductive Malformed where
  /-- The `length` bytes from `index` on cannot begin any character. -/
  | invalid (length index : Nat)
  /-- The bytes from `index` on begin a character and end before it does. -/
  | incomplete (index : Nat)
  deriving DecidableEq, Repr

/-- The wording of a malformed sequence. -/
def Malformed.message : Malformed → String
  | .invalid length index => s!"invalid utf-8 sequence of {length} bytes from index {index}"
  | .incomplete index => s!"incomplete utf-8 byte sequence from index {index}"

/-- Whether a byte lies between two bounds, both included. -/
def within (low high : UInt8) (b : UInt8) : Bool := low ≤ b && b ≤ high

/-- Whether a byte continues a character of several bytes. -/
def isContinuation (b : UInt8) : Bool := within 0x80 0xBF b

/-- How a lead byte goes on: how many bytes the character has and which second bytes it admits. The
bounds of the second byte exclude overlong forms, surrogates and numbers above 10FFFF. -/
inductive Lead where
  /-- The byte is a whole character. -/
  | single
  /-- The character has two bytes. -/
  | double
  /-- The character has three bytes, the second between the bounds. -/
  | triple (low high : UInt8)
  /-- The character has four bytes, the second between the bounds. -/
  | quadruple (low high : UInt8)
  /-- No character begins with this byte. -/
  | none
  deriving DecidableEq, Repr

/-- What a lead byte announces. -/
def lead (b : UInt8) : Lead :=
  if b < 0x80 then .single
  else if within 0xC2 0xDF b then .double
  else if b = 0xE0 then .triple 0xA0 0xBF
  else if b = 0xED then .triple 0x80 0x9F
  else if within 0xE1 0xEF b then .triple 0x80 0xBF
  else if b = 0xF0 then .quadruple 0x90 0xBF
  else if within 0xF1 0xF3 b then .quadruple 0x80 0xBF
  else if b = 0xF4 then .quadruple 0x80 0x8F
  else .none

/-- The character of a lead byte's payload followed by six bits of each further byte. -/
def assemble (payload : Nat) (rest : Bytes) : Char :=
  Char.ofNat (rest.foldl (fun n b => n * 0x40 + b.toNat % 0x40) payload)

/-- Decode from `index` on, with the characters found so far in reverse. -/
def decodeFrom (index : Nat) (found : List Char) : Bytes → Except Malformed (List Char)
  | [] => .ok found.reverse
  | b :: rest =>
    match lead b with
    | .single => decodeFrom (index + 1) (assemble b.toNat [] :: found) rest
    | .none => .error (.invalid 1 index)
    | .double =>
      match rest with
      | [] => .error (.incomplete index)
      | c :: rest =>
        if isContinuation c then
          decodeFrom (index + 2) (assemble (b.toNat % 0x20) [c] :: found) rest
        else .error (.invalid 1 index)
    | .triple low high =>
      match rest with
      | [] => .error (.incomplete index)
      | c :: rest =>
        if !within low high c then .error (.invalid 1 index) else
        match rest with
        | [] => .error (.incomplete index)
        | d :: rest =>
          if isContinuation d then
            decodeFrom (index + 3) (assemble (b.toNat % 0x10) [c, d] :: found) rest
          else .error (.invalid 2 index)
    | .quadruple low high =>
      match rest with
      | [] => .error (.incomplete index)
      | c :: rest =>
        if !within low high c then .error (.invalid 1 index) else
        match rest with
        | [] => .error (.incomplete index)
        | d :: rest =>
          if !isContinuation d then .error (.invalid 2 index) else
          match rest with
          | [] => .error (.incomplete index)
          | e :: rest =>
            if isContinuation e then
              decodeFrom (index + 4) (assemble (b.toNat % 0x8) [c, d, e] :: found) rest
            else .error (.invalid 3 index)

/-- The text that some bytes encode, or the first place where they are not UTF-8. -/
def decode (bytes : Bytes) : Except Malformed (List Char) := decodeFrom 0 [] bytes

end Utf8

/-- The bytes of a string's UTF-8 form. -/
def Bytes.ofString (text : String) : Bytes := Utf8.encode text.toList

end ObjectStore

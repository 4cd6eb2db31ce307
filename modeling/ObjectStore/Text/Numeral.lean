/-! # Numerals

* **`decimalDigit?`** and **`hexDigit?`** — the values of digits.
* **`isNumeral`** — whether a text is a number with an optional sign, fraction and exponent. -/

namespace ObjectStore

/-- The value of a decimal digit. -/
def decimalDigit? (c : Char) : Option Nat :=
  if '0' ≤ c ∧ c ≤ '9' then some (c.toNat - 48) else none

/-- The value of a hexadecimal digit. -/
def hexDigit? (c : Char) : Option Nat :=
  if '0' ≤ c ∧ c ≤ '9' then some (c.toNat - 48)
  else if 'a' ≤ c ∧ c ≤ 'f' then some (c.toNat - 87)
  else if 'A' ≤ c ∧ c ≤ 'F' then some (c.toNat - 55)
  else none

namespace Numeral

/-- What follows an optional sign. -/
def unsigned : List Char → List Char
  | '+' :: rest => rest
  | '-' :: rest => rest
  | text => text

/-- Whether a text is an exponent, which may be missing: the letter, an optional sign and some
digits. -/
def isExponent : List Char → Bool
  | [] => true
  | c :: rest => (c == 'e' || c == 'E') && !(unsigned rest).isEmpty && (unsigned rest).all Char.isDigit

/-- Whether a text is a number without sign: digits with or without a point among them, and an
exponent. -/
def isDecimal (text : List Char) : Bool :=
  let whole := text.takeWhile Char.isDigit
  match text.dropWhile Char.isDigit with
  | '.' :: rest =>
    !(whole ++ rest.takeWhile Char.isDigit).isEmpty && isExponent (rest.dropWhile Char.isDigit)
  | rest => !whole.isEmpty && isExponent rest

/-- The words for what is too large for a number and for what is none, in lower case. -/
def words : List String := ["inf", "infinity", "nan"]

end Numeral

/-- Whether a text is a number, with an optional sign; the words for infinity and for what is no number
count, in any case. -/
def isNumeral (text : List Char) : Bool :=
  let digits := Numeral.unsigned text
  Numeral.isDecimal digits || Numeral.words.contains (String.ofList (digits.map Char.toLower))

end ObjectStore

import ObjectStore.Key
import ObjectStore.Text.Utf8

/-! # Sorted entries

* **`Entries`** — a finite map from keys to values, kept as a list in strictly ascending order of keys.
* **`Entries.find?`**, **`Entries.insert`**, **`Entries.erase`** — its operations.
* **`Entries.scan`** — the keys equal to or below a given key, read off one stretch of the list. -/

namespace ObjectStore

/-- A finite map from keys to values, in ascending order of keys. -/
structure Entries where
  /-- The keys with their values. -/
  toList : List (Key × Bytes)
  /-- Every key comes before the keys after it. -/
  ascending : toList.Pairwise fun a b => a.1 < b.1

namespace Entries

/-- The map without entries. -/
def empty : Entries := ⟨[], .nil⟩

instance : Inhabited Entries := ⟨empty⟩

/-- The value of a key in a list of entries. -/
def findIn (key : Key) : List (Key × Bytes) → Option Bytes
  | [] => none
  | (k, value) :: more => if k = key then some value else findIn key more

/-- Put an entry at its place in an ascending list, replacing one of the same key. -/
def insertIn (key : Key) (value : Bytes) : List (Key × Bytes) → List (Key × Bytes)
  | [] => [(key, value)]
  | (k, old) :: more =>
    if key < k then (key, value) :: (k, old) :: more
    else if key = k then (key, value) :: more
    else (k, old) :: insertIn key value more

/-- Drop the entry of a key from a list. -/
def eraseIn (key : Key) : List (Key × Bytes) → List (Key × Bytes)
  | [] => []
  | (k, value) :: more => if k = key then more else (k, value) :: eraseIn key more

theorem fst_mem_insertIn {key : Key} {value : Bytes} {entries : List (Key × Bytes)}
    {e : Key × Bytes} (h : e ∈ insertIn key value entries) : e.1 = key ∨ e ∈ entries := by
  induction entries with
  | nil => simp_all [insertIn]
  | cons first more ih =>
    obtain ⟨k, old⟩ := first
    simp only [insertIn] at h
    split at h
    · rcases List.mem_cons.1 h with rfl | h
      · exact .inl rfl
      · exact .inr h
    · split at h
      · rcases List.mem_cons.1 h with rfl | h
        · exact .inl rfl
        · exact .inr (List.mem_cons_of_mem _ h)
      · rcases List.mem_cons.1 h with rfl | h
        · exact .inr List.mem_cons_self
        · exact (ih h).imp_right (List.mem_cons_of_mem _)

theorem pairwise_insertIn {key : Key} {value : Bytes} {entries : List (Key × Bytes)}
    (h : entries.Pairwise fun a b => a.1 < b.1) :
    (insertIn key value entries).Pairwise fun a b => a.1 < b.1 := by
  induction entries with
  | nil => simp [insertIn]
  | cons first more ih =>
    obtain ⟨k, old⟩ := first
    obtain ⟨hk, hmore⟩ := List.pairwise_cons.1 h
    simp only [insertIn]
    split
    · next hlt =>
      refine List.pairwise_cons.2 ⟨fun e he => ?_, h⟩
      rcases List.mem_cons.1 he with rfl | he
      · exact hlt
      · exact Key.lt_trans hlt (hk e he)
    · next hlt =>
      split
      · next heq => exact List.pairwise_cons.2 ⟨fun e he => heq ▸ hk e he, hmore⟩
      · next hne =>
        refine List.pairwise_cons.2 ⟨fun e he => ?_, ih hmore⟩
        rcases fst_mem_insertIn he with heq | he
        · exact heq ▸ Key.lt_of_not_lt hlt hne
        · exact hk e he

theorem eraseIn_sublist (key : Key) (entries : List (Key × Bytes)) :
    (eraseIn key entries).Sublist entries := by
  induction entries with
  | nil => exact .slnil
  | cons first more ih =>
    obtain ⟨k, value⟩ := first
    simp only [eraseIn]
    split
    · exact List.sublist_cons_self ..
    · exact ih.cons_cons _

@[simp] theorem findIn_insertIn_self (key : Key) (value : Bytes) (entries : List (Key × Bytes)) :
    findIn key (insertIn key value entries) = some value := by
  induction entries with
  | nil => simp [insertIn, findIn]
  | cons first more ih =>
    obtain ⟨k, old⟩ := first
    simp only [insertIn]
    split
    · simp [findIn]
    · split
      · simp [findIn]
      · next hne => simp [findIn, Ne.symm hne, ih]

theorem findIn_insertIn_of_ne {key other : Key} (h : other ≠ key) (value : Bytes)
    (entries : List (Key × Bytes)) :
    findIn other (insertIn key value entries) = findIn other entries := by
  induction entries with
  | nil => simp [insertIn, findIn, Ne.symm h]
  | cons first more ih =>
    obtain ⟨k, old⟩ := first
    simp only [insertIn]
    split
    · simp [findIn, Ne.symm h]
    · split
      · next heq => simp [findIn, Ne.symm h, ← heq]
      · simp [findIn, ih]

/-- In an ascending list a key before the first one has no value. -/
theorem findIn_eq_none {key : Key} {entries : List (Key × Bytes)}
    (h : ∀ e ∈ entries, key < e.1) : findIn key entries = none := by
  induction entries with
  | nil => rfl
  | cons first more ih =>
    have hne : first.1 ≠ key := fun heq => Key.lt_irrefl key (heq ▸ h first List.mem_cons_self)
    simp [findIn, hne, ih fun e he => h e (List.mem_cons_of_mem _ he)]

theorem findIn_eraseIn_self {key : Key} {entries : List (Key × Bytes)}
    (h : entries.Pairwise fun a b => a.1 < b.1) : findIn key (eraseIn key entries) = none := by
  induction entries with
  | nil => rfl
  | cons first more ih =>
    obtain ⟨k, value⟩ := first
    obtain ⟨hk, hmore⟩ := List.pairwise_cons.1 h
    simp only [eraseIn]
    split
    · next heq => exact findIn_eq_none fun e he => heq ▸ hk e he
    · next hne => simp [findIn, hne, ih hmore]

theorem findIn_eraseIn_of_ne {key other : Key} (h : other ≠ key) (entries : List (Key × Bytes)) :
    findIn other (eraseIn key entries) = findIn other entries := by
  induction entries with
  | nil => rfl
  | cons first more ih =>
    obtain ⟨k, value⟩ := first
    simp only [eraseIn]
    split
    · next heq => simp [findIn, heq, Ne.symm h]
    · simp [findIn, ih]

/-- The value of a key. -/
def find? (entries : Entries) (key : Key) : Option Bytes := findIn key entries.toList

/-- Give a key a value, whether it had one or not. -/
def insert (entries : Entries) (key : Key) (value : Bytes) : Entries :=
  ⟨insertIn key value entries.toList, pairwise_insertIn entries.ascending⟩

/-- Drop the entry of a key, if it has one. -/
def erase (entries : Entries) (key : Key) : Entries :=
  ⟨eraseIn key entries.toList, entries.ascending.sublist (eraseIn_sublist key entries.toList)⟩

@[simp] theorem find?_empty (key : Key) : empty.find? key = none := rfl

@[simp] theorem find?_insert_self (entries : Entries) (key : Key) (value : Bytes) :
    (entries.insert key value).find? key = some value :=
  findIn_insertIn_self key value entries.toList

theorem find?_insert_of_ne (entries : Entries) {key other : Key} (h : other ≠ key) (value : Bytes) :
    (entries.insert key value).find? other = entries.find? other :=
  findIn_insertIn_of_ne h value entries.toList

@[simp] theorem find?_erase_self (entries : Entries) (key : Key) :
    (entries.erase key).find? key = none :=
  findIn_eraseIn_self entries.ascending

theorem find?_erase_of_ne (entries : Entries) {key other : Key} (h : other ≠ key) :
    (entries.erase key).find? other = entries.find? other :=
  findIn_eraseIn_of_ne h entries.toList

/-- The keys in ascending order. -/
def keys (entries : Entries) : List Key := entries.toList.map Prod.fst

/-- Whether the text of a stored key equals a given text or goes on after it with a delimiter. -/
def matchesPrefix (base candidate : List Char) : Bool :=
  base.isEmpty ||
    (base.isPrefixOf candidate &&
      (candidate.length == base.length || (candidate.drop base.length).head? == some delimiter))

/-- The keys equal to `base` or below it, ascending. No such key comes before `base`, and all of them
begin with its text, so the scan starts at `base` and stops at the first key that does not begin so.
Keys in between that only share the text, such as `a/b-c` for `a/b`, are left out. -/
def scan (entries : Entries) (base : Key) : List Key :=
  ((entries.keys.dropWhile fun k => decide (k < base)).takeWhile
    fun k => base.text.isPrefixOf k.text).filter fun k => matchesPrefix base.text k.text

end Entries

end ObjectStore

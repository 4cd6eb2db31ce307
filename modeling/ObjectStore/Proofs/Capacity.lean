import Mathlib.Algebra.GroupWithZero.Nat
import ObjectStore.Proofs.Frame

/-! # The running total and the limit

A store keeps the number of its bytes up to date by adding and subtracting, and judges by that
number whether a value still fits. Handles of one store are the store itself, so the calls of a run
may come through any of them.

* **`Entries.bytes`** — the bytes of all values together; `bytes_insert` and `bytes_erase` say how
  writing and removing change them.
* **`MemoryStore.Balanced`** — the running total is the number of bytes, and within the limit; every
  call keeps it so (`Balanced.apply`).
* **`MemoryStore.applyInWords`** — a call in the arithmetic of 64-bit words, which stops where a sum
  or difference is no word; it never does where the bytes fit (`Balanced.applyInWords_eq`).
* **`MemoryStore.balanced_after_run`** — what holds after every run. -/

namespace ObjectStore

/-! ## The bytes of entries -/

/-- The length of a value that may be absent. -/
def lengthOf : Option Bytes → Nat
  | some value => value.length
  | none => 0

namespace Entries

/-- The bytes of all values in a list of entries. -/
def bytesIn (items : List (Key × Bytes)) : Nat := (items.map fun e => e.2.length).sum

/-- The bytes of all values together. -/
def bytes (entries : Entries) : Nat := bytesIn entries.toList

@[simp] theorem bytesIn_cons (key : Key) (value : Bytes) (items : List (Key × Bytes)) :
    bytesIn ((key, value) :: items) = value.length + bytesIn items := rfl

theorem bytesIn_eraseIn (key : Key) (items : List (Key × Bytes)) :
    bytesIn (eraseIn key items) + lengthOf (findIn key items) = bytesIn items := by
  induction items with
  | nil => rfl
  | cons first more ih =>
    obtain ⟨k, value⟩ := first
    by_cases hk : k = key
    · rw [eraseIn, findIn, if_pos hk, if_pos hk, bytesIn_cons, lengthOf]
      omega
    · rw [eraseIn, findIn, if_neg hk, if_neg hk, bytesIn_cons, bytesIn_cons]
      omega

theorem bytesIn_insertIn (key : Key) (value : Bytes) {items : List (Key × Bytes)}
    (h : items.Pairwise fun a b => a.1 < b.1) :
    bytesIn (insertIn key value items) + lengthOf (findIn key items) =
      bytesIn items + value.length := by
  induction items with
  | nil => simp [insertIn, findIn, lengthOf, bytesIn]
  | cons first more ih =>
    obtain ⟨k, old⟩ := first
    obtain ⟨hk, hmore⟩ := List.pairwise_cons.mp h
    by_cases hlt : key < k
    -- the key comes before all others, so it is new
    · have hnew : findIn key ((k, old) :: more) = none := by
        refine findIn_eq_none fun e he => ?_
        rcases List.mem_cons.mp he with rfl | he
        · exact hlt
        · exact Key.lt_trans hlt (hk e he)
      rw [insertIn, if_pos hlt, hnew, bytesIn_cons, lengthOf]
      omega
    · by_cases heq : key = k
      · rw [insertIn, if_neg hlt, if_pos heq, findIn, if_pos heq.symm, bytesIn_cons, bytesIn_cons,
          lengthOf]
        omega
      · have hrest := ih hmore
        rw [insertIn, if_neg hlt, if_neg heq, findIn, if_neg (Ne.symm heq), bytesIn_cons,
          bytesIn_cons]
        omega

/-- Removing an entry takes away the bytes of its value. -/
theorem bytes_erase (entries : Entries) (key : Key) :
    (entries.erase key).bytes + lengthOf (entries.find? key) = entries.bytes :=
  bytesIn_eraseIn key entries.toList

/-- Writing a value adds its bytes and takes away those of the value that it replaces. -/
theorem bytes_insert (entries : Entries) (key : Key) (value : Bytes) :
    (entries.insert key value).bytes + lengthOf (entries.find? key) =
      entries.bytes + value.length :=
  bytesIn_insertIn key value entries.ascending

/-- No value has more bytes than all values together. -/
theorem lengthOf_le_bytes (entries : Entries) (key : Key) :
    lengthOf (entries.find? key) ≤ entries.bytes := by
  have herase := entries.bytes_erase key
  omega

/-- Putting a value back where it has been taken out changes nothing. -/
theorem insertIn_eraseIn {key : Key} {value : Bytes} {items : List (Key × Bytes)}
    (h : items.Pairwise fun a b => a.1 < b.1) (hfind : findIn key items = some value) :
    insertIn key value (eraseIn key items) = items := by
  induction items with
  | nil => cases hfind
  | cons first more ih =>
    obtain ⟨k, old⟩ := first
    obtain ⟨hk, hmore⟩ := List.pairwise_cons.mp h
    by_cases heq : k = key
    · subst heq
      rw [findIn, if_pos rfl, Option.some_inj] at hfind
      rw [eraseIn, if_pos rfl, hfind]
      -- the value goes to the front of what is left
      cases more with
      | nil => rfl
      | cons second more => rw [insertIn, if_pos (hk second List.mem_cons_self)]
    · rw [findIn, if_neg heq] at hfind
      have hlt : ¬ key < k := by
        intro hlt
        -- a key before the first one would have no value
        have hnone : findIn key more = none :=
          findIn_eq_none fun e he => Key.lt_trans hlt (hk e he)
        rw [hnone] at hfind
        cases hfind
      rw [eraseIn, if_neg heq, insertIn, if_neg hlt, if_neg (Ne.symm heq), ih hmore hfind]

theorem insert_erase {entries : Entries} {key : Key} {value : Bytes}
    (h : entries.find? key = some value) : (entries.erase key).insert key value = entries := by
  obtain ⟨items, hascending⟩ := entries
  have hitems : insertIn key value (eraseIn key items) = items := insertIn_eraseIn hascending h
  simp only [insert, erase, hitems]

end Entries

/-! ## Machine words -/

namespace Word

/-- The sum of two numbers, if it is a 64-bit word. -/
def add? (a b : Nat) : Option Nat := if a + b < 2 ^ 64 then some (a + b) else none

/-- The difference of two numbers, if it is no less than zero. -/
def sub? (a b : Nat) : Option Nat := if b ≤ a then some (a - b) else none

theorem add?_eq {a b : Nat} (h : a + b < 2 ^ 64) : add? a b = some (a + b) := if_pos h

theorem sub?_eq {a b : Nat} (h : b ≤ a) : sub? a b = some (a - b) := if_pos h

end Word

namespace MemoryStore

/-! ## Calls in the arithmetic of words

The same calls, where every sum and every difference that is formed has to be a word. -/

/-- Whether the store may grow by `additional` bytes. Without a limit nothing is added up. -/
def hasRoomInWords (store : MemoryStore) (additional : Nat) : Option Bool :=
  if store.limit = 0 then some true
  else (Word.add? store.total additional).map fun grown => decide (grown ≤ store.limit)

/-- Write a value under a key. Only net growth needs room. -/
def putInWords (store : MemoryStore) (key : Key) (value : Bytes) :
    Option (Result Unit × MemoryStore) := do
  let old := store.lengthAt key
  let admitted ←
    if old < value.length then (Word.sub? value.length old).bind store.hasRoomInWords else some true
  if admitted then
    let kept ← Word.sub? store.total old
    let total ← Word.add? kept value.length
    return (.ok (), { store with entries := store.entries.insert key value, total })
  else return (.error (store.limitExceeded (value.length - old)), store)

/-- Remove the entry of a key. -/
def deleteInWords (store : MemoryStore) (key : Key) : Option (Result Unit × MemoryStore) :=
  match store.entries.find? key with
  | some value => (Word.sub? store.total value.length).map fun total =>
    (.ok (), { store with entries := store.entries.erase key, total })
  | none => some (.error (.notFound key), store)

/-- Give the entry of one key to another. -/
def moveInWords (store : MemoryStore) (source destination : Key) :
    Option (Result Unit × MemoryStore) :=
  match store.entries.find? source with
  | some value =>
    let rest := store.entries.erase source
    let kept := match rest.find? destination with
      | some replaced => Word.sub? store.total replaced.length
      | none => some store.total
    kept.map fun total => (.ok (), { store with entries := rest.insert destination value, total })
  | none => some (.error (.notFound source), store)

/-- Carry out one storage call. -/
def applyInWords (store : MemoryStore) : (call : Call) → Option (call.Outcome × MemoryStore)
  | .save key content =>
    match content.drain with
    | .ok value => store.putInWords key value
    | .error e => some (.error e, store)
  | .delete key => store.deleteInWords key
  | .move source destination => store.moveInWords source destination
  | .load key => some (store.apply (.load key))
  | .has key => some (store.apply (.has key))
  | .list base => some (store.apply (.list base))
  | .size key => some (store.apply (.size key))

/-- Carry out calls one after another. -/
def runInWords (store : MemoryStore) (calls : List Call) : Option MemoryStore :=
  calls.foldlM (fun store call => (store.applyInWords call).map Prod.snd) store

end MemoryStore

/-- The bytes that a call brings in. Content that fails to arrive brings none. -/
def Call.incoming : Call → Nat
  | .save _ content =>
    match content.drain with
    | .ok value => value.length
    | .error _ => 0
  | _ => 0

namespace MemoryStore

/-- Whether the bytes stored and those that come in are a word at each call of a run. -/
def Roomy : MemoryStore → List Call → Prop
  | _, [] => True
  | store, call :: more =>
    store.entries.bytes + call.incoming < 2 ^ 64 ∧ (store.apply call).2.Roomy more

instance decidableRoomy : (store : MemoryStore) → (calls : List Call) → Decidable (store.Roomy calls)
  | _, [] => isTrue trivial
  | store, call :: more =>
    have := decidableRoomy (store.apply call).2 more
    inferInstanceAs (Decidable (_ ∧ _))

/-! ## Balanced stores -/

/-- The running total is the number of bytes, and within the limit if there is one. -/
structure Balanced (store : MemoryStore) : Prop where
  total_eq : store.total = store.entries.bytes
  within : store.limit ≠ 0 → store.total ≤ store.limit

theorem balanced_withLimit (limit : Nat) : (withLimit limit).Balanced where
  total_eq := rfl
  within _ := Nat.zero_le limit

theorem lengthAt_eq (store : MemoryStore) (key : Key) :
    store.lengthAt key = lengthOf (store.entries.find? key) := by
  rw [lengthAt]
  cases store.entries.find? key <;> rfl

variable {store : MemoryStore} {call : Call} {key : Key} {content : Content} {value : Bytes}

theorem hasRoom_iff (store : MemoryStore) (additional : Nat) :
    store.hasRoom additional = true ↔
      store.limit = 0 ∨ store.total + additional ≤ store.limit := by
  rw [hasRoom, Bool.or_eq_true, beq_iff_eq, decide_eq_true_eq]

/-- What stands under a key is counted in the total. -/
theorem Balanced.lengthAt_le (h : store.Balanced) (key : Key) :
    store.lengthAt key ≤ store.total := by
  rw [lengthAt_eq, h.total_eq]
  exact store.entries.lengthOf_le_bytes key

/-- The bytes once a value has been written, from the running total. -/
theorem Balanced.bytes_insert (h : store.Balanced) (key : Key) (value : Bytes) :
    (store.entries.insert key value).bytes = store.total - store.lengthAt key + value.length := by
  have hle := h.lengthAt_le key
  have hinsert := store.entries.bytes_insert key value
  rw [← lengthAt_eq, ← h.total_eq] at hinsert
  omega

/-- Whether a value may be written: without a limit, or if all bytes are within it afterwards. -/
def Takes (store : MemoryStore) (key : Key) (value : Bytes) : Prop :=
  store.limit = 0 ∨ (store.entries.insert key value).bytes ≤ store.limit

/-- The limit is only looked at when an entry grows, but the value that it lets pass is then the one
that may be written. -/
theorem Balanced.takes_iff (h : store.Balanced) : store.Takes key value ↔
    value.length ≤ store.lengthAt key ∨
      store.hasRoom (value.length - store.lengthAt key) = true := by
  have hle := h.lengthAt_le key
  have hwithin := h.within
  rw [Takes, h.bytes_insert, hasRoom_iff]
  omega

theorem Balanced.put_of_takes (h : store.Balanced) (htakes : store.Takes key value) :
    store.put key value = (.ok (), { store with
      entries := store.entries.insert key value
      total := store.total - store.lengthAt key + value.length }) := by
  rw [put, if_neg]
  intro hfull
  rw [Bool.and_eq_true, decide_eq_true_eq, Bool.not_eq_true'] at hfull
  rcases h.takes_iff.mp htakes with hle | hroom
  · omega
  · rw [hroom] at hfull
    cases hfull.2

theorem Balanced.put_of_not_takes (h : store.Balanced) (htakes : ¬ store.Takes key value) :
    store.lengthAt key < value.length ∧ store.put key value =
      (.error (store.limitExceeded (value.length - store.lengthAt key)), store) := by
  rw [h.takes_iff, not_or, Nat.not_le, Bool.not_eq_true] at htakes
  obtain ⟨hlt, hroom⟩ := htakes
  refine ⟨hlt, ?_⟩
  rw [put, if_pos]
  rw [hroom, decide_eq_true hlt]
  rfl

/-- **A value is taken exactly if all bytes are within the limit afterwards.** -/
theorem Balanced.put_ok_iff (h : store.Balanced) (key : Key) (value : Bytes) :
    (store.put key value).1 = .ok () ↔ store.Takes key value := by
  by_cases htakes : store.Takes key value
  · rw [h.put_of_takes htakes]
    exact iff_of_true rfl htakes
  · rw [(h.put_of_not_takes htakes).2]
    refine iff_of_false ?_ htakes
    rintro ⟨⟩

theorem Balanced.put (h : store.Balanced) (key : Key) (value : Bytes) :
    (store.put key value).2.Balanced := by
  by_cases htakes : store.Takes key value
  · have hbytes := h.bytes_insert key value
    rw [h.put_of_takes htakes]
    refine ⟨hbytes.symm, fun hlimit => ?_⟩
    exact hbytes ▸ htakes.resolve_left hlimit
  -- a value that is refused leaves the store as it was
  · rw [(h.put_of_not_takes htakes).2]
    exact h

theorem Balanced.delete (h : store.Balanced) (key : Key) : (store.delete key).2.Balanced := by
  cases hfind : store.entries.find? key with
  | none => rw [delete_of_none hfind]; exact h
  | some value =>
    have herase := store.entries.bytes_erase key
    have hwithin := h.within
    rw [hfind, lengthOf, ← h.total_eq] at herase
    rw [delete_of_some hfind]
    refine ⟨?_, fun hlimit => ?_⟩
    · show store.total - value.length = (store.entries.erase key).bytes
      omega
    · show store.total - value.length ≤ store.limit
      exact Nat.le_trans (Nat.sub_le ..) (hwithin hlimit)

/-! ### Moving -/

/-- The length of what a move replaces: the entry of the destination, unless that is the source. -/
def replaced (store : MemoryStore) (source destination : Key) : Nat :=
  if (store.entries.find? source).isSome ∧ source ≠ destination then store.lengthAt destination
  else 0

/-- Once the source has been taken out, the destination has the entry that is replaced. -/
theorem lengthOf_find?_erase {source : Key} (h : store.entries.find? source = some value)
    (destination : Key) : lengthOf ((store.entries.erase source).find? destination) =
      store.replaced source destination := by
  by_cases hself : source = destination
  · subst hself
    rw [replaced, if_neg (fun hmoved => hmoved.2 rfl), Entries.find?_erase_self]
    rfl
  · rw [replaced, if_pos ⟨Option.isSome_of_eq_some h, hself⟩,
      Entries.find?_erase_of_ne _ (Ne.symm hself), lengthAt_eq]

theorem move_of_some {source : Key} (h : store.entries.find? source = some value)
    (destination : Key) : store.move source destination = (.ok (), { store with
      entries := (store.entries.erase source).insert destination value
      total := store.total - store.replaced source destination }) := by
  rw [← lengthOf_find?_erase h]
  simp only [MemoryStore.move, h]
  cases (store.entries.erase source).find? destination <;> rfl

theorem move_of_none {source : Key} (h : store.entries.find? source = none) (destination : Key) :
    store.move source destination = (.error (.notFound source), store) := by
  rw [MemoryStore.move, h]

/-- A move takes away the bytes of the entry that it replaces. -/
theorem bytes_move {source : Key} (h : store.entries.find? source = some value)
    (destination : Key) : ((store.entries.erase source).insert destination value).bytes +
      store.replaced source destination = store.entries.bytes := by
  have hinsert := (store.entries.erase source).bytes_insert destination value
  have herase := store.entries.bytes_erase source
  rw [lengthOf_find?_erase h] at hinsert
  rw [h, lengthOf] at herase
  omega

theorem Balanced.move (h : store.Balanced) (source destination : Key) :
    (store.move source destination).2.Balanced := by
  cases hfind : store.entries.find? source with
  | none => rw [move_of_none hfind]; exact h
  | some value =>
    have hbytes := bytes_move hfind destination
    have htotal := h.total_eq
    have hwithin := h.within
    rw [move_of_some hfind]
    refine ⟨?_, fun hlimit => ?_⟩
    · show store.total - store.replaced source destination =
        ((store.entries.erase source).insert destination value).bytes
      omega
    · show store.total - store.replaced source destination ≤ store.limit
      exact Nat.le_trans (Nat.sub_le ..) (hwithin hlimit)

/-- **A move changes the total only by the entry that it replaces.** -/
theorem Balanced.total_move (h : store.Balanced) (source destination : Key) :
    (store.move source destination).2.total + store.replaced source destination =
      store.total := by
  cases hfind : store.entries.find? source with
  | none => rw [move_of_none hfind, replaced, hfind]; rfl
  | some value =>
    have hbytes := bytes_move hfind destination
    have htotal := h.total_eq
    rw [move_of_some hfind]
    show store.total - store.replaced source destination + store.replaced source destination =
      store.total
    omega

/-- **Moving a key onto itself changes nothing.** -/
theorem move_self (store : MemoryStore) (key : Key) : (store.move key key).2 = store := by
  cases hfind : store.entries.find? key with
  | none => rw [move_of_none hfind]
  | some value =>
    rw [move_of_some hfind, Entries.insert_erase hfind, replaced, if_neg fun hmoved => hmoved.2 rfl]
    rfl

/-! ## Every call -/

/-- **Every call keeps a store balanced.** -/
theorem Balanced.apply (h : store.Balanced) (call : Call) : (store.apply call).2.Balanced := by
  cases call with
  | save key content =>
    show (store.save key content).2.Balanced
    cases hd : content.drain with
    | ok value => rw [save_of_drain hd]; exact h.put key value
    | error e => rw [save_of_drain_error hd]; exact h
  | delete key => exact h.delete key
  | move source destination => exact h.move source destination
  | load key => exact h
  | has key => exact h
  | list base => exact h
  | size key => exact h

/-- In words a balanced store writes a value as it does in numbers, if the value fits a word. -/
theorem Balanced.putInWords_eq (h : store.Balanced)
    (hword : store.entries.bytes + value.length < 2 ^ 64) :
    store.putInWords key value = some (store.put key value) := by
  have hle := h.lengthAt_le key
  have htotal := h.total_eq
  have hkept : Word.sub? store.total (store.lengthAt key) =
      some (store.total - store.lengthAt key) := Word.sub?_eq hle
  have hsum : Word.add? (store.total - store.lengthAt key) value.length =
      some (store.total - store.lengthAt key + value.length) := Word.add?_eq (by omega)
  have hgrowth (hlt : store.lengthAt key < value.length) :
      (Word.sub? value.length (store.lengthAt key)).bind store.hasRoomInWords =
        some (store.hasRoom (value.length - store.lengthAt key)) := by
    rw [Word.sub?_eq (Nat.le_of_lt hlt), Option.bind_some, hasRoomInWords, hasRoom]
    by_cases hlimit : store.limit = 0
    · simp [hlimit]
    · rw [Word.add?_eq (by omega)]
      simp [hlimit]
  by_cases htakes : store.Takes key value
  · rw [h.put_of_takes htakes]
    by_cases hlt : store.lengthAt key < value.length
    · have hroom := (h.takes_iff.mp htakes).resolve_left (Nat.not_le.mpr hlt)
      simp [putInWords, hlt, hgrowth, hroom, hkept, hsum]
    · simp [putInWords, hlt, hkept, hsum]
  · obtain ⟨hlt, hput⟩ := h.put_of_not_takes htakes
    have hroom := Bool.eq_false_iff.mpr fun hroom => htakes (h.takes_iff.mpr (.inr hroom))
    rw [hput]
    simp [putInWords, hlt, hgrowth, hroom]

theorem Balanced.deleteInWords_eq (h : store.Balanced) (key : Key) :
    store.deleteInWords key = some (store.delete key) := by
  have hle := h.lengthAt_le key
  rw [lengthAt_eq] at hle
  cases hfind : store.entries.find? key with
  | none => rw [delete_of_none hfind, deleteInWords, hfind]
  | some value =>
    rw [hfind, lengthOf] at hle
    simp only [delete_of_some hfind, deleteInWords, hfind, Word.sub?_eq hle, Option.map_some]

theorem Balanced.moveInWords_eq (h : store.Balanced) (source destination : Key) :
    store.moveInWords source destination = some (store.move source destination) := by
  cases hfind : store.entries.find? source with
  | none => rw [move_of_none hfind, moveInWords, hfind]
  | some value =>
    have hbytes := bytes_move hfind destination
    have htotal := h.total_eq
    have hreplaced := lengthOf_find?_erase hfind destination
    simp only [move_of_some hfind, moveInWords, hfind]
    cases hrest : (store.entries.erase source).find? destination with
    | none =>
      rw [hrest, lengthOf] at hreplaced
      simp [← hreplaced]
    | some old =>
      rw [hrest, lengthOf] at hreplaced
      have hle : store.replaced source destination ≤ store.total := by omega
      simp [hreplaced, Word.sub?_eq hle]

/-- **In words a balanced store carries out every call as it does in numbers**, if the bytes stored
and those that come in are a word: no difference falls below zero and no sum is too large. -/
theorem Balanced.applyInWords_eq (h : store.Balanced)
    (hword : store.entries.bytes + call.incoming < 2 ^ 64) :
    store.applyInWords call = some (store.apply call) := by
  cases call with
  | save key content =>
    show (match content.drain with
      | .ok value => store.putInWords key value
      | .error e => some (.error e, store)) = some (store.save key content)
    cases hd : content.drain with
    | ok value =>
      rw [Call.incoming, hd] at hword
      rw [save_of_drain hd]
      exact h.putInWords_eq hword
    | error e => rw [save_of_drain_error hd]
  | delete key => exact h.deleteInWords_eq key
  | move source destination => exact h.moveInWords_eq source destination
  | load key => rfl
  | has key => rfl
  | list base => rfl
  | size key => rfl

/-! ## Runs -/

/-- The store after some calls. -/
def after (store : MemoryStore) (calls : List Call) : MemoryStore :=
  calls.foldl (fun store call => (store.apply call).2) store

theorem after_cons (store : MemoryStore) (call : Call) (more : List Call) :
    store.after (call :: more) = (store.apply call).2.after more := rfl

/-- **Every run keeps a store balanced.** -/
theorem Balanced.after (h : store.Balanced) (calls : List Call) : (store.after calls).Balanced := by
  induction calls generalizing store with
  | nil => exact h
  | cons call more ih => exact ih (h.apply call)

/-- No run changes the limit. -/
theorem limit_after (store : MemoryStore) (calls : List Call) :
    (store.after calls).limit = store.limit := by
  induction calls generalizing store with
  | nil => rfl
  | cons call more ih => exact (ih _).trans (limit_apply store call)

/-- A run changes no entry but those under the keys that its calls write. -/
theorem find?_after_of_notMem {calls : List Call} {k : Key}
    (h : ∀ call ∈ calls, k ∉ call.written) :
    (store.after calls).entries.find? k = store.entries.find? k := by
  induction calls generalizing store with
  | nil => rfl
  | cons call more ih =>
    calc ((store.apply call).2.after more).entries.find? k
        = (store.apply call).2.entries.find? k := ih fun c hc => h c (List.mem_cons_of_mem _ hc)
      _ = store.entries.find? k := find?_apply_of_notMem (h call List.mem_cons_self)

/-- **A run in words is the run in numbers**, and keeps a store balanced. -/
theorem Balanced.runInWords_eq {calls : List Call} (h : store.Balanced)
    (hroomy : store.Roomy calls) :
    store.runInWords calls = some (store.after calls) ∧ (store.after calls).Balanced ∧
      (store.after calls).limit = store.limit := by
  induction calls generalizing store with
  | nil => exact ⟨rfl, h, rfl⟩
  | cons call more ih =>
    obtain ⟨hword, hmore⟩ := hroomy
    obtain ⟨hrun, hbalanced, hlimit⟩ := ih (h.apply call) hmore
    refine ⟨?_, hbalanced, hlimit.trans (limit_apply store call)⟩
    rw [runInWords, List.foldlM_cons, h.applyInWords_eq hword]
    exact hrun

/-- **The books of a store are right after every run** in which the bytes stored and those that come
in are always a word. The total is the number of bytes stored and within the limit. No sum or
difference of the run, nor of any call that may follow, leaves the words. A save succeeds exactly if
all bytes are within the limit afterwards. A move changes the total only by the entry that it
replaces, and moving a key onto itself changes nothing at all. -/
theorem balanced_after_run {limit : Nat} {calls : List Call}
    (hroomy : (withLimit limit).Roomy calls) :
    let store := (withLimit limit).after calls
    (withLimit limit).runInWords calls = some store ∧
      store.total = store.entries.bytes ∧ (0 < limit → store.total ≤ limit) ∧
      (∀ call, store.entries.bytes + call.incoming < 2 ^ 64 →
        store.applyInWords call = some (store.apply call)) ∧
      (∀ key content value, content.drain = .ok value →
        ((store.apply (.save key content)).1 = .ok () ↔
          limit = 0 ∨ (store.entries.insert key value).bytes ≤ limit)) ∧
      (∀ source destination, (store.apply (.move source destination)).2.total +
        (if (store.entries.find? source).isSome ∧ source ≠ destination then
          store.lengthAt destination else 0) = store.total) ∧
      ∀ key, (store.apply (.move key key)).2 = store := by
  intro store
  obtain ⟨hrun, hbalanced, hlimit⟩ := (balanced_withLimit limit).runInWords_eq hroomy
  change store.Balanced at hbalanced
  change store.limit = limit at hlimit
  refine ⟨hrun, hbalanced.total_eq, fun hpositive => ?_, fun call hword => ?_,
    fun key content value hd => ?_, fun source destination => ?_, fun key => ?_⟩
  · have hwithin := hbalanced.within
    omega
  · exact hbalanced.applyInWords_eq hword
  · show (store.save key content).1 = .ok () ↔ _
    rw [save_of_drain hd, hbalanced.put_ok_iff, Takes, hlimit]
  · exact hbalanced.total_move source destination
  · exact store.move_self key

/-- Of two entries one shrinks after the other has been kept from growing, and is then replaced. -/
theorem balanced_after_run_of_replacing :
    let calls : List Call := [.save (Key.ofString "a") (.ofBytes [1, 2, 3]),
      .save (Key.ofString "b") (.ofBytes [4]), .save (Key.ofString "b") (.ofBytes [5, 6]),
      .save (Key.ofString "a") (.ofBytes [7]), .move (Key.ofString "b") (Key.ofString "b"),
      .move (Key.ofString "b") (Key.ofString "a"), .delete (Key.ofString "b")]
    (withLimit 4).Roomy calls ∧ ((withLimit 4).after calls).total = 1 ∧
      ((withLimit 4).after calls).entries.bytes = 1 := by
  intro calls
  have hroomy : (withLimit 4).Roomy calls := by decide +kernel
  have htotal : ((withLimit 4).after calls).total = 1 := by decide +kernel
  have hbytes := (balanced_after_run hroomy).2.1
  exact ⟨hroomy, htotal, hbytes ▸ htotal⟩

end MemoryStore

end ObjectStore

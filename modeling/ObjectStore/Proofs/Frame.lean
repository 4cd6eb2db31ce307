import ObjectStore.Storage.Memory

/-! # What storage calls change

* **`Call.written`** — the keys whose entries a call may change.
* **`MemoryStore.find?_apply_of_notMem`** — a call changes no other entry.
* **`MemoryStore.apply_eq_of_error`** — a call that fails changes nothing at all.
* **`MemoryStore.find?_save`**, **`MemoryStore.find?_delete`** — what stands under the key
  afterwards.
* **`MemoryStore.Agree`** — stores that have the same entries under some keys; calls on these keys
  do not tell them apart (`Agree.apply`). -/

namespace ObjectStore

/-- The keys whose entries a call may change. -/
def Call.written : Call → List Key
  | .save key _ => [key]
  | .delete key => [key]
  | .move source destination => [source, destination]
  | .load _ => []
  | .has _ => []
  | .list _ => []
  | .size _ => []

/-- A call writes only under keys that it names. -/
theorem Call.mem_keys_of_mem_written {call : Call} {k : Key} (h : k ∈ call.written) :
    k ∈ call.keys := by
  cases call with
  | save key content => exact h
  | delete key => exact h
  | move source destination => exact h
  | load key => cases h
  | has key => cases h
  | list base => cases h
  | size key => cases h

namespace MemoryStore

variable {store : MemoryStore} {call : Call} {key k : Key} {content : Content} {value : Bytes}
  {e : StorageError}

/-! ## One operation at a time -/

theorem find?_put_of_ne (h : k ≠ key) (value : Bytes) :
    (store.put key value).2.entries.find? k = store.entries.find? k := by
  simp only [put]
  split
  · rfl
  · exact Entries.find?_insert_of_ne _ h value

theorem put_eq_of_error (h : (store.put key value).1 = .error e) :
    (store.put key value).2 = store := by
  simp only [put] at h ⊢
  split at h
  · next hfull => rw [if_pos hfull]
  · cases h

/-- A write fails only where there is no room for it. -/
theorem eq_limitExceeded_of_put (h : (store.put key value).1 = .error e) :
    e = store.limitExceeded (value.length - store.lengthAt key) := by
  simp only [put] at h
  split at h <;> cases h
  rfl

theorem find?_put_of_ok (h : (store.put key value).1 = .ok ()) :
    (store.put key value).2.entries.find? key = some value := by
  simp only [put] at h ⊢
  split at h
  · cases h
  · next hroom =>
    rw [if_neg hroom]
    exact Entries.find?_insert_self ..

theorem save_of_drain (h : content.drain = .ok value) :
    store.save key content = store.put key value := by
  rw [save, h]

theorem save_of_drain_error (h : content.drain = .error e) :
    store.save key content = (.error e, store) := by
  rw [save, h]

/-- What stands under a key once a content has been saved there. -/
theorem find?_save (hd : content.drain = .ok value) (h : (store.save key content).1 = .ok ()) :
    (store.save key content).2.entries.find? key = some value := by
  rw [save_of_drain hd] at h ⊢
  exact find?_put_of_ok h

theorem delete_of_some (h : store.entries.find? key = some value) :
    store.delete key = (.ok (), { store with
      entries := store.entries.erase key
      total := store.total - value.length }) := by
  rw [delete, h]

theorem delete_of_none (h : store.entries.find? key = none) :
    store.delete key = (.error (.notFound key), store) := by
  rw [delete, h]

/-- Nothing stands under a key once it has been deleted. -/
theorem find?_delete (store : MemoryStore) (key : Key) :
    (store.delete key).2.entries.find? key = none := by
  cases h : store.entries.find? key with
  | none => rw [delete_of_none h]; exact h
  | some value => rw [delete_of_some h]; exact Entries.find?_erase_self ..

/-- A deletion fails only where there is nothing to delete. -/
theorem isNotFound_of_delete (h : (store.delete key).1 = .error e) : e.isNotFound = true := by
  cases hfind : store.entries.find? key with
  | none => rw [delete_of_none hfind] at h; cases h; rfl
  | some value => rw [delete_of_some hfind] at h; cases h

theorem find?_delete_of_ne (h : k ≠ key) :
    (store.delete key).2.entries.find? k = store.entries.find? k := by
  cases hfind : store.entries.find? key with
  | none => rw [delete_of_none hfind]
  | some value => rw [delete_of_some hfind]; exact Entries.find?_erase_of_ne _ h

theorem find?_move_of_ne {source destination : Key} (hs : k ≠ source) (hd : k ≠ destination) :
    (store.move source destination).2.entries.find? k = store.entries.find? k := by
  rw [move]
  cases store.entries.find? source with
  | none => rfl
  | some value =>
    -- a key that is neither end of the move keeps its entry through both parts of it
    show ((store.entries.erase source).insert destination value).find? k = _
    rw [Entries.find?_insert_of_ne _ hd, Entries.find?_erase_of_ne _ hs]

/-! ## Every operation -/

/-- **A call changes no entry but those under the keys it writes.** -/
theorem find?_apply_of_notMem (h : k ∉ call.written) :
    (store.apply call).2.entries.find? k = store.entries.find? k := by
  cases call with
  | save key content =>
    have hne : k ≠ key := by simpa [Call.written] using h
    show (store.save key content).2.entries.find? k = _
    cases hd : content.drain with
    | ok value => rw [save_of_drain hd]; exact find?_put_of_ne hne value
    | error e => rw [save_of_drain_error hd]
  | delete key => exact find?_delete_of_ne (by simpa [Call.written] using h)
  | move source destination =>
    have hne : k ≠ source ∧ k ≠ destination := by simpa [Call.written] using h
    exact find?_move_of_ne hne.1 hne.2
  | load key => rfl
  | has key => rfl
  | list base => rfl
  | size key => rfl

/-- **A call that fails leaves the store as it was.** -/
theorem apply_eq_of_error (h : (store.apply call).1 = .error e) : (store.apply call).2 = store := by
  cases call with
  | save key content =>
    change (store.save key content).1 = _ at h
    show (store.save key content).2 = store
    cases hd : content.drain with
    | ok value => rw [save_of_drain hd] at h ⊢; exact put_eq_of_error h
    | error e => rw [save_of_drain_error hd]
  | delete key =>
    change (store.delete key).1 = _ at h
    show (store.delete key).2 = store
    cases hfind : store.entries.find? key with
    | none => rw [delete_of_none hfind]
    | some value => rw [delete_of_some hfind] at h; cases h
  | move source destination =>
    change (store.move source destination).1 = _ at h
    show (store.move source destination).2 = store
    rw [move] at h ⊢
    cases hfind : store.entries.find? source with
    | none => rfl
    | some value => rw [hfind] at h; cases h
  | load key => rfl
  | has key => rfl
  | list base => rfl
  | size key => rfl

/-- A load gives the value under a key, or tells that there is none. -/
theorem apply_load (store : MemoryStore) (key : Key) : (store.apply (.load key)).1 =
    match store.entries.find? key with
    | some value => .ok (.ofBytes value)
    | none => .error (.notFound key) := by
  show (store.value key).map Content.ofBytes = _
  rw [MemoryStore.value]
  cases store.entries.find? key <;> rfl

/-! ## Stores without limit -/

/-- A store without limit takes every value. -/
theorem put_of_unlimited (h : store.limit = 0) (key : Key) (value : Bytes) :
    (store.put key value).1 = .ok () := by
  simp [put, hasRoom, h]

theorem limit_put (store : MemoryStore) (key : Key) (value : Bytes) :
    (store.put key value).2.limit = store.limit := by
  rw [put]
  split <;> rfl

theorem limit_delete (store : MemoryStore) (key : Key) :
    (store.delete key).2.limit = store.limit := by
  cases h : store.entries.find? key with
  | none => rw [delete_of_none h]
  | some value => rw [delete_of_some h]

/-- No call changes the limit. -/
theorem limit_apply (store : MemoryStore) (call : Call) :
    (store.apply call).2.limit = store.limit := by
  cases call with
  | save key content =>
    show (store.save key content).2.limit = _
    cases hd : content.drain with
    | ok value => rw [save_of_drain hd, limit_put]
    | error e => rw [save_of_drain_error hd]
  | delete key => exact limit_delete store key
  | move source destination =>
    show (store.move source destination).2.limit = _
    rw [move]
    cases store.entries.find? source <;> rfl
  | load key => rfl
  | has key => rfl
  | list base => rfl
  | size key => rfl

/-! ## Stores that agree on some keys -/

/-- Two stores without limit have the same entries under some keys. -/
structure Agree (data : Key → Prop) (a b : MemoryStore) : Prop where
  left : a.limit = 0
  right : b.limit = 0
  find?_eq : ∀ k, data k → a.entries.find? k = b.entries.find? k

namespace Agree

variable {data : Key → Prop} {a b : MemoryStore}

theorem refl (h : a.limit = 0) : Agree data a a := ⟨h, h, fun _ _ => rfl⟩

/-- A call that writes none of the keys does not matter. -/
theorem apply_left (h : Agree data a b) (hwritten : ∀ k ∈ call.written, ¬ data k) :
    Agree data (a.apply call).2 b where
  left := (limit_apply a call).trans h.left
  right := h.right
  find?_eq k hk :=
    (find?_apply_of_notMem fun hmem => hwritten k hmem hk).trans (h.find?_eq k hk)

theorem put (h : Agree data a b) (key : Key) (value : Bytes) :
    (a.put key value).1 = (b.put key value).1 ∧
      Agree data (a.put key value).2 (b.put key value).2 := by
  have ha := put_of_unlimited h.left key value
  have hb := put_of_unlimited h.right key value
  refine ⟨ha.trans hb.symm, (limit_put ..).trans h.left, (limit_put ..).trans h.right, ?_⟩
  intro k hk
  by_cases hkey : k = key
  · rw [hkey, find?_put_of_ok ha, find?_put_of_ok hb]
  · rw [find?_put_of_ne hkey, find?_put_of_ne hkey, h.find?_eq k hk]

theorem delete (h : Agree data a b) (hkey : data key) :
    (a.delete key).1 = (b.delete key).1 ∧ Agree data (a.delete key).2 (b.delete key).2 := by
  refine ⟨?_, (limit_delete ..).trans h.left, (limit_delete ..).trans h.right, ?_⟩
  · rw [MemoryStore.delete, MemoryStore.delete, h.find?_eq key hkey]
    cases b.entries.find? key <;> rfl
  · intro k hk
    by_cases hself : k = key
    · rw [hself, find?_delete, find?_delete]
    · rw [find?_delete_of_ne hself, find?_delete_of_ne hself, h.find?_eq k hk]

theorem move {source destination : Key} (h : Agree data a b) (hsource : data source) :
    (a.move source destination).1 = (b.move source destination).1 ∧
      Agree data (a.move source destination).2 (b.move source destination).2 := by
  have hsame := h.find?_eq source hsource
  cases hfind : b.entries.find? source with
  | none =>
    rw [hfind] at hsame
    simp only [MemoryStore.move, hsame, hfind]
    exact ⟨trivial, h⟩
  | some value =>
    rw [hfind] at hsame
    simp only [MemoryStore.move, hsame, hfind]
    refine ⟨trivial, h.left, h.right, fun k hk => ?_⟩
    -- the destination gets the value, the source loses it, everything else stays
    by_cases hdestination : k = destination
    · rw [hdestination, Entries.find?_insert_self, Entries.find?_insert_self]
    · rw [Entries.find?_insert_of_ne _ hdestination, Entries.find?_insert_of_ne _ hdestination]
      by_cases hk' : k = source
      · rw [hk', Entries.find?_erase_self, Entries.find?_erase_self]
      · rw [Entries.find?_erase_of_ne _ hk', Entries.find?_erase_of_ne _ hk', h.find?_eq k hk]

/-- **A call on the keys has the same outcome in both stores, and they agree afterwards.** Listing
is left out: it looks at every key below its own. -/
theorem apply (h : Agree data a b) (hlist : call.operation ≠ .list)
    (hkeys : ∀ k ∈ call.keys, data k) :
    (a.apply call).1 = (b.apply call).1 ∧ Agree data (a.apply call).2 (b.apply call).2 := by
  have hvalue : ∀ key, data key → a.value key = b.value key := by
    intro key hkey
    rw [value, value, h.find?_eq key hkey]
  cases call with
  | save key content =>
    show (a.save key content).1 = (b.save key content).1 ∧
      Agree data (a.save key content).2 (b.save key content).2
    cases hd : content.drain with
    | ok value => rw [save_of_drain hd, save_of_drain hd]; exact h.put key value
    | error e => rw [save_of_drain_error hd, save_of_drain_error hd]; exact ⟨rfl, h⟩
  | load key =>
    exact ⟨congrArg (Except.map Content.ofBytes) (hvalue key (hkeys key List.mem_cons_self)), h⟩
  | has key =>
    have hsame := h.find?_eq key (hkeys key List.mem_cons_self)
    exact ⟨congrArg (fun found : Option Bytes => (.ok found.isSome : Result Bool)) hsame, h⟩
  -- a listing is no call on these keys only
  | list base => exact absurd rfl hlist
  | delete key => exact h.delete (hkeys key List.mem_cons_self)
  | size key =>
    exact ⟨congrArg (Except.map List.length) (hvalue key (hkeys key List.mem_cons_self)), h⟩
  | move source destination => exact h.move (hkeys source List.mem_cons_self)

end Agree

end MemoryStore

end ObjectStore

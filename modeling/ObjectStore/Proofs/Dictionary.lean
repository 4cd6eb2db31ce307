import Mathlib.Data.Finmap
import Mathlib.Data.Finset.Sort
import ObjectStore.Proofs.Capacity
import ObjectStore.Proofs.Listing

/-! # The store as a finite map

To its callers a store is a finite map from keys to byte strings. It has no order, no running total
and no scan; what it admits is judged by adding up all values.

* **`Dictionary`** — such a map; **`Dictionary.apply`** — what it answers to a call, and the map
  afterwards.
* **`Observation`** — what a caller learns from an outcome.
* **`Entries.toDictionary`** — the map that sorted entries stand for, with one equation for each
  operation on them.
* **`MemoryStore.answer_apply`** — one call on the store is that call on the map.
* **`MemoryStore.refines_dictionary`** — so is every run, and the calls that fail may be left out of
  it. -/

namespace ObjectStore

/-! ## Observations -/

/-- What a caller learns from an outcome. -/
inductive Observation where
  /-- The call is carried out. -/
  | done
  /-- A content of some declared size, which brings these bytes as it is read. -/
  | loaded (declared : Option Nat) (bytes : Result Bytes)
  /-- Whether the key has an entry. -/
  | present (found : Bool)
  /-- Some keys, in order. -/
  | listed (keys : List Key)
  /-- The length of the key's entry. -/
  | length (bytes : Nat)
  /-- The call fails. -/
  | failed (e : StorageError)

/-- What a caller learns from a reply. -/
def Call.learned : (call : Call) → call.Reply → Observation
  | .save _ _, _ => .done
  | .load _, content => .loaded content.size content.drain
  | .has _, found => .present found
  | .list _, keys => .listed keys
  | .delete _, _ => .done
  | .size _, bytes => .length bytes
  | .move _ _, _ => .done

/-- What a caller learns from an outcome. -/
def Call.answer (call : Call) : call.Outcome → Observation
  | .ok reply => call.learned reply
  | .error e => .failed e

/-! ## Finite maps -/

/-- A finite map from keys to values. -/
abbrev Dictionary := Finmap fun _ : Key => Bytes

namespace Key

instance : IsTrans Key (· ≤ ·) := ⟨fun a b c hab hbc hca => by
  by_cases h : a = b
  · exact hbc (h ▸ hca)
  · exact hbc (lt_trans hca (lt_of_not_lt hab (Ne.symm h)))⟩

instance : Std.Antisymm (α := Key) (· ≤ ·) := ⟨fun a b hab hba => by
  by_contra h
  exact hba (lt_of_not_lt hab (Ne.symm h))⟩

instance : Std.Total (α := Key) (· ≤ ·) := ⟨fun a b => by
  by_cases h : b < a
  · exact .inr fun hab => lt_irrefl a (lt_trans hab h)
  · exact .inl h⟩

theorem nodup_of_ascending {keys : List Key} (h : keys.Pairwise (· < ·)) : keys.Nodup := by
  refine h.imp ?_
  rintro a b hlt rfl
  exact lt_irrefl a hlt

end Key

namespace Dictionary

/-- The bytes of all values together. -/
def bytes (m : Dictionary) : Nat := (m.entries.map fun e => e.2.length).sum

/-- The keys with a value that equal `base` or lie below it, ascending. -/
def below (m : Dictionary) (base : Key) : List Key :=
  (m.keys.filter fun k => base.contains k = true).sort (· ≤ ·)

/-- The failure of a map that holds so many bytes and may not grow to more than its limit. -/
def limitExceeded (limit : Nat) (m grown : Dictionary) : StorageError :=
  .backend { cause := s!"Memory limit exceeded: current={m.bytes}, " ++
    s!"additional={grown.bytes - m.bytes}, max={limit}" }

/-- What a map answers to a call, with the map afterwards. The limit zero stands for none.

A save writes all chunks of the content in a row. If one of them does not arrive, or if all values
together were beyond the limit, it fails. -/
def apply (limit : Nat) (m : Dictionary) : Call → Observation × Dictionary
  | .save key content =>
    match content.chunks.mapM id with
    | .error fault => (.failed (.backend fault), m)
    | .ok chunks =>
      let written : Dictionary := m.insert key chunks.flatten
      if limit = 0 ∨ written.bytes ≤ limit then (.done, written)
      else (.failed (limitExceeded limit m written), m)
  | .load key =>
    match m.lookup key with
    | some value => (.loaded (some value.length) (.ok value), m)
    | none => (.failed (.notFound key), m)
  | .has key => (.present (key ∈ m), m)
  | .list base => (.listed (m.below base), m)
  | .delete key => if key ∈ m then (.done, m.erase key) else (.failed (.notFound key), m)
  | .size key =>
    match m.lookup key with
    | some value => (.length value.length, m)
    | none => (.failed (.notFound key), m)
  | .move source destination =>
    match m.lookup source with
    | some value => (.done, (m.erase source).insert destination value)
    | none => (.failed (.notFound source), m)

/-- What a map answers to some calls, one after another. -/
def answers (limit : Nat) : Dictionary → List Call → List Observation
  | _, [] => []
  | m, call :: more => (m.apply limit call).1 :: answers limit (m.apply limit call).2 more

/-- The map after some calls. -/
def after (limit : Nat) (m : Dictionary) (calls : List Call) : Dictionary :=
  calls.foldl (fun m call => (m.apply limit call).2) m

end Dictionary

/-! ## The map of some entries -/

namespace Entries

variable {entries : Entries} {key : Key} {value : Bytes}

/-- Entries as a list of dependent pairs. -/
def pairsIn (items : List (Key × Bytes)) : List ((_ : Key) × Bytes) :=
  items.map fun e => ⟨e.1, e.2⟩

theorem keys_pairsIn (items : List (Key × Bytes)) :
    (pairsIn items).keys = items.map Prod.fst := by
  simp [pairsIn, List.keys]

theorem dlookup_pairsIn (key : Key) (items : List (Key × Bytes)) :
    (pairsIn items).dlookup key = findIn key items := by
  induction items with
  | nil => rfl
  | cons first more ih =>
    obtain ⟨k, value⟩ := first
    by_cases hk : k = key
    · subst hk
      rw [findIn, if_pos rfl]
      exact List.dlookup_cons_eq ..
    · rw [findIn, if_neg hk, ← ih]
      exact List.dlookup_cons_ne _ (⟨k, value⟩ : (_ : Key) × Bytes) (Ne.symm hk)

/-- The map that entries stand for. -/
def toDictionary (entries : Entries) : Dictionary where
  entries := pairsIn entries.toList
  nodupKeys := by
    show (pairsIn entries.toList).NodupKeys
    rw [List.NodupKeys, keys_pairsIn]
    exact Key.nodup_of_ascending (pairwise_keys entries)

@[simp] theorem lookup_toDictionary (entries : Entries) (key : Key) :
    entries.toDictionary.lookup key = entries.find? key :=
  dlookup_pairsIn key entries.toList

theorem mem_toDictionary : key ∈ entries.toDictionary ↔ (entries.find? key).isSome = true := by
  rw [← Finmap.lookup_isSome, lookup_toDictionary]

@[simp] theorem toDictionary_empty : empty.toDictionary = ∅ := rfl

@[simp] theorem toDictionary_insert (entries : Entries) (key : Key) (value : Bytes) :
    (entries.insert key value).toDictionary = entries.toDictionary.insert key value := by
  refine Finmap.ext_lookup fun k => ?_
  by_cases h : k = key
  · subst h
    rw [lookup_toDictionary, find?_insert_self, Finmap.lookup_insert]
  · rw [lookup_toDictionary, find?_insert_of_ne _ h, Finmap.lookup_insert_of_ne _ h,
      lookup_toDictionary]

@[simp] theorem toDictionary_erase (entries : Entries) (key : Key) :
    (entries.erase key).toDictionary = entries.toDictionary.erase key := by
  refine Finmap.ext_lookup fun k => ?_
  by_cases h : k = key
  · subst h
    rw [lookup_toDictionary, find?_erase_self, Finmap.lookup_erase]
  · rw [lookup_toDictionary, find?_erase_of_ne _ h, Finmap.lookup_erase_ne h, lookup_toDictionary]

/-- Adding up all values of the map gives the bytes of the entries. -/
@[simp] theorem bytes_toDictionary (entries : Entries) :
    entries.toDictionary.bytes = entries.bytes := by
  simp [Dictionary.bytes, toDictionary, pairsIn, bytes, bytesIn, Function.comp_def]

/-- **A scan finds what lies below its base**, in the same order. -/
theorem below_toDictionary (entries : Entries) (base : Key) :
    entries.toDictionary.below base = entries.scan base := by
  have hkeys : entries.toDictionary.keys.filter (fun k => base.contains k = true) =
      (entries.scan base).toFinset := by
    ext k
    rw [Finset.mem_filter, Finmap.mem_keys, mem_toDictionary, List.mem_toFinset, mem_scan_iff]
  have hsorted := pairwise_scan entries base
  rw [Dictionary.below, hkeys]
  refine (List.toFinset_sort _ (Key.nodup_of_ascending hsorted)).mpr (hsorted.imp fun hab hba => ?_)
  exact Key.lt_irrefl _ (Key.lt_trans hab hba)

end Entries

/-! ## What a content brings -/

namespace Content

/-- Gathering chunks takes them all, or finds the first that does not arrive. -/
theorem gather_eq (taken : List Bytes) (chunks : List (Except Fault Bytes)) :
    gather taken chunks = (chunks.mapM id).map (taken.reverse ++ ·) := by
  induction chunks generalizing taken with
  | nil => simp [gather, Except.map, pure, Except.pure]
  | cons chunk more ih =>
    rw [List.mapM_cons]
    cases chunk with
    | error fault => rfl
    | ok bytes =>
      rw [gather, ih]
      cases more.mapM id with
      | error fault => rfl
      | ok rest => simp [Except.map, bind, Except.bind, pure, Except.pure]

/-- Draining a content joins its chunks, if they all arrive. -/
theorem drain_eq (content : Content) : content.drain =
    match content.chunks.mapM id with
    | .ok chunks => .ok chunks.flatten
    | .error fault => .error (.backend fault) := by
  rw [drain, gather_eq]
  cases content.chunks.mapM id <;> rfl

theorem size_ofBytes (value : Bytes) : (ofBytes value).size = some value.length := by
  cases value <;> rfl

/-- A content with a chunk that does not arrive brings a failure, whatever follows that chunk. -/
theorem exists_drain_eq_error {content : Content} {fault : Fault}
    (h : .error fault ∈ content.chunks) : ∃ first, content.drain = .error (.backend first) := by
  obtain ⟨size, chunks⟩ := content
  rw [drain_eq]
  show ∃ first, (match chunks.mapM id with
    | .ok chunks => (.ok chunks.flatten : Result Bytes)
    | .error fault => .error (.backend fault)) = .error (.backend first)
  change .error fault ∈ chunks at h
  suffices hfirst : ∃ first, chunks.mapM id = .error first by
    obtain ⟨first, hfirst⟩ := hfirst
    exact ⟨first, by rw [hfirst]⟩
  induction chunks with
  | nil => cases h
  | cons chunk more ih =>
    rw [List.mapM_cons]
    cases chunk with
    | error first => exact ⟨first, rfl⟩
    | ok bytes =>
      obtain ⟨first, hfirst⟩ := ih (by simpa using h)
      exact ⟨first, by rw [hfirst]; rfl⟩

end Content

/-! ## One call -/

namespace MemoryStore

variable {store : MemoryStore}

/-- A value that is written here is written there, and one that is refused is refused there. -/
theorem Balanced.answer_put (h : store.Balanced) (key : Key) (content : Content) (value : Bytes) :
    let grown : Dictionary := store.entries.toDictionary.insert key value
    ((Call.save key content).answer (store.put key value).1,
        (store.put key value).2.entries.toDictionary) =
      if store.limit = 0 ∨ grown.bytes ≤ store.limit then (.done, grown)
      else (.failed (Dictionary.limitExceeded store.limit store.entries.toDictionary grown),
        store.entries.toDictionary) := by
  intro grown
  have hgrown : grown = (store.entries.insert key value).toDictionary :=
    (Entries.toDictionary_insert ..).symm
  have htakes_iff : (store.limit = 0 ∨ grown.bytes ≤ store.limit) ↔ store.Takes key value := by
    rw [hgrown, Entries.bytes_toDictionary, Takes]
  by_cases htakes : store.Takes key value
  · rw [h.put_of_takes htakes, if_pos (htakes_iff.mpr htakes), hgrown]
    rfl
  · obtain ⟨hlt, hput⟩ := h.put_of_not_takes htakes
    -- what the map would grow by is what the entry would
    have hadditional : grown.bytes - store.entries.bytes =
        value.length - store.lengthAt key := by
      have hle := h.lengthAt_le key
      rw [hgrown, Entries.bytes_toDictionary, h.bytes_insert, ← h.total_eq]
      omega
    rw [hput, if_neg (mt htakes_iff.mp htakes), Dictionary.limitExceeded,
      Entries.bytes_toDictionary, hadditional, ← h.total_eq]
    rfl

theorem answer_load (store : MemoryStore) (key : Key) :
    (Call.load key).answer (store.apply (.load key)).1 =
      match store.entries.find? key with
      | some value => .loaded (some value.length) (.ok value)
      | none => .failed (.notFound key) := by
  rw [apply_load]
  cases store.entries.find? key with
  | none => rfl
  | some value =>
    show Observation.loaded (Content.ofBytes value).size (Content.ofBytes value).drain = _
    rw [Content.size_ofBytes, Content.drain_ofBytes]

/-- **One call on the store is that call on the map of its entries.** -/
theorem Balanced.answer_apply (h : store.Balanced) (call : Call) :
    (call.answer (store.apply call).1, (store.apply call).2.entries.toDictionary) =
      store.entries.toDictionary.apply store.limit call := by
  cases call with
  | save key content =>
    show ((Call.save key content).answer (store.save key content).1,
      (store.save key content).2.entries.toDictionary) = _
    rw [Dictionary.apply, save, Content.drain_eq]
    cases content.chunks.mapM id with
    | error fault => rfl
    | ok chunks => exact h.answer_put key content chunks.flatten
  | load key =>
    rw [Dictionary.apply, Entries.lookup_toDictionary, answer_load]
    cases store.entries.find? key <;> rfl
  | has key =>
    have hfound : (store.entries.find? key).isSome = decide (key ∈ store.entries.toDictionary) := by
      rw [Bool.eq_iff_iff, decide_eq_true_iff, Entries.mem_toDictionary]
    rw [Dictionary.apply, ← hfound]
    rfl
  | list base =>
    rw [Dictionary.apply, Entries.below_toDictionary]
    rfl
  | delete key =>
    show ((Call.delete key).answer (store.delete key).1,
      (store.delete key).2.entries.toDictionary) = _
    rw [Dictionary.apply]
    simp only [Entries.mem_toDictionary]
    cases hfind : store.entries.find? key with
    | none => rw [delete_of_none hfind]; rfl
    | some value => rw [delete_of_some hfind, ← Entries.toDictionary_erase]; rfl
  | size key =>
    rw [Dictionary.apply, Entries.lookup_toDictionary]
    show ((Call.size key).answer ((store.value key).map List.length), _) = _
    rw [value]
    cases store.entries.find? key <;> rfl
  | move source destination =>
    rw [Dictionary.apply, Entries.lookup_toDictionary]
    show ((Call.move source destination).answer (store.move source destination).1,
      (store.move source destination).2.entries.toDictionary) = _
    cases hfind : store.entries.find? source with
    | none => rw [move_of_none hfind]; rfl
    | some value =>
      simp only [move_of_some hfind, Entries.toDictionary_insert, Entries.toDictionary_erase]
      rfl

/-! ## Runs -/

/-- The calls of a run with their outcomes. -/
def transcript (store : MemoryStore) : List Call → List ((call : Call) × call.Outcome)
  | [] => []
  | call :: more => ⟨call, (store.apply call).1⟩ :: (store.apply call).2.transcript more

/-- The calls of a run that do not fail, with their outcomes. -/
def succeeded (store : MemoryStore) (calls : List Call) : List ((call : Call) × call.Outcome) :=
  (store.transcript calls).filter fun e => e.2.toBool

theorem transcript_cons (store : MemoryStore) (call : Call) (more : List Call) :
    store.transcript (call :: more) =
      ⟨call, (store.apply call).1⟩ :: (store.apply call).2.transcript more := rfl

/-- **A run on the store is that run on the map of its entries.** -/
theorem Balanced.answers_transcript (h : store.Balanced) (calls : List Call) :
    (store.transcript calls).map (fun e => e.1.answer e.2) =
        store.entries.toDictionary.answers store.limit calls ∧
      (store.after calls).entries.toDictionary =
        store.entries.toDictionary.after store.limit calls := by
  induction calls generalizing store with
  | nil => exact ⟨rfl, rfl⟩
  | cons call more ih =>
    obtain ⟨hanswers, hafter⟩ := ih (h.apply call)
    rw [limit_apply] at hanswers hafter
    obtain ⟨hanswer, hmap⟩ := Prod.mk.inj (h.answer_apply call)
    rw [hmap] at hanswers hafter
    refine ⟨?_, hafter⟩
    rw [transcript_cons, List.map_cons, hanswers, hanswer]
    rfl

/-- **The calls that fail may be left out of a run**: the outcomes of the others and the store
afterwards are the same. -/
theorem transcript_succeeded (store : MemoryStore) (calls : List Call) :
    store.transcript ((store.succeeded calls).map Sigma.fst) = store.succeeded calls ∧
      store.after ((store.succeeded calls).map Sigma.fst) = store.after calls := by
  induction calls generalizing store with
  | nil => exact ⟨rfl, rfl⟩
  | cons call more ih =>
    obtain ⟨htranscript, hafter⟩ := ih (store.apply call).2
    cases hreply : (store.apply call).1 with
    | error e =>
      -- a call that fails leaves the store to the next one
      have hsame := apply_eq_of_error hreply
      have hdropped : store.succeeded (call :: more) = store.succeeded more := by
        rw [succeeded, transcript_cons, hreply, hsame]
        exact List.filter_cons_of_neg (by simp [Except.toBool])
      rw [hsame] at htranscript hafter
      rw [hdropped, after_cons, hsame]
      exact ⟨htranscript, hafter⟩
    | ok reply =>
      have hkept : store.succeeded (call :: more) =
          ⟨call, (store.apply call).1⟩ :: (store.apply call).2.succeeded more := by
        rw [succeeded, transcript_cons, hreply]
        exact List.filter_cons_of_pos rfl
      rw [hkept, List.map_cons, transcript_cons, after_cons, after_cons, htranscript]
      exact ⟨rfl, hafter⟩

/-- **To its callers the store is a finite map.** Every run on a store with any limit is answered as
the map answers it, and leaves the entries of the map, with their bytes as the total: a save writes
all chunks of its content in a row, however the value was cut into chunks and whatever size was
declared; a loaded content declares the length of the value that it brings, and a value without
bytes is a value. A call that fails changes nothing, and a save fails if any chunk of its content
does not arrive. So the calls of a run that fail may be left out: the others have the same outcomes,
and the store is the same afterwards. -/
theorem refines_dictionary (limit : Nat) (calls : List Call) :
    let store := (withLimit limit).after calls
    let effective := (withLimit limit).succeeded calls
    ((withLimit limit).transcript calls).map (fun e => e.1.answer e.2) =
        Dictionary.answers limit ∅ calls ∧
      store.entries.toDictionary = Dictionary.after limit ∅ calls ∧
      store.total = (Dictionary.after limit ∅ calls).bytes ∧
      (∀ call e, (store.apply call).1 = .error e → (store.apply call).2 = store) ∧
      (∀ key content fault, .error fault ∈ content.chunks →
        ∃ first, store.apply (.save key content) = (.error (.backend first), store)) ∧
      (withLimit limit).transcript (effective.map Sigma.fst) = effective ∧
      (withLimit limit).after (effective.map Sigma.fst) = store := by
  intro store effective
  have hbalanced := balanced_withLimit limit
  obtain ⟨hanswers, hmap⟩ := hbalanced.answers_transcript calls
  obtain ⟨htranscript, hafter⟩ := (withLimit limit).transcript_succeeded calls
  refine ⟨hanswers, hmap, ?_, fun call e => apply_eq_of_error, ?_, htranscript, hafter⟩
  · rw [(hbalanced.after calls).total_eq, ← Entries.bytes_toDictionary, hmap]
    rfl
  · intro key content fault hfault
    obtain ⟨first, hdrain⟩ := Content.exists_drain_eq_error hfault
    exact ⟨first, save_of_drain_error hdrain⟩

end MemoryStore

end ObjectStore

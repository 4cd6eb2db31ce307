import Mathlib.Data.List.Sort
import ObjectStore.Proofs.Dictionary

/-! # Clients in subtrees of their own

Clients that share a store and keep to keys in subtrees of their own do not notice each other, even
where their keys stand between each other in the order of texts.

* **`Entries.scan_congr`** — a listing depends on the entries below its base only.
* **`MemoryStore.shared`** — the calls of several clients with their outcomes; **`ownPart`** — those
  of one of them.
* **`MemoryStore.Agree.ownPart_shared`** — a client on the shared store does what it does alone.
* **`MemoryStore.isolated_subtrees`** — so no client notices the others, and the store afterwards
  does not depend on how their calls were interleaved. -/

namespace ObjectStore

open Text

/-! ## Ascending keys -/

namespace Key

instance : Std.Irrefl (α := Key) (· < ·) := ⟨lt_irrefl⟩

instance : Std.Antisymm (α := Key) (· < ·) :=
  ⟨fun a _ hab hba => absurd (lt_trans hab hba) (lt_irrefl a)⟩

end Key

namespace Entries

variable {entries others : Entries} {base : Key}

/-- A listing depends on the entries below its base only. -/
theorem scan_congr
    (h : ∀ k, base.contains k = true → entries.find? k = others.find? k) :
    entries.scan base = others.scan base := by
  refine List.Pairwise.eq_of_mem_iff (pairwise_scan entries base) (pairwise_scan others base)
    fun k => ?_
  rw [mem_scan_iff, mem_scan_iff]
  exact and_congr_left fun hk => by rw [h k hk]

/-- In ascending entries the value of a key is the one that stands with it. -/
theorem mem_iff_findIn {key : Key} {value : Bytes} {items : List (Key × Bytes)}
    (h : items.Pairwise fun a b => a.1 < b.1) :
    (key, value) ∈ items ↔ findIn key items = some value := by
  induction items with
  | nil => simp [findIn]
  | cons first more ih =>
    obtain ⟨k, old⟩ := first
    obtain ⟨hfirst, hmore⟩ := List.pairwise_cons.mp h
    rw [List.mem_cons, Prod.mk.injEq, findIn]
    by_cases hk : k = key
    · subst hk
      -- the key does not occur again after its first entry
      have habsent : (k, value) ∉ more := fun hmem => Key.lt_irrefl k (hfirst _ hmem)
      simp [habsent, eq_comm]
    · rw [if_neg hk, ← ih hmore]
      simp [Ne.symm hk]

/-- Entries that give every key the same value are the same. -/
theorem ext_find? (h : ∀ k, entries.find? k = others.find? k) : entries = others := by
  have hirrefl : Std.Irrefl fun a b : Key × Bytes => a.1 < b.1 := ⟨fun a => Key.lt_irrefl a.1⟩
  have hantisymm : Std.Antisymm fun a b : Key × Bytes => a.1 < b.1 :=
    ⟨fun a _ hab hba => absurd (Key.lt_trans hab hba) (Key.lt_irrefl a.1)⟩
  have hitems : entries.toList = others.toList := by
    refine List.Pairwise.eq_of_mem_iff entries.ascending others.ascending fun e => ?_
    obtain ⟨k, value⟩ := e
    rw [mem_iff_findIn entries.ascending, mem_iff_findIn others.ascending]
    exact iff_of_eq (congrArg (· = some value) (h k))
  obtain ⟨items, hascending⟩ := entries
  obtain ⟨items', hascending'⟩ := others
  cases hitems
  rfl

end Entries

/-! ## Calls of several clients -/

section OwnPart

variable {ι α : Type} [DecidableEq ι] {i : ι}

/-- What belongs to one of several clients. -/
def ownPart (i : ι) (items : List (ι × α)) : List α :=
  items.filterMap fun e => if e.1 = i then some e.2 else none

@[simp] theorem ownPart_cons_self (i : ι) (a : α) (items : List (ι × α)) :
    ownPart i ((i, a) :: items) = a :: ownPart i items :=
  List.filterMap_cons_some (if_pos rfl)

theorem ownPart_cons_of_ne {j : ι} (h : j ≠ i) (a : α) (items : List (ι × α)) :
    ownPart i ((j, a) :: items) = ownPart i items :=
  List.filterMap_cons_none (if_neg h)

theorem mem_ownPart_iff {a : α} {items : List (ι × α)} :
    a ∈ ownPart i items ↔ (i, a) ∈ items := by
  simp only [ownPart, List.mem_filterMap, Option.ite_none_right_eq_some, Option.some_inj]
  constructor
  · rintro ⟨⟨j, b⟩, hmem, rfl, rfl⟩
    exact hmem
  · exact fun hmem => ⟨(i, a), hmem, rfl, rfl⟩

end OwnPart

namespace MemoryStore

variable {ι : Type} {store : MemoryStore}

/-- The calls of several clients on one store, with their outcomes. -/
def shared (store : MemoryStore) (run : List (ι × Call)) :
    List (ι × ((call : Call) × call.Outcome)) :=
  (run.map Prod.fst).zip (store.transcript (run.map Prod.snd))

theorem shared_cons (store : MemoryStore) (i : ι) (call : Call) (more : List (ι × Call)) :
    store.shared ((i, call) :: more) =
      (i, ⟨call, (store.apply call).1⟩) :: (store.apply call).2.shared more := rfl

/-! ## One client among others -/

section Client

variable {subtree : Key} {a b : MemoryStore}

/-- Stores that agree on a subtree answer every call on it alike, listings included. -/
theorem Agree.apply_within (h : Agree (fun k => subtree.contains k = true) a b) {call : Call}
    (hkeys : ∀ k ∈ call.keys, subtree.contains k = true) :
    (a.apply call).1 = (b.apply call).1 ∧
      Agree (fun k => subtree.contains k = true) (a.apply call).2 (b.apply call).2 := by
  by_cases hlist : call.operation = .list
  · cases call with
    | list base =>
      have hbase : subtree.contains base = true := hkeys base List.mem_cons_self
      have hscan : a.entries.scan base = b.entries.scan base :=
        Entries.scan_congr fun k hk => h.find?_eq k (Key.contains_trans hbase hk)
      exact ⟨congrArg Except.ok hscan, h⟩
    | _ => cases hlist
  · exact h.apply hlist hkeys

/-- A call in a subtree apart from this one changes nothing in it. -/
theorem Agree.apply_apart (h : Agree (fun k => subtree.contains k = true) a b) {other : Key}
    {call : Call} (hapart : subtree.contains other = false ∧ other.contains subtree = false)
    (hkeys : ∀ k ∈ call.keys, other.contains k = true) :
    Agree (fun k => subtree.contains k = true) (a.apply call).2 b := by
  refine h.apply_left fun k hk hwithin => ?_
  have hother := hkeys k (Call.mem_keys_of_mem_written hk)
  rcases Key.contains_or_contains hwithin hother with hcontains | hcontains
  · rw [hapart.1] at hcontains
    cases hcontains
  · rw [hapart.2] at hcontains
    cases hcontains

end Client

variable [DecidableEq ι] {subtree : ι → Key}

/-- **A client on a shared store does what it does alone**, as long as everybody keeps to a subtree
of their own. -/
theorem Agree.ownPart_shared
    (hapart : ∀ i j, i ≠ j → (subtree i).contains (subtree j) = false) {i : ι}
    {alone : MemoryStore} (h : Agree (fun k => (subtree i).contains k = true) store alone)
    {run : List (ι × Call)} (hrun : ∀ e ∈ run, ∀ k ∈ e.2.keys, (subtree e.1).contains k = true) :
    ownPart i (store.shared run) = alone.transcript (ownPart i run) ∧
      Agree (fun k => (subtree i).contains k = true) (store.after (run.map Prod.snd))
        (alone.after (ownPart i run)) := by
  induction run generalizing store alone with
  | nil => exact ⟨rfl, h⟩
  | cons e more ih =>
    obtain ⟨j, call⟩ := e
    have hkeys := hrun (j, call) List.mem_cons_self
    have hmore := fun e he => hrun e (List.mem_cons_of_mem _ he)
    by_cases hj : j = i
    -- the client's own call: both stores carry it out alike
    · subst hj
      obtain ⟨hreply, hagree⟩ := h.apply_within hkeys
      obtain ⟨hpart, hafter⟩ := ih hagree hmore
      rw [shared_cons, ownPart_cons_self, ownPart_cons_self, transcript_cons, hpart, hreply]
      exact ⟨rfl, hafter⟩
    -- somebody else's call: the client's subtree stays as it is
    · have hagree := h.apply_apart ⟨hapart i j (Ne.symm hj), hapart j i hj⟩ hkeys
      rw [shared_cons, ownPart_cons_of_ne hj, ownPart_cons_of_ne hj]
      exact ih hagree hmore

omit [DecidableEq ι] in
/-- A run changes nothing outside the subtrees of its clients. -/
theorem find?_after_shared {run : List (ι × Call)}
    (hrun : ∀ e ∈ run, ∀ k ∈ e.2.keys, (subtree e.1).contains k = true) {k : Key}
    (hk : ∀ i, (subtree i).contains k = false) :
    (store.after (run.map Prod.snd)).entries.find? k = store.entries.find? k := by
  refine find?_after_of_notMem fun call hcall hwritten => ?_
  obtain ⟨e, he, rfl⟩ := List.mem_map.mp hcall
  have hwithin := hrun e he k (Call.mem_keys_of_mem_written hwritten)
  rw [hk e.1] at hwithin
  cases hwithin

/-- Stores whose entries and limit are the same are the same, if their totals are right. -/
theorem Balanced.ext {a b : MemoryStore} (ha : a.Balanced) (hb : b.Balanced)
    (hlimit : a.limit = b.limit) (h : ∀ k, a.entries.find? k = b.entries.find? k) : a = b := by
  have hentries := Entries.ext_find? h
  have htotal : a.total = b.total := by rw [ha.total_eq, hb.total_eq, hentries]
  obtain ⟨entries, total, limit⟩ := a
  obtain ⟨entries', total', limit'⟩ := b
  cases hentries
  cases htotal
  cases hlimit
  rfl

/-- **Clients in subtrees of their own do not notice each other.** Let clients share a store without
limit, each keeping to the keys in its own subtree, where no subtree contains another. However their
calls are interleaved, each client gets the outcomes that it gets alone, and its subtree holds
afterwards what it holds then; what lies in nobody's subtree stays. So any other interleaving of the
same calls leads to the same store. -/
theorem isolated_subtrees (subtree : ι → Key)
    (hapart : ∀ i j, i ≠ j → (subtree i).contains (subtree j) = false) (before : List Call)
    (run : List (ι × Call)) (hrun : ∀ e ∈ run, ∀ k ∈ e.2.keys, (subtree e.1).contains k = true) :
    let store := unlimited.after before
    (∀ i, ownPart i (store.shared run) = store.transcript (ownPart i run)) ∧
      (∀ i k, (subtree i).contains k = true →
        (store.after (run.map Prod.snd)).entries.find? k =
          (store.after (ownPart i run)).entries.find? k) ∧
      (∀ k, (∀ i, (subtree i).contains k = false) →
        (store.after (run.map Prod.snd)).entries.find? k = store.entries.find? k) ∧
      ∀ other : List (ι × Call), (∀ i, ownPart i other = ownPart i run) →
        store.after (other.map Prod.snd) = store.after (run.map Prod.snd) := by
  intro store
  have hlimit : store.limit = 0 := limit_after unlimited before
  have hbalanced : store.Balanced := (balanced_withLimit 0).after before
  -- everything but the last part holds of any run that keeps to the subtrees
  have hclient : ∀ {items : List (ι × Call)},
      (∀ e ∈ items, ∀ k ∈ e.2.keys, (subtree e.1).contains k = true) → ∀ i,
      ownPart i (store.shared items) = store.transcript (ownPart i items) ∧
        Agree (fun k => (subtree i).contains k = true) (store.after (items.map Prod.snd))
          (store.after (ownPart i items)) :=
    fun hitems i => Agree.ownPart_shared hapart (.refl hlimit) hitems
  refine ⟨fun i => (hclient hrun i).1, fun i k hk => (hclient hrun i).2.find?_eq k hk,
    fun k hk => find?_after_shared hrun hk, fun other hother => ?_⟩
  have hrun' : ∀ e ∈ other, ∀ k ∈ e.2.keys, (subtree e.1).contains k = true := by
    rintro ⟨i, call⟩ he
    have hmem : call ∈ ownPart i run := hother i ▸ mem_ownPart_iff.mpr he
    exact hrun (i, call) (mem_ownPart_iff.mp hmem)
  refine (hbalanced.after _).ext (hbalanced.after _) ?_ fun k => ?_
  · exact (limit_after store _).trans (limit_after store _).symm
  · by_cases hk : ∃ i, (subtree i).contains k = true
    · obtain ⟨i, hk⟩ := hk
      rw [(hclient hrun' i).2.find?_eq k hk, (hclient hrun i).2.find?_eq k hk, hother i]
    · have hoff : ∀ i, (subtree i).contains k = false :=
        fun i => Bool.eq_false_iff.mpr fun hi => hk ⟨i, hi⟩
      rw [find?_after_shared hrun' hoff, find?_after_shared hrun hoff]

/-! ### Subtrees that share a text -/

/-- Two subtrees where the keys of the second stand between those of the first. -/
def neighbours : Fin 2 → Key
  | 0 => Key.ofString "a/b"
  | 1 => Key.ofString "a/b-c"

/-- The first client writes two keys and lists its subtree; meanwhile the second writes and moves an
entry that stands between them. -/
def neighbourRun : List (Fin 2 × Call) :=
  [(0, .save (Key.ofString "a/b/z") (.ofBytes [1])), (1, .save (Key.ofString "a/b-c/x") (.ofBytes [2])),
    (0, .save (Key.ofString "a/b") (.ofBytes [])),
    (1, .move (Key.ofString "a/b-c/x") (Key.ofString "a/b-c")), (0, .list (Key.ofString "a/b"))]

theorem isolated_subtrees_neighbours :
    (∀ i j, i ≠ j → (neighbours i).contains (neighbours j) = false) ∧
      (∀ e ∈ neighbourRun, ∀ k ∈ e.2.keys, (neighbours e.1).contains k = true) ∧
      (unlimited.after (neighbourRun.map Prod.snd)).entries.keys =
        [Key.ofString "a/b", Key.ofString "a/b-c", Key.ofString "a/b/z"] ∧
      ownPart 0 (unlimited.shared neighbourRun) = unlimited.transcript
        [.save (Key.ofString "a/b/z") (.ofBytes [1]), .save (Key.ofString "a/b") (.ofBytes []),
          .list (Key.ofString "a/b")] ∧
      (unlimited.after (neighbourRun.map Prod.snd)).entries.find? (Key.ofString "a/b-c") =
        (unlimited.after (ownPart 1 neighbourRun)).entries.find? (Key.ofString "a/b-c") := by
  have hapart : ∀ i j, i ≠ j → (neighbours i).contains (neighbours j) = false := by decide +kernel
  have hrun : ∀ e ∈ neighbourRun, ∀ k ∈ e.2.keys, (neighbours e.1).contains k = true := by
    decide +kernel
  obtain ⟨hanswers, hentries, -⟩ := isolated_subtrees neighbours hapart [] neighbourRun hrun
  exact ⟨hapart, hrun, by decide +kernel, hanswers 0,
    hentries 1 (Key.ofString "a/b-c") (by decide +kernel)⟩

end MemoryStore

end ObjectStore

import ObjectStore.Proofs.Listing
import ObjectStore.Proofs.TextBytes
import ObjectStore.Storage.Memory

/-! # Listing by bytes

A listing sees the canonical texts of the stored keys, in the order of their UTF-8 bytes. It reads one
stretch of them, compares bytes with bytes, and makes each text it has found a key again. What it
finds is what a look at every key finds, by the hierarchy of keys.

* **`Key.bytes_lt_bytes_iff`** — keys are ordered as the bytes of their texts are.
* **`Entries.scanTexts`** — the listing on texts and bytes; `Entries.scanTexts_eq_scan` says that it
  is the scan of the keys.
* **`MemoryStore.list_eq_filter`** — what a store in memory lists. -/

namespace ObjectStore

namespace Key

variable {a b k : Key}

/-- The UTF-8 bytes of the canonical text. -/
def bytes (k : Key) : Bytes := Utf8.encode k.text

theorem ofString_toString_bytes (k : Key) : Bytes.ofString k.toString = k.bytes := by
  rw [Bytes.ofString, toString, String.toList_ofList, bytes]

/-- **Keys are ordered as the bytes of their texts are.** -/
theorem bytes_lt_bytes_iff : a.bytes < b.bytes ↔ a < b := Utf8.encode_lt_encode_iff

/-- Only the root contains no other key, and every key contains itself. -/
theorem contains_root_iff : a.contains root = true ↔ a = root := by
  rw [contains_iff, pieces_text_root, List.prefix_nil]
  exact ⟨fun h => ext_pieces h, fun h => by rw [h, pieces_text_root]⟩

end Key

namespace Entries

/-! ## The scan of texts -/

/-- Whether stored bytes equal those of a base or go on after them with a delimiter. -/
def matchesBytes (base candidate : Bytes) : Bool :=
  base.isEmpty ||
    (base.isPrefixOf candidate && (candidate.length == base.length ||
      (Utf8.encode [delimiter]).isPrefixOf (candidate.drop base.length)))

/-- The listing of stored texts by their bytes: from the base on, as long as they begin with it, those
that go on with a delimiter or not at all. Each is read as a key. -/
def scanTexts (stored : List String) (base : Bytes) : List Key :=
  (((stored.dropWhile fun text => decide (Bytes.ofString text < base)).takeWhile
      fun text => base.isPrefixOf (Bytes.ofString text)).filter
    fun text => matchesBytes base (Bytes.ofString text)).map Key.ofString

theorem isPrefixOf_encode (x y : List Char) :
    (Utf8.encode x).isPrefixOf (Utf8.encode y) = x.isPrefixOf y := by
  rw [Bool.eq_iff_iff, List.isPrefixOf_iff_prefix, List.isPrefixOf_iff_prefix,
    Utf8.encode_prefix_encode_iff]

theorem encode_eq_nil_iff {x : List Char} : Utf8.encode x = [] ↔ x = [] := by
  rw [← List.prefix_nil, ← Utf8.encode_nil, Utf8.encode_prefix_encode_iff, List.prefix_nil]

/-- A text begins with a character if that is its first one. -/
theorem isPrefixOf_singleton (c : Char) (x : List Char) :
    [c].isPrefixOf x = (x.head? == some c) := by
  cases x with
  | nil => rfl
  | cons d x =>
    rw [Bool.eq_iff_iff, List.isPrefixOf_iff_prefix, List.cons_prefix_cons, List.head?_cons, beq_iff_eq,
      Option.some_inj]
    exact ⟨fun h => h.1.symm, fun h => ⟨h.symm, List.nil_prefix⟩⟩

/-- **The test on bytes is the test on texts.** -/
theorem matchesBytes_encode (x y : List Char) :
    matchesBytes (Utf8.encode x) (Utf8.encode y) = matchesPrefix x y := by
  have hempty : (Utf8.encode x).isEmpty = x.isEmpty := by
    rw [Bool.eq_iff_iff, List.isEmpty_iff, List.isEmpty_iff, encode_eq_nil_iff]
  rw [matchesBytes, matchesPrefix, isPrefixOf_encode, hempty]
  cases hbegins : x.isPrefixOf y with
  | false => rfl
  | true =>
    obtain ⟨rest, rfl⟩ := List.isPrefixOf_iff_prefix.mp hbegins
    -- what follows the base is empty in bytes exactly if it is empty in characters
    have hlength : ((Utf8.encode x ++ Utf8.encode rest).length == (Utf8.encode x).length) =
        ((x ++ rest).length == x.length) := by
      rw [Bool.eq_iff_iff, beq_iff_eq, beq_iff_eq, List.length_append, List.length_append,
        Nat.add_eq_left, Nat.add_eq_left, List.length_eq_zero_iff, List.length_eq_zero_iff,
        encode_eq_nil_iff]
    rw [Utf8.encode_append, hlength, List.drop_left, List.drop_left, isPrefixOf_encode,
      isPrefixOf_singleton]

/-- **The scan of texts is the scan of keys.** -/
theorem scanTexts_eq_scan (entries : Entries) (base : Key) :
    scanTexts (entries.keys.map Key.toString) base.bytes = entries.scan base := by
  have hbefore : ∀ k : Key, decide (k.bytes < base.bytes) = decide (k < base) := fun k =>
    decide_eq_decide.mpr Key.bytes_lt_bytes_iff
  have hread : Key.ofString ∘ Key.toString = id := funext Key.ofString_toString
  rw [scanTexts, List.dropWhile_map, List.takeWhile_map, List.filter_map, List.map_map, hread,
    List.map_id, scan]
  simp only [Function.comp_def, Key.ofString_toString_bytes, hbefore]
  simp only [Key.bytes, isPrefixOf_encode, matchesBytes_encode]

/-- A scan of the root finds every key. -/
theorem scan_root (entries : Entries) : entries.scan Key.root = entries.keys := by
  rw [scan_eq_filter]
  exact List.filter_eq_self.mpr fun k _ => k.root_contains

end Entries

namespace MemoryStore

/-- **What a store in memory lists.** A listing succeeds and changes nothing. It finds what the scan of
the stored texts by their bytes finds, which is what the hierarchy of keys lets through of all stored
keys: those that the base contains, in strictly ascending order of the bytes of their texts. An entry
at the root is found from the root only, from where every entry is found. Each stored text is read as
the key that it was stored for. -/
theorem list_eq_filter (store : MemoryStore) (base : Key) :
    ∃ listed : List Key, store.apply (.list base) = (.ok listed, store) ∧
      listed = Entries.scanTexts (store.entries.keys.map Key.toString) base.bytes ∧
      listed = store.entries.keys.filter base.contains ∧
      (∀ k, k ∈ listed ↔ (store.entries.find? k).isSome = true ∧ base.contains k = true) ∧
      listed.Pairwise (fun a b => a.bytes < b.bytes) ∧
      (Key.root ∈ listed ↔ base = Key.root ∧ (store.entries.find? Key.root).isSome = true) ∧
      (base = Key.root → listed = store.entries.keys) ∧
      ∀ k ∈ store.entries.keys, Key.ofString k.toString = k := by
  have hsorted := Entries.pairwise_scan store.entries base
  refine ⟨store.entries.scan base, rfl, (Entries.scanTexts_eq_scan ..).symm,
    Entries.scan_eq_filter .., fun k => Entries.mem_scan_iff, ?_, ?_, ?_, ?_⟩
  · exact hsorted.imp Key.bytes_lt_bytes_iff.mpr
  · rw [Entries.mem_scan_iff, Key.contains_root_iff, and_comm]
  · rintro rfl
    exact Entries.scan_root store.entries
  · exact fun k _ => k.ofString_toString

end MemoryStore

end ObjectStore

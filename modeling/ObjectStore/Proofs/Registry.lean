import Mathlib.Data.List.Sort
import ObjectStore.Lock.Proposals
import ObjectStore.Proofs.Listing
import ObjectStore.Proofs.TimestampText

/-! # The registry of a target

The proposals of a target are the immediate children of its proposal root. Tokens name them.

* **`Proposals.parent_key`**, **`Proposals.name_key`** — where a token's proposal stands.
* **`Proposals.key_injective`**, **`Proposals.key_eq_key_iff`** — different tokens, and different
  targets, have different proposals.
* **`Proposals.exists_token`** — every immediate child of the root is some token's proposal.
* **`Proposals.map_key_childNames`** — the keys of the names that are found are the keys listed.
* **`Proposals.registered`** — the names found by listing the root: all tokens with an entry
  (`mem_registered_iff`), in ascending order (`pairwise_registered`).
* **`Proposals.payloadIsActive_encode`** — when the payload of an expiration counts.
* **`Proposals.counts`** — whether the proposal of a name is there and counts. -/

namespace ObjectStore

open Text

namespace Proposals

variable {target k : Key} {t u : Token} {entries : Entries}

/-! ## The keys of proposals -/

/-- Whether a key is that of a proposal of a target: an immediate child of its proposal root. -/
abbrev IsProposal (target k : Key) : Prop := k.parent = some (root target)

/-- Different targets have different proposal roots. -/
theorem root_injective {target' : Key} (h : root target = root target') : target = target' := by
  have hpieces := congrArg (fun k : Key => pieces delimiter k.text) h
  simp only [root, Key.pieces_text_child] at hpieces
  exact Key.ext_pieces (List.append_cancel_right hpieces)

/-- The text of a token is a segment. -/
theorem isSegment_token (t : Token) : IsSegment delimiter t.text.toList := by
  refine ⟨fun hnil => t.nonempty ?_, t.undivided⟩
  exact String.toList_inj.mp (by rw [hnil]; rfl)

@[simp] theorem pieces_key (target : Key) (t : Token) :
    pieces delimiter (key target t.text).text =
      pieces delimiter (root target).text ++ [t.text.toList] := by
  have hsegment := isSegment_token t
  rw [key, Key.pieces_text_child, pieces_eq_singleton hsegment.2 hsegment.1]

@[simp] theorem parent_key (target : Key) (t : Token) :
    (key target t.text).parent = some (root target) :=
  Key.parent_eq_some_iff.mpr ⟨_, pieces_key target t⟩

@[simp] theorem name_key (target : Key) (t : Token) : (key target t.text).name = some t.text := by
  rw [Key.name_eq (pieces_key target t), String.ofList_toList]

/-- Different tokens have different proposals. -/
theorem key_injective (h : key target t.text = key target u.text) : t = u := by
  have hname := name_key target t
  rw [h, name_key, Option.some_inj] at hname
  exact Token.ext hname.symm

/-- **The proposals of different targets or of different tokens have different keys.** -/
theorem key_eq_key_iff {target' : Key} :
    key target t.text = key target' u.text ↔ target = target' ∧ t = u := by
  constructor
  · intro h
    -- the two keys have one parent, which is the root of both targets
    have hroot : root target = root target' := by
      rw [← Option.some_inj, ← parent_key target t, h, parent_key]
    obtain rfl := root_injective hroot
    exact ⟨rfl, key_injective h⟩
  · rintro ⟨rfl, rfl⟩
    rfl

theorem key_ne (h : t ≠ u) : key target t.text ≠ key target u.text :=
  fun hkey => h (key_injective hkey)

/-- Every immediate child of the root is the proposal of a token. -/
theorem exists_token (h : k.parent = some (root target)) : ∃ t : Token, k = key target t.text := by
  obtain ⟨last, hlast⟩ := Key.parent_eq_some_iff.mp h
  have hsegment : IsSegment delimiter last := Key.isSegment_of_mem (k := k) (by rw [hlast]; simp)
  have hnonempty : String.ofList last ≠ "" := by
    intro hnil
    exact hsegment.1 (by simpa using congrArg String.toList hnil)
  -- a segment is a legal token text
  let t : Token := ⟨String.ofList last, hnonempty, by simpa using hsegment.2⟩
  refine ⟨t, Key.ext_pieces ?_⟩
  rw [hlast, pieces_key, String.toList_ofList]

/-! ## The names below a root -/

theorem mem_childNames_iff {base : Key} {keys : List Key} {name : String} :
    name ∈ childNames base keys ↔ ∃ k ∈ keys, k.parent = some base ∧ k.name = some name := by
  simp only [childNames, List.mem_filterMap, List.mem_filter, beq_iff_eq]
  constructor
  · rintro ⟨k, ⟨hk, hparent⟩, hname⟩
    exact ⟨k, hk, hparent, hname⟩
  · rintro ⟨k, hk, hparent, hname⟩
    exact ⟨k, ⟨hk, hparent⟩, hname⟩

/-- The text of an immediate child is a text that depends on its parent only, then its name. -/
theorem text_of_parent {base : Key} {name : String} (hparent : k.parent = some base)
    (hname : k.name = some name) :
    k.text = (if base.isRoot then [] else base.text ++ [delimiter]) ++ name.toList := by
  obtain ⟨last, hlast⟩ := Key.parent_eq_some_iff.mp hparent
  rw [Key.name_eq hlast, Option.some_inj] at hname
  rw [← hname, String.toList_ofList]
  -- below the root no delimiter comes before the name
  by_cases hb : base.isRoot = true
  · rw [if_pos hb, ← k.canonical, hlast, Key.isRoot_iff.mp hb]
    rfl
  · have hb' := Key.isRoot_eq_false_iff.mp (Bool.not_eq_true _ ▸ hb)
    rw [if_neg hb, Key.text_eq_of_pieces hb' (by simp) hlast, joined_singleton, List.append_assoc]
    rfl

/-- What two texts begin with together does not matter to their order. -/
theorem lt_of_append_lt {x y z : List Char} (h : x ++ y < x ++ z) : y < z := by
  induction x with
  | nil => exact h
  | cons c x ih =>
    rw [List.cons_append, List.cons_append, List.cons_lt_cons_iff] at h
    rcases h with h | ⟨-, h⟩
    · exact absurd h (Char.lt_irrefl c)
    · exact ih h

/-- The names of keys in ascending order are in ascending order. -/
theorem pairwise_childNames {base : Key} {keys : List Key} (h : keys.Pairwise (· < ·)) :
    (childNames base keys).Pairwise (· < ·) := by
  refine List.Pairwise.filterMap Key.name ?_ (List.Pairwise.and_mem.mp (h.filter _))
  rintro k l ⟨hk, hl, hlt⟩ name hname other hother
  have hkparent : k.parent = some base := by simpa using (List.mem_filter.mp hk).2
  have hlparent : l.parent = some base := by simpa using (List.mem_filter.mp hl).2
  -- siblings have texts that differ in their names only
  rw [Key.lt_iff, text_of_parent hkparent hname, text_of_parent hlparent hother] at hlt
  exact lt_of_append_lt hlt

/-- The key of an immediate child's name is that child again. -/
theorem map_key_childNames (target : Key) (keys : List Key) :
    (childNames (root target) keys).map (key target) =
      keys.filter fun k => k.parent == some (root target) := by
  induction keys with
  | nil => rfl
  | cons k keys ih =>
    rw [childNames] at ih ⊢
    by_cases hparent : k.parent = some (root target)
    · obtain ⟨t, rfl⟩ := exists_token hparent
      rw [List.filter_cons_of_pos (by simp), List.filterMap_cons_some (name_key target t),
        List.map_cons, ih]
    · rw [List.filter_cons_of_neg (by simpa using hparent), ih]

/-- The names of the proposals of a target that have an entry. -/
def registered (target : Key) (entries : Entries) : List String :=
  childNames (root target) (entries.scan (root target))

/-- A name is registered if it is a token's and the token's proposal has an entry. -/
theorem mem_registered_iff {name : String} : name ∈ registered target entries ↔
    ∃ t : Token, name = t.text ∧ (entries.find? (key target t.text)).isSome = true := by
  rw [registered, mem_childNames_iff]
  constructor
  · rintro ⟨k, hk, hparent, hname⟩
    obtain ⟨t, rfl⟩ := exists_token hparent
    rw [name_key, Option.some_inj] at hname
    exact ⟨t, hname.symm, (Entries.mem_scan_iff.mp hk).1⟩
  · rintro ⟨t, rfl, hsome⟩
    have hbelow := Key.contains_of_parent (parent_key target t)
    exact ⟨key target t.text, Entries.mem_scan_iff.mpr ⟨hsome, hbelow⟩, parent_key target t,
      name_key target t⟩

/-- A token is registered if its proposal has an entry. -/
theorem token_mem_registered_iff : t.text ∈ registered target entries ↔
    (entries.find? (key target t.text)).isSome = true := by
  rw [mem_registered_iff]
  constructor
  · rintro ⟨u, htext, hsome⟩
    rwa [htext]
  · exact fun hsome => ⟨t, rfl, hsome⟩

theorem pairwise_registered (target : Key) (entries : Entries) :
    (registered target entries).Pairwise (· < ·) :=
  pairwise_childNames (Entries.pairwise_scan entries (root target))

/-- What is registered depends on the entries at the immediate children of the root only. -/
theorem registered_congr {others : Entries}
    (h : ∀ k : Key, k.parent = some (root target) → entries.find? k = others.find? k) :
    registered target entries = registered target others := by
  refine List.Pairwise.eq_of_mem_iff (pairwise_registered target entries)
    (pairwise_registered target others) fun name => ?_
  rw [mem_registered_iff, mem_registered_iff]
  refine exists_congr fun t => and_congr_right fun _ => ?_
  rw [h _ (parent_key target t)]

/-! ## The payloads of proposals -/

/-- The payload of an expiration that can be read back counts as the expiration does; any other
counts for ever. -/
theorem payloadIsActive_encode (e : Expiration) (now : Instant) :
    payloadIsActive (Bytes.ofString e.encode) now = true ↔
      e.isActiveAt now = true ∨ ¬ e.IsReadable := by
  by_cases h : e.IsReadable
  · rw [payloadIsActive, Expiration.decode_encode h]
    simp [h]
  · rw [payloadIsActive, Expiration.decode_encode_eq_error h]
    simp [h]

/-- The payload of an expiration of the year 0 or later counts as the expiration does, as long as
the clock shows a year that can be read back. -/
theorem payloadIsActive_encode_eq {e : Expiration} {now : Instant} (he : e.IsOfEra)
    (hnow : now.year ≤ 9999) :
    payloadIsActive (Bytes.ofString e.encode) now = e.isActiveAt now := by
  rw [Bool.eq_iff_iff, payloadIsActive_encode]
  refine ⟨fun h => h.elim id fun hunread => ?_, Or.inl⟩
  cases e with
  | never => rfl
  | «at» i =>
    -- the instant is of a year that the clock has not reached
    have hlate : ¬ i.year ≤ 9999 := fun hle => hunread ⟨he, hle⟩
    exact decide_eq_true (Instant.lt_of_year_lt (by omega))

/-- Whether the proposal of a name is there and counts at an instant. -/
def counts (target : Key) (entries : Entries) (now : Instant) (name : String) : Bool :=
  (entries.find? (key target name)).any fun payload => payloadIsActive payload now

end Proposals

end ObjectStore

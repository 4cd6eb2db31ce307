import ObjectStore.Proofs.Hierarchy
import ObjectStore.Storage.Entries

/-! # Listing by scanning

The scan of a stretch of the sorted keys finds what a look at every key would find.

* **`dropWhile_eq_filter_of_pairwise`**, **`takeWhile_eq_filter_of_pairwise`** — a cut at the first
  failure is a filter where the list is sorted for the test.
* **`Entries.mem_keys_iff`** — the keys are those that have a value.
* **`Entries.scan_eq_filter`** — a scan gives the keys that its base contains. -/

namespace ObjectStore

/-! ## Cuts of sorted lists -/

section Cuts

variable {α : Type} {before : α → α → Prop} {test : α → Bool} {items : List α}

/-- Dropping while a test holds keeps what fails it, if nothing after a failure passes. -/
theorem dropWhile_eq_filter_of_pairwise (h : items.Pairwise before)
    (hdown : ∀ a b, before a b → test b = true → test a = true) :
    items.dropWhile test = items.filter fun a => !test a := by
  induction h with
  | nil => rfl
  | @cons a more hfirst hmore ih =>
    by_cases ha : test a = true
    · rw [List.dropWhile_cons_of_pos ha, ih, List.filter_cons_of_neg (by simp [ha])]
    -- the first failure: everything after it fails as well
    · have hall : ∀ b ∈ a :: more, (!test b) = true := by
        intro b hb
        rcases List.mem_cons.mp hb with rfl | hb
        · simpa using ha
        · simpa using fun hpass => ha (hdown a b (hfirst b hb) hpass)
      rw [List.dropWhile_cons_of_neg ha, List.filter_eq_self.mpr hall]

/-- Taking while a test holds keeps what passes it, if nothing after a failure passes. -/
theorem takeWhile_eq_filter_of_pairwise (h : items.Pairwise before)
    (hdown : ∀ a ∈ items, ∀ b, before a b → test b = true → test a = true) :
    items.takeWhile test = items.filter test := by
  induction h with
  | nil => rfl
  | @cons a more hfirst hmore ih =>
    have hrest := ih fun c hc => hdown c (List.mem_cons_of_mem a hc)
    by_cases ha : test a = true
    · rw [List.takeWhile_cons_of_pos ha, List.filter_cons_of_pos ha, hrest]
    -- the first failure: nothing after it passes
    · have hnone : ∀ b ∈ more, ¬ test b = true := by
        intro b hb hpass
        exact ha (hdown a List.mem_cons_self b (hfirst b hb) hpass)
      rw [List.takeWhile_cons_of_neg ha, List.filter_cons_of_neg ha,
        List.filter_eq_nil_iff.mpr hnone]

end Cuts

/-! ## The order of texts -/

namespace Text

/-- What lies between a text and one that begins with it begins with it too. -/
theorem prefix_of_between {x y z : List Char} (hle : ¬ y < x) (hlt : y < z) (hz : x <+: z) :
    x <+: y := by
  induction x generalizing y z with
  | nil => exact List.nil_prefix
  | cons c x ih =>
    obtain ⟨rest, rfl⟩ := hz
    cases y with
    | nil => exact absurd (List.nil_lt_cons c x) hle
    | cons d y =>
      rw [List.cons_append, List.cons_lt_cons_iff] at hlt
      rw [List.cons_lt_cons_iff, not_or] at hle
      -- a smaller first character would put the text before the one it has to follow
      rcases hlt with hlt | ⟨rfl, hlt⟩
      · exact absurd hlt hle.1
      · have hxy : x <+: y := ih (fun hyx => hle.2 ⟨rfl, hyx⟩) hlt (List.prefix_append x rest)
        exact List.cons_prefix_cons.mpr ⟨rfl, hxy⟩

/-- A text does not come before what it begins with. -/
theorem not_lt_of_prefix {x y : List Char} (h : x <+: y) : ¬ y < x := List.not_lt.mpr h.le

end Text

namespace Entries

variable {entries : Entries} {key base k : Key}

/-! ## The keys of a map -/

theorem mem_map_fst_iff (items : List (Key × Bytes)) :
    key ∈ items.map Prod.fst ↔ (findIn key items).isSome = true := by
  induction items with
  | nil => simp [findIn]
  | cons first more ih =>
    obtain ⟨k, value⟩ := first
    by_cases hk : k = key
    · simp [findIn, hk]
    · simp [findIn, hk, Ne.symm hk, ← ih]

/-- The keys of a map are those that have a value. -/
theorem mem_keys_iff : key ∈ entries.keys ↔ (entries.find? key).isSome = true :=
  mem_map_fst_iff entries.toList

theorem pairwise_keys (entries : Entries) : entries.keys.Pairwise (· < ·) :=
  List.pairwise_map.mpr entries.ascending

/-! ## The scan -/

/-- The test on stored texts decides the hierarchy. -/
theorem matchesPrefix_eq_contains : matchesPrefix base.text k.text = base.contains k := by
  rw [Bool.eq_iff_iff]
  by_cases hb : base.isRoot = true
  · have hnil := Key.isRoot_iff.mp hb
    -- the root contains every key, and the test lets every text pass
    have hempty : base.text.isEmpty = true := hb
    rw [Key.contains_iff, hnil, matchesPrefix, hempty]
    simp
  · have hb' : base.isRoot = false := Bool.not_eq_true _ ▸ hb
    have hempty : base.text.isEmpty = false := hb'
    rw [Key.contains, Bool.or_eq_true, beq_iff_eq, Key.isAncestorOf_iff_text hb', matchesPrefix,
      hempty]
    simp only [Bool.false_or, Bool.and_eq_true, Bool.or_eq_true, List.isPrefixOf_iff_prefix,
      beq_iff_eq]
    constructor
    · rintro ⟨⟨rest, hrest⟩, hlength | hhead⟩
      · rw [← hrest, List.length_append] at hlength
        -- equal lengths leave no room for anything after the base
        have hnil : rest = [] := List.length_eq_zero_iff.mp (by omega)
        rw [hnil, List.append_nil] at hrest
        exact .inl (Key.ext hrest)
      · rw [← hrest, List.drop_left] at hhead
        cases rest with
        | nil => cases hhead
        | cons c rest =>
          cases hhead
          exact .inr ⟨rest, hrest.symm⟩
    · rintro (rfl | ⟨rest, hrest⟩)
      · exact ⟨List.prefix_rfl, .inl rfl⟩
      · rw [hrest, List.drop_left]
        exact ⟨List.prefix_append .., .inr rfl⟩

/-- A key that a base contains has a text that begins with the base's. -/
theorem prefix_of_matchesPrefix {x y : List Char} (h : matchesPrefix x y = true) : x <+: y := by
  rw [matchesPrefix, Bool.or_eq_true, List.isEmpty_iff, Bool.and_eq_true,
    List.isPrefixOf_iff_prefix] at h
  rcases h with rfl | ⟨hbegins, -⟩
  · exact List.nil_prefix
  · exact hbegins

/-- **A scan finds what its base contains.** Starting at the base and stopping at the first key that
does not begin with its text loses nothing. -/
theorem scan_eq_filter (entries : Entries) (base : Key) :
    entries.scan base = entries.keys.filter base.contains := by
  have hsorted := pairwise_keys entries
  have hstart : entries.keys.dropWhile (fun k => decide (k < base)) =
      entries.keys.filter fun k => !decide (k < base) := by
    refine dropWhile_eq_filter_of_pairwise hsorted fun a b hab hb => ?_
    exact decide_eq_true (Key.lt_trans hab (of_decide_eq_true hb))
  rw [scan, hstart, takeWhile_eq_filter_of_pairwise (hsorted.filter _) ?between, List.filter_filter,
    List.filter_filter]
  -- between the base and a key below it there are only keys that begin with the base
  case between =>
    intro a ha b hab hb
    have hle : ¬ a < base := by simpa using (List.mem_filter.mp ha).2
    exact List.isPrefixOf_iff_prefix.mpr
      (Text.prefix_of_between hle hab (List.isPrefixOf_iff_prefix.mp hb))
  refine List.filter_congr fun k _ => ?_
  rw [matchesPrefix_eq_contains, Bool.eq_iff_iff, Bool.and_eq_true, Bool.and_eq_true]
  constructor
  · exact fun h => h.1.1
  · intro h
    have hbegins : base.text <+: k.text := prefix_of_matchesPrefix (matchesPrefix_eq_contains ▸ h)
    have hle : ¬ k < base := Text.not_lt_of_prefix hbegins
    exact ⟨⟨h, List.isPrefixOf_iff_prefix.mpr hbegins⟩, by simpa using hle⟩

theorem mem_scan_iff :
    k ∈ entries.scan base ↔ (entries.find? k).isSome = true ∧ base.contains k = true := by
  rw [scan_eq_filter, List.mem_filter, mem_keys_iff]

theorem pairwise_scan (entries : Entries) (base : Key) : (entries.scan base).Pairwise (· < ·) := by
  rw [scan_eq_filter]
  exact (pairwise_keys entries).filter _

end Entries

end ObjectStore

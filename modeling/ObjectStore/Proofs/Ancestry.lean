import Mathlib.Data.List.Infix
import Mathlib.Tactic.TFAE
import ObjectStore.Proofs.Segments

/-! # The tree of keys

Three tests on texts speak of the same tree: whether one text goes on after another one with a
delimiter, what comes before the last delimiter of a text, and how a text is cut into segments.

* **`Key.isAncestorOf_iff_segments`**, **`Key.isAncestorOf_iff_join`** — a key lies below another one
  if its segments go on after the other one's.
* **`Key.segments_eq_concat_iff`** — parent and name split off the last segment.
* **`Key.exists_parent_iff`** — every key but the root is the child of its parent by its name.
* **`Key.mem_ancestors_iff`**, **`Key.length_ancestors`** — the chain of parents of a key.
* **`Key.ancestry_agrees`** — the tests agree, and containment is the order of a tree. -/

namespace ObjectStore.Key

open Text

variable {a b c k p : Key}

/-! ## Containment -/

/-- A key contains another one if its segments are the first of the other one. -/
theorem contains_iff_segments : a.contains b = true ↔ a.segments <+: b.segments := by
  rw [contains_iff, segments, segments,
    List.prefix_map_iff_of_injective fun _ _ => String.ofList_injective]

theorem contains_self (k : Key) : k.contains k = true := contains_iff_segments.mpr List.prefix_rfl

theorem contains_antisymm (hab : a.contains b = true) (hba : b.contains a = true) : a = b := by
  rw [contains_iff_segments] at hab hba
  exact segments_inj.mp (hab.eq_of_length_le hba.length_le)

/-- A key lies strictly below the keys that contain it and are not the key itself. -/
theorem isAncestorOf_iff_contains : a.isAncestorOf b = true ↔ a.contains b = true ∧ a ≠ b := by
  rw [contains, Bool.or_eq_true, beq_iff_eq]
  refine ⟨fun h => ⟨.inr h, ?_⟩, fun h => h.1.resolve_left h.2⟩
  rintro rfl
  obtain ⟨more, hmore, heq⟩ := isAncestorOf_iff.mp h
  exact hmore (List.self_eq_append_right.mp heq)

/-- **A key lies strictly below another one** if its segments go on after the other one's. -/
theorem isAncestorOf_iff_segments : a.isAncestorOf b = true ↔
    a.segments <+: b.segments ∧ a.segments ≠ b.segments := by
  rw [isAncestorOf_iff_contains, contains_iff_segments, ne_eq, ne_eq, segments_inj]

/-- A key lies strictly below another one if something other than the root is joined to that one. -/
theorem isAncestorOf_iff_join : a.isAncestorOf b = true ↔ ∃ c, c ≠ root ∧ b = a.join c := by
  rw [isAncestorOf_iff_contains, contains_iff_segments]
  constructor
  · rintro ⟨⟨more, hmore⟩, hne⟩
    -- what goes on after segments are segments
    have hsegments : ∀ s ∈ more, s ≠ "" ∧ delimiter ∉ s.toList := fun s hs =>
      ne_empty_of_mem_segments (hmore ▸ List.mem_append_right a.segments hs)
    obtain ⟨c, rfl⟩ := exists_segments_eq_iff.mpr hsegments
    have hjoin : b = a.join c := segments_inj.mp (by rw [segments_join, hmore])
    refine ⟨c, ?_, hjoin⟩
    rintro rfl
    exact hne (segments_inj.mp (by rw [hjoin, segments_join, segments_root, List.append_nil]))
  · rintro ⟨c, hroot, rfl⟩
    rw [segments_join]
    refine ⟨List.prefix_append .., fun heq => hroot (segments_inj.mp ?_)⟩
    rw [← segments_inj, segments_join] at heq
    exact List.self_eq_append_right.mp heq

/-! ## The parent -/

/-- The segments of the parent are all but the last. -/
theorem exists_segments_of_parent (h : k.parent = some p) :
    ∃ last, k.segments = p.segments ++ [last] := by
  obtain ⟨last, hlast⟩ := parent_eq_some_iff.mp h
  exact ⟨String.ofList last, by rw [segments, hlast, List.map_append, List.map_singleton, segments]⟩

/-- **Parent and name split off the last segment.** -/
theorem segments_eq_concat_iff {s : String} :
    k.segments = p.segments ++ [s] ↔ k.parent = some p ∧ k.name = some s := by
  constructor
  · intro h
    have hpieces : pieces delimiter k.text = pieces delimiter p.text ++ [s.toList] := by
      refine List.map_injective_iff.mpr (fun _ _ => String.ofList_injective) ?_
      rw [List.map_append, List.map_singleton, String.ofList_toList]
      exact h
    refine ⟨parent_eq_some_iff.mpr ⟨_, hpieces⟩, ?_⟩
    rw [name_eq hpieces, String.ofList_toList]
  · rintro ⟨hparent, hname⟩
    obtain ⟨last, hlast⟩ := parent_eq_some_iff.mp hparent
    rw [name_eq hlast, Option.some_inj] at hname
    rw [segments, hlast, List.map_append, List.map_singleton, hname, segments]

theorem parent_eq_none_iff : k.parent = none ↔ k = root := by
  constructor
  · intro h
    rcases List.eq_nil_or_concat (pieces delimiter k.text) with hnil | ⟨init, last, hlast⟩
    · exact ext_pieces hnil
    · rw [List.concat_eq_append] at hlast
      obtain ⟨p, hp, -⟩ := parent_of_pieces hlast
      cases h.symm.trans hp
  · rintro rfl
    rfl

/-- **Every key but the root is the child of its parent by its name.** -/
theorem exists_parent_iff : k ≠ root ↔
    ∃ above name, k.parent = some above ∧ k.name = some name ∧ k = above.child name := by
  constructor
  · intro h
    obtain ⟨above, habove⟩ := Option.ne_none_iff_exists'.mp (mt parent_eq_none_iff.mp h)
    obtain ⟨last, hlast⟩ := parent_eq_some_iff.mp habove
    have hsegment : IsSegment delimiter last := isSegment_of_mem (k := k) (by rw [hlast]; simp)
    refine ⟨above, String.ofList last, habove, name_eq hlast, ext_pieces ?_⟩
    rw [pieces_text_child, String.toList_ofList, pieces_eq_singleton hsegment.2 hsegment.1, hlast]
  · rintro ⟨above, name, habove, -, -⟩ rfl
    cases habove

/-- What lies strictly above a key is its parent or lies above that. -/
theorem isAncestorOf_iff_of_parent (h : k.parent = some p) :
    a.isAncestorOf k = true ↔ a = p ∨ a.isAncestorOf p = true := by
  obtain ⟨last, hlast⟩ := exists_segments_of_parent h
  have hcontains : a.isAncestorOf k = true ↔ a.contains p = true := by
    rw [isAncestorOf_iff_segments, contains_iff_segments, hlast, List.prefix_concat_iff]
    constructor
    · exact fun hbelow => hbelow.1.resolve_left hbelow.2
    · intro hbelow
      refine ⟨.inr hbelow, fun heq => ?_⟩
      -- more segments than the parent has are not the first of the parent
      have hlength := hbelow.length_le
      rw [heq, List.length_append, List.length_singleton] at hlength
      omega
  rw [hcontains, contains, Bool.or_eq_true, beq_iff_eq]

/-! ## The chain of parents -/

/-- **The keys in the chain of parents are those strictly above.** -/
theorem mem_ancestors_iff : a ∈ k.ancestors ↔ a.isAncestorOf k = true := by
  fun_induction ancestors k with
  | case1 k hnone =>
    obtain rfl := parent_eq_none_iff.mp hnone
    rw [isAncestorOf_iff_segments, segments_root, List.prefix_nil]
    simp
  | case2 k above habove ih => rw [List.mem_cons, ih, isAncestorOf_iff_of_parent habove]

/-- The chain of parents has as many steps as the key has segments. -/
theorem length_ancestors (k : Key) : k.ancestors.length = k.segments.length := by
  fun_induction ancestors k with
  | case1 k hnone => rw [parent_eq_none_iff.mp hnone, segments_root, List.length_nil, List.length_nil]
  | case2 k above habove ih =>
    obtain ⟨last, hlast⟩ := exists_segments_of_parent habove
    rw [List.length_cons, ih, hlast, List.length_append, List.length_singleton]

/-- Every step of the chain is one from a key to its parent. -/
theorem isChain_ancestors (k : Key) :
    (k :: k.ancestors).IsChain fun below above => below.parent = some above := by
  fun_induction ancestors k with
  | case1 k hnone => exact .singleton k
  | case2 k above habove ih => exact ih.cons_cons habove

/-- The chain of parents ends in the root. -/
theorem getLast?_ancestors (k : Key) : (k :: k.ancestors).getLast? = some root := by
  fun_induction ancestors k with
  | case1 k hnone => rw [parent_eq_none_iff.mp hnone, List.getLast?_singleton]
  | case2 k above habove ih => rw [List.getLast?_cons_cons, ih]

/-! ## The tree -/

/-- **The tests of the hierarchy agree.** It is the same whether the text of a key goes on after that
of another one with a delimiter, whether its segments go on after the other one's, whether the other
one is met when parents of parents are taken, and whether something other than the root is joined to
the other one. The chain of parents of a key goes on until it comes to the root, which has no parent,
and has as many steps as the key has segments. A key that is not the root has a parent, which is read
back from its own text, and is the child of it by its name. To contain is a partial order with the
root as its least element, in which the keys that contain a given one form a chain. -/
theorem ancestry_agrees (a b c : Key) :
    [a.isAncestorOf b = true,
      a.segments <+: b.segments ∧ a.segments ≠ b.segments,
      a ∈ b.ancestors,
      ∃ rest, rest ≠ root ∧ b = a.join rest].TFAE ∧
    (b :: b.ancestors).IsChain (fun below above => below.parent = some above) ∧
    (b :: b.ancestors).getLast? = some root ∧ root.parent = none ∧
    b.ancestors.length = b.segments.length ∧
    (b ≠ root ↔ ∃ above name, b.parent = some above ∧ b.name = some name ∧
      ofString above.toString = above ∧ b = above.child name) ∧
    root.contains a = true ∧ a.contains a = true ∧
    (a.contains b = true ∧ b.contains a = true ↔ a = b) ∧
    (a.contains b = true ∧ b.contains c = true → a.contains c = true) ∧
    (a.contains c = true ∧ b.contains c = true → a.contains b = true ∨ b.contains a = true) := by
  refine ⟨?_, isChain_ancestors b, getLast?_ancestors b, rfl, length_ancestors b, ?_,
    root_contains a, contains_self a, ⟨?_, ?_⟩, ?_, ?_⟩
  · tfae_have 1 ↔ 2 := isAncestorOf_iff_segments
    tfae_have 1 ↔ 3 := mem_ancestors_iff.symm
    tfae_have 1 ↔ 4 := isAncestorOf_iff_join
    tfae_finish
  · simp only [ofString_toString, true_and]
    exact exists_parent_iff
  · exact fun h => contains_antisymm h.1 h.2
  · rintro rfl
    exact ⟨contains_self a, contains_self a⟩
  · exact fun h => contains_trans h.1 h.2
  · exact fun h => contains_or_contains h.1 h.2

end ObjectStore.Key

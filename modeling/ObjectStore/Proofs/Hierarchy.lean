import ObjectStore.Key

/-! # The hierarchy of keys, by their segments

The tests on canonical texts say what they should about the pieces of the texts.

* **`Text.joined_append`** — joining two non-empty lists of pieces.
* **`Key.isAncestorOf_iff`**, **`Key.contains_iff`** — the ancestor tests compare lists of pieces.
* **`Key.contains_or_contains`** — two subtrees with a key in common lie one inside the other.
* **`Key.parent_eq_some_iff`**, **`Key.name_eq`** — parent and name split off the last piece. -/

namespace ObjectStore

open Text

namespace Text

variable {mark : Char}

/-- Joining two non-empty lists of pieces puts one mark between the two texts. -/
theorem joined_append {front back : List (List Char)} (hf : front ≠ []) (hb : back ≠ []) :
    joined mark (front ++ back) = joined mark front ++ mark :: joined mark back := by
  induction front with
  | nil => exact absurd rfl hf
  | cons piece more ih =>
    by_cases hm : more = []
    · rw [hm, List.singleton_append, joined_cons hb, joined_singleton]
    · have hmb : more ++ back ≠ [] := by simp [hm]
      rw [List.cons_append, joined_cons hmb, ih hm, joined_cons hm]
      simp

/-- Segments joined give the empty text only if there are none. -/
theorem joined_eq_nil_iff {segments : List (List Char)} (h : ∀ s ∈ segments, IsSegment mark s) :
    joined mark segments = [] ↔ segments = [] := by
  constructor
  · intro hnil
    -- cutting the empty text gives no pieces, and joining is undone by cutting
    have hpieces := pieces_joined h
    rw [hnil, pieces_nil] at hpieces
    exact hpieces.symm
  · rintro rfl
    rfl

end Text

namespace Key

variable {a b c k p : Key}

/-- The pieces of a key's text are segments. -/
theorem isSegment_of_mem {s : List Char} (h : s ∈ pieces delimiter k.text) :
    IsSegment delimiter s :=
  isSegment_of_mem_pieces h

theorem isRoot_iff : k.isRoot = true ↔ pieces delimiter k.text = [] := by
  have hsegments : ∀ s ∈ pieces delimiter k.text, IsSegment delimiter s :=
    fun s hs => isSegment_of_mem hs
  rw [← joined_eq_nil_iff hsegments, k.canonical, isRoot, List.isEmpty_iff]

theorem isRoot_eq_false_iff : k.isRoot = false ↔ pieces delimiter k.text ≠ [] := by
  rw [← Bool.not_eq_true, isRoot_iff]

/-- A text that goes on after the text of a key with a delimiter has the key's pieces first. -/
theorem pieces_of_text_eq {rest : List Char} (h : b.text = a.text ++ delimiter :: rest) :
    pieces delimiter b.text = pieces delimiter a.text ++ pieces delimiter rest := by
  rw [h, pieces_append]

/-- The text of a key below another one begins with that one's text and a delimiter. -/
theorem text_eq_of_pieces {more : List (List Char)} (ha : pieces delimiter a.text ≠ [])
    (hm : more ≠ []) (h : pieces delimiter b.text = pieces delimiter a.text ++ more) :
    b.text = a.text ++ delimiter :: joined delimiter more := by
  rw [← b.canonical, h, joined_append ha hm, a.canonical]

/-- The test below a key that is not the root: the text goes on after the key's text with a
delimiter. -/
theorem isAncestorOf_iff_text (ha : a.isRoot = false) :
    a.isAncestorOf b = true ↔ ∃ rest, b.text = a.text ++ delimiter :: rest := by
  rw [isAncestorOf, ha]
  simp only [Bool.false_eq_true, if_false, Bool.and_eq_true, decide_eq_true_eq, beq_iff_eq,
    List.isPrefixOf_iff_prefix]
  constructor
  · rintro ⟨⟨-, rest, hrest⟩, hhead⟩
    rw [← hrest, List.drop_left] at hhead
    cases rest with
    | nil => cases hhead
    | cons c rest =>
      cases hhead
      exact ⟨rest, hrest.symm⟩
  · rintro ⟨rest, hrest⟩
    refine ⟨⟨?_, ?_⟩, ?_⟩
    · rw [hrest]; simp
    · rw [hrest]; exact List.prefix_append ..
    · rw [hrest, List.drop_left]; rfl

/-- **A key lies strictly below another one** if its pieces are those of the other one and more. -/
theorem isAncestorOf_iff : a.isAncestorOf b = true ↔
    ∃ more, more ≠ [] ∧ pieces delimiter b.text = pieces delimiter a.text ++ more := by
  by_cases ha : a.isRoot = true
  -- everything but the root itself is below the root
  · have hnil := isRoot_iff.mp ha
    simp only [isAncestorOf, ha, if_true, hnil, List.nil_append, Bool.not_eq_true',
      isRoot_eq_false_iff]
    exact ⟨fun hb => ⟨_, hb, rfl⟩, fun ⟨more, hm, heq⟩ => heq ▸ hm⟩
  · have ha' : a.isRoot = false := Bool.not_eq_true _ ▸ ha
    rw [isAncestorOf_iff_text ha']
    constructor
    · rintro ⟨rest, hrest⟩
      refine ⟨pieces delimiter rest, ?_, pieces_of_text_eq hrest⟩
      intro hnil
      -- without further pieces the two canonical texts would be equal
      have hsame : b = a := ext_pieces (by rw [pieces_of_text_eq hrest, hnil, List.append_nil])
      rw [hsame] at hrest
      simpa using congrArg List.length hrest
    · rintro ⟨more, hm, heq⟩
      exact ⟨_, text_eq_of_pieces (isRoot_eq_false_iff.mp ha') hm heq⟩

/-- **A key contains another one** if its pieces are the first of the other one. -/
theorem contains_iff : a.contains b = true ↔
    pieces delimiter a.text <+: pieces delimiter b.text := by
  rw [contains, Bool.or_eq_true, beq_iff_eq, isAncestorOf_iff]
  constructor
  · rintro (rfl | ⟨more, -, heq⟩)
    · exact List.prefix_rfl
    · rw [heq]; exact List.prefix_append ..
  · rintro ⟨more, heq⟩
    by_cases hm : more = []
    · rw [hm, List.append_nil] at heq
      exact .inl (ext_pieces heq)
    · exact .inr ⟨more, hm, heq.symm⟩

/-- The root contains every key. -/
theorem root_contains (k : Key) : root.contains k = true := by
  rw [contains_iff, pieces_text_root]
  exact List.nil_prefix

/-- A subtree of a subtree is a subtree. -/
theorem contains_trans (hab : a.contains b = true) (hbc : b.contains c = true) :
    a.contains c = true := by
  rw [contains_iff] at *
  exact hab.trans hbc

/-- Two subtrees with a key in common lie one inside the other. -/
theorem contains_or_contains (ha : a.contains k = true) (hb : b.contains k = true) :
    a.contains b = true ∨ b.contains a = true := by
  rw [contains_iff] at ha hb
  rw [contains_iff, contains_iff]
  exact List.prefix_or_prefix_of_prefix ha hb

/-! ## Parent and name -/

/-- The parent of a key with pieces `init` and `last` has the pieces `init`. -/
theorem parent_of_pieces {init : List (List Char)} {last : List Char}
    (h : pieces delimiter k.text = init ++ [last]) :
    ∃ p, k.parent = some p ∧ pieces delimiter p.text = init := by
  have hsegments : ∀ s ∈ init ++ [last], IsSegment delimiter s := fun s hs =>
    isSegment_of_mem (h ▸ hs)
  have hroot : k.isRoot = false := isRoot_eq_false_iff.mpr (by rw [h]; simp)
  have hfree : delimiter ∉ last := (hsegments last (by simp)).2
  have htext : k.text = joined delimiter (init ++ [last]) := by rw [← h, k.canonical]
  unfold parent
  rw [hroot]
  -- without a delimiter in the text the parent is the root
  by_cases hi : init = []
  · have hsplit : splitLast delimiter k.text = none := by
      rw [htext, hi]; exact splitLast_eq_none hfree
    refine ⟨root, ?_, by rw [hi]; rfl⟩
    split
    · contradiction
    · split
      · next hs => rw [hsplit] at hs; cases hs
      · rfl
  · have hsplit : splitLast delimiter k.text = some (joined delimiter init, last) := by
      rw [htext, joined_concat hi, splitLast_append hfree]
    have hinit := pieces_joined fun s hs => hsegments s (List.mem_append_left _ hs)
    split
    · contradiction
    · split
      · next front back hs =>
        rw [hsplit] at hs
        cases hs
        exact ⟨_, rfl, hinit⟩
      · next hs => rw [hsplit] at hs; cases hs

/-- The name of a key is its last piece. -/
theorem name_eq {init : List (List Char)} {last : List Char}
    (h : pieces delimiter k.text = init ++ [last]) : k.name = some (String.ofList last) := by
  have hsegment : IsSegment delimiter last := isSegment_of_mem (k := k) (by rw [h]; simp)
  have hroot : k.isRoot = false := isRoot_eq_false_iff.mpr (by rw [h]; simp)
  have htext : k.text = joined delimiter (init ++ [last]) := by rw [← h, k.canonical]
  rw [name, hroot]
  by_cases hi : init = []
  · rw [hi, List.nil_append, joined_singleton] at htext
    rw [htext, splitLast_eq_none hsegment.2, toString, htext]
    rfl
  · rw [htext, joined_concat hi, splitLast_append hsegment.2]
    rfl

/-- **The parent has all pieces but the last.** -/
theorem parent_eq_some_iff : k.parent = some p ↔
    ∃ last, pieces delimiter k.text = pieces delimiter p.text ++ [last] := by
  constructor
  · intro h
    -- the root has no pieces and no parent
    rcases List.eq_nil_or_concat (pieces delimiter k.text) with hnil | ⟨init, last, hlast⟩
    · rw [parent, isRoot_iff.mpr hnil] at h
      cases h
    · rw [List.concat_eq_append] at hlast
      obtain ⟨q, hq, hpieces⟩ := parent_of_pieces hlast
      rw [hq] at h
      cases h
      exact ⟨last, by rw [hpieces, hlast]⟩
  · rintro ⟨last, hlast⟩
    obtain ⟨q, hq, hpieces⟩ := parent_of_pieces hlast
    rw [hq, ext_pieces hpieces]

/-- A key lies below its parent. -/
theorem contains_of_parent (h : k.parent = some p) : p.contains k = true := by
  obtain ⟨last, hlast⟩ := parent_eq_some_iff.mp h
  rw [contains_iff, hlast]
  exact List.prefix_append ..

end Key

end ObjectStore

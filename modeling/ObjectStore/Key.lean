import ObjectStore.Text.Pieces

/-! # Hierarchical keys

A key names one entry of a store. It is a list of non-empty segments, held as its **canonical text**:
the segments joined by a slash, with no slash at either end and none doubled. The root key has no
segment and the empty text.

* **`Key`** — a canonical text.
* **`Key.ofString`**, **`Key.ofSegments`** — the key of any text, of any list of texts.
* **`Key.parent`**, **`Key.name`** — the text before and after the last slash.
* **`Key.isAncestorOf`**, **`Key.contains`** — the hierarchy, decided on the canonical texts.

Keys are ordered by their canonical text, character by character, which is also the order of the
UTF-8 bytes. -/

namespace ObjectStore

open Text

/-- The character between two segments. -/
def delimiter : Char := '/'

/-! ## Keys -/

/-- A hierarchical key, held as its canonical text. -/
structure Key where
  /-- The segments joined by the delimiter. -/
  text : List Char
  /-- Cutting the text and joining the pieces gives the text back. -/
  canonical : joined delimiter (pieces delimiter text) = text
  deriving DecidableEq

namespace Key

@[ext] theorem ext {a b : Key} (h : a.text = b.text) : a = b := by
  cases a; cases b; cases h; rfl

/-- The key with the given segments. -/
def ofPieces (segments : List (List Char)) (h : ∀ s ∈ segments, IsSegment delimiter s) : Key :=
  ⟨joined delimiter segments, by rw [pieces_joined h]⟩

/-- The key made of all the non-empty pieces of some texts, in order. -/
def ofTexts (texts : List (List Char)) : Key :=
  ofPieces (texts.flatMap (pieces delimiter)) fun _ h =>
    let ⟨_, _, h⟩ := List.mem_flatMap.1 h
    isSegment_of_mem_pieces h

/-- The key made of all the segments in some strings: a string with a delimiter inside contributes
several segments, an empty one none. -/
def ofSegments (segments : List String) : Key := ofTexts (segments.map String.toList)

/-- The key of a delimited path. Empty segments are dropped. -/
def ofString (path : String) : Key := ofTexts [path.toList]

/-- The key without segments, ancestor of every other key. -/
def root : Key := ofTexts []

/-- The canonical text as a string. -/
def toString (k : Key) : String := String.ofList k.text

instance : ToString Key := ⟨Key.toString⟩

instance : Repr Key := ⟨fun k _ => repr k.toString⟩

instance : Inhabited Key := ⟨root⟩

/-- The segments, in order. -/
def segments (k : Key) : List String := (pieces delimiter k.text).map String.ofList

/-- Whether the key has no segment. -/
def isRoot (k : Key) : Bool := k.text.isEmpty

/-- Append the segments of a path. -/
def child (k : Key) (path : String) : Key := ofTexts [k.text, path.toList]

/-- Append every segment of another key. -/
def join (a b : Key) : Key := ofTexts [a.text, b.text]

@[simp] theorem pieces_text_ofPieces (segments : List (List Char))
    (h : ∀ s ∈ segments, IsSegment delimiter s) :
    pieces delimiter (ofPieces segments h).text = segments :=
  pieces_joined h

@[simp] theorem pieces_text_ofTexts (texts : List (List Char)) :
    pieces delimiter (ofTexts texts).text = texts.flatMap (pieces delimiter) :=
  pieces_text_ofPieces ..

/-- A key is determined by its pieces. -/
theorem ext_pieces {a b : Key} (h : pieces delimiter a.text = pieces delimiter b.text) : a = b :=
  Key.ext (by rw [← a.canonical, ← b.canonical, h])

@[simp] theorem pieces_text_root : pieces delimiter root.text = [] := rfl

@[simp] theorem pieces_text_ofString (path : String) :
    pieces delimiter (ofString path).text = pieces delimiter path.toList := by
  simp [ofString]

@[simp] theorem pieces_text_child (k : Key) (path : String) :
    pieces delimiter (k.child path).text =
      pieces delimiter k.text ++ pieces delimiter path.toList := by
  simp [child]

@[simp] theorem pieces_text_join (a b : Key) :
    pieces delimiter (a.join b).text = pieces delimiter a.text ++ pieces delimiter b.text := by
  simp [join]

/-- Reading the canonical text of a key gives the key back. -/
@[simp] theorem ofString_toString (k : Key) : ofString k.toString = k :=
  ext_pieces (by simp [toString])

/-- A canonical text ends before its last delimiter in a canonical text. -/
theorem canonical_front (k : Key) {front back : List Char}
    (h : splitLast delimiter k.text = some (front, back)) : joined delimiter (pieces delimiter front) = front := by
  have hseg : ∀ s ∈ pieces delimiter k.text, IsSegment delimiter s := fun s => isSegment_of_mem_pieces
  rcases List.eq_nil_or_concat (pieces delimiter k.text) with hnil | ⟨init, last, hlast⟩
  · rw [← k.canonical, hnil] at h
    exact nomatch h
  · rw [List.concat_eq_append] at hlast
    rw [hlast] at hseg
    have hfree : delimiter ∉ last := (hseg last (by simp)).2
    rw [← k.canonical, hlast] at h
    by_cases hi : init = []
    · rw [hi] at h
      simp [splitLast_eq_none hfree] at h
    · rw [joined_concat hi, splitLast_append hfree] at h
      cases h
      rw [pieces_joined fun s hs => hseg s (by simp [hs])]

/-- The key without its last segment. The root has none. -/
def parent (k : Key) : Option Key :=
  if k.isRoot then none
  else
    match h : splitLast delimiter k.text with
    | some (front, _) => some ⟨front, k.canonical_front h⟩
    | none => some root

/-- The last segment. The root has none. -/
def name (k : Key) : Option String :=
  if k.isRoot then none
  else
    match splitLast delimiter k.text with
    | some (_, back) => some (String.ofList back)
    | none => some k.toString

/-- Whether the second key lies strictly below the first: its text is longer, begins with the text
of the first and goes on with a delimiter, so that siblings sharing a text are told apart. -/
def isAncestorOf (a b : Key) : Bool :=
  if a.isRoot then !b.isRoot
  else
    decide (a.text.length < b.text.length) && a.text.isPrefixOf b.text &&
      (b.text.drop a.text.length).head? == some delimiter

/-- Whether the second key equals the first or lies below it. -/
def contains (a b : Key) : Bool := a == b || a.isAncestorOf b

theorem length_parent_lt {k above : Key} (h : k.parent = some above) :
    above.text.length < k.text.length := by
  unfold parent at h
  split at h
  · exact nomatch h
  · next hroot =>
    split at h
    · next hs => cases h; exact length_front_lt hs
    · cases h
      exact List.length_pos_iff.2 fun hnil => hroot (by simp [isRoot, hnil])

/-- The keys above a key, from its parent up to the root. -/
def ancestors (k : Key) : List Key :=
  match _h : k.parent with
  | none => []
  | some above => above :: ancestors above
termination_by k.text.length
decreasing_by exact length_parent_lt (by assumption)

/-! ### Order -/

/-- Keys are ordered by their canonical texts. -/
instance : LT Key := ⟨fun a b => a.text < b.text⟩

instance : LE Key := ⟨fun a b => ¬ b < a⟩

theorem lt_iff {a b : Key} : a < b ↔ a.text < b.text := Iff.rfl

theorem le_iff {a b : Key} : a ≤ b ↔ ¬ b < a := Iff.rfl

instance (a b : Key) : Decidable (a < b) := inferInstanceAs (Decidable (a.text < b.text))

instance (a b : Key) : Decidable (a ≤ b) := inferInstanceAs (Decidable (¬ b < a))

theorem lt_trans {a b c : Key} (hab : a < b) (hbc : b < c) : a < c := List.lt_trans hab hbc

theorem lt_irrefl (a : Key) : ¬ a < a := List.lt_irrefl a.text

theorem lt_of_not_lt {a b : Key} (h : ¬ a < b) (hne : a ≠ b) : b < a := by
  rcases List.le_iff_lt_or_eq.1 (List.not_lt.1 h) with hlt | heq
  · exact hlt
  · exact absurd (Key.ext heq.symm) hne

instance : Ord Key := ⟨fun a b => compareOfLessAndEq a b⟩

/-- Keys in ascending order, equal ones all kept. -/
def sorted (keys : List Key) : List Key := keys.mergeSort fun a b => decide (a ≤ b)

end Key

end ObjectStore

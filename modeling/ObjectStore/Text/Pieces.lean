/-! # Texts in pieces

A text with marks in it is a list of pieces.

* **`cut`** — all the pieces of a text between marks.
* **`pieces`** — those of them that are not empty.
* **`joined`** — pieces joined again, one mark between two neighbours.
* **`splitLast`** — a text before and after its last mark.

Cutting undoes joining (`pieces_joined`) as long as each piece is a **segment**: not empty, and free
of the mark. -/

namespace ObjectStore.Text

variable {mark : Char}

/-- All the pieces of a text between marks, the empty ones included. -/
def cut (mark : Char) : List Char → List (List Char)
  | [] => [[]]
  | c :: text =>
    if c = mark then [] :: cut mark text
    else
      match cut mark text with
      | [] => [[c]]
      | piece :: more => (c :: piece) :: more

/-- The non-empty pieces of a text between marks. -/
def pieces (mark : Char) (text : List Char) : List (List Char) :=
  (cut mark text).filter (!·.isEmpty)

/-- Join pieces, one mark between two neighbours. -/
def joined (mark : Char) : List (List Char) → List Char
  | [] => []
  | [piece] => piece
  | piece :: more => piece ++ mark :: joined mark more

@[simp] theorem joined_nil : joined mark [] = [] := rfl

@[simp] theorem joined_singleton (piece : List Char) : joined mark [piece] = piece := rfl

theorem joined_cons {piece : List Char} {more : List (List Char)} (h : more ≠ []) :
    joined mark (piece :: more) = piece ++ mark :: joined mark more := by
  cases more with
  | nil => exact absurd rfl h
  | cons next more => rfl

theorem cut_ne_nil (text : List Char) : cut mark text ≠ [] := by
  cases text with
  | nil => simp [cut]
  | cons c text =>
    simp only [cut]
    split
    · simp
    · split <;> simp

/-- A text without mark is one piece. -/
theorem cut_eq_singleton {text : List Char} (h : mark ∉ text) : cut mark text = [text] := by
  induction text with
  | nil => rfl
  | cons c text ih =>
    simp only [List.mem_cons, not_or] at h
    simp [cut, ih h.2, Ne.symm h.1]

/-- Cutting at a given mark cuts both sides. -/
theorem cut_append (text more : List Char) :
    cut mark (text ++ mark :: more) = cut mark text ++ cut mark more := by
  induction text with
  | nil => simp [cut]
  | cons c text ih =>
    by_cases h : c = mark
    · simp [cut, h, ih]
    · simp only [List.cons_append, cut, h, if_false, ih]
      match hc : cut mark text with
      | [] => exact absurd hc (cut_ne_nil text)
      | piece :: rest => simp

theorem pieces_append (text more : List Char) :
    pieces mark (text ++ mark :: more) = pieces mark text ++ pieces mark more := by
  simp [pieces, cut_append]

@[simp] theorem pieces_nil : pieces mark [] = [] := rfl

/-- A non-empty text without mark is its own only piece. -/
theorem pieces_eq_singleton {text : List Char} (h : mark ∉ text) (hne : text ≠ []) :
    pieces mark text = [text] := by
  simp [pieces, cut_eq_singleton h, hne]

theorem notMem_of_mem_cut {text piece : List Char} (h : piece ∈ cut mark text) :
    mark ∉ piece := by
  induction text generalizing piece with
  | nil => simp_all [cut]
  | cons c text ih =>
    simp only [cut] at h
    split at h
    · rcases List.mem_cons.1 h with rfl | h
      · simp
      · exact ih h
    · next hc =>
      match hcut : cut mark text with
      | [] => exact absurd hcut (cut_ne_nil text)
      | first :: rest =>
        rw [hcut] at h ih
        rcases List.mem_cons.1 h with rfl | h
        · simp [Ne.symm hc, ih (List.mem_cons_self)]
        · exact ih (List.mem_cons_of_mem _ h)

/-- A segment is what can stand between two marks: not empty and free of marks. -/
def IsSegment (mark : Char) (piece : List Char) : Prop := piece ≠ [] ∧ mark ∉ piece

theorem isSegment_of_mem_pieces {text piece : List Char} (h : piece ∈ pieces mark text) :
    IsSegment mark piece := by
  simp only [pieces, List.mem_filter] at h
  exact ⟨by simpa using h.2, notMem_of_mem_cut h.1⟩

/-- Cutting undoes joining. -/
theorem pieces_joined {segments : List (List Char)} (h : ∀ s ∈ segments, IsSegment mark s) :
    pieces mark (joined mark segments) = segments := by
  induction segments with
  | nil => rfl
  | cons segment more ih =>
    obtain ⟨hne, hfree⟩ := h segment List.mem_cons_self
    by_cases hm : more = []
    · simp [hm, pieces_eq_singleton hfree hne]
    · rw [joined_cons hm, pieces_append, pieces_eq_singleton hfree hne,
        ih fun s hs => h s (List.mem_cons_of_mem _ hs)]
      rfl

theorem joined_concat {segments : List (List Char)} (h : segments ≠ []) (last : List Char) :
    joined mark (segments ++ [last]) = joined mark segments ++ mark :: last := by
  induction segments with
  | nil => exact absurd rfl h
  | cons segment more ih =>
    by_cases hm : more = []
    · simp [hm, joined]
    · rw [List.cons_append, joined_cons (by simp), ih hm, joined_cons hm]
      simp

/-- The text before and the text after the last mark, if there is one. -/
def splitLast (mark : Char) : List Char → Option (List Char × List Char)
  | [] => none
  | c :: text =>
    match splitLast mark text with
    | some (front, back) => some (c :: front, back)
    | none => if c = mark then some ([], text) else none

theorem splitLast_eq_none {text : List Char} (h : mark ∉ text) : splitLast mark text = none := by
  induction text with
  | nil => rfl
  | cons c text ih =>
    simp only [List.mem_cons, not_or] at h
    simp [splitLast, ih h.2, Ne.symm h.1]

theorem splitLast_append {back : List Char} (h : mark ∉ back) (front : List Char) :
    splitLast mark (front ++ mark :: back) = some (front, back) := by
  induction front with
  | nil => simp [splitLast, splitLast_eq_none h]
  | cons c front ih => simp [splitLast, ih]

theorem length_front_lt {text front back : List Char} (h : splitLast mark text = some (front, back)) :
    front.length < text.length := by
  induction text generalizing front with
  | nil => exact nomatch h
  | cons c text ih =>
    simp only [splitLast] at h
    split at h
    · next hs => cases h; simpa using ih hs
    · split at h
      · cases h; simp
      · exact nomatch h

end ObjectStore.Text

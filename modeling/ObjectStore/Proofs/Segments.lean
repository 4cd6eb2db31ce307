import Mathlib.Data.List.Basic
import Mathlib.Data.List.Induction
import ObjectStore.Proofs.Hierarchy

/-! # Keys as lists of segments

A key is held as a text, but nothing of it counts except the list of its segments. Every list of
segments belongs to exactly one key, and to join keys is to append their lists.

* **`Key.parts`** — what a path contributes to a key: the strings between its delimiters that are not
  empty.
* **`Text.cut_eq_splitOn`** — the pieces of a text are those of the standard library.
* **`Key.segments_ofSegments`**, **`Key.segments_join`** — the segments of keys that are made of
  strings and of other keys.
* **`Key.exists_segments_eq_iff`** — the lists that are those of a key.
* **`Key.extend`** — a text with one more part; `Key.foldl_extend` says that a text which grows so is
  the parts joined.
* **`Key.free_on_segments`** — keys are the free monoid of segments. -/

namespace ObjectStore

open Text

namespace Text

variable {mark : Char}

/-- The pieces of a text are those of the standard library. -/
theorem cut_eq_splitOn (text : List Char) : cut mark text = text.splitOn mark := by
  induction text with
  | nil => rfl
  | cons c text ih =>
    rw [cut, List.splitOn_cons_eq_if_modifyHead, ← ih]
    by_cases h : c = mark
    · simp [h]
    · rw [if_neg h, if_neg (by simpa using h)]
      cases hcut : cut mark text with
      | nil => exact absurd hcut (cut_ne_nil text)
      | cons piece more => rfl

/-- A piece of a text is cut no further: it is a segment, or it is empty. -/
theorem flatMap_pieces_cut (text : List Char) :
    (cut mark text).flatMap (pieces mark) = pieces mark text := by
  have hpiece : ∀ piece ∈ cut mark text, pieces mark piece = [piece].filter (!·.isEmpty) := by
    intro piece hmem
    rw [pieces, cut_eq_singleton (notMem_of_mem_cut hmem)]
  rw [List.flatMap_congr hpiece, ← List.filter_flatMap, List.flatMap_singleton', pieces]

end Text

namespace Key

variable {a b c k : Key}

/-! ## Parts of a path -/

/-- What a path contributes to a key: the strings between its delimiters that are not empty. -/
def parts (path : String) : List String :=
  ((path.split delimiter).toList.map String.Slice.copy).filter fun part => part ≠ ""

theorem parts_eq (path : String) :
    parts path = (pieces delimiter path.toList).map String.ofList := by
  have hempty : ((fun part : String => decide (part ≠ "")) ∘ String.ofList) =
      fun piece => !piece.isEmpty := by
    funext piece
    rw [Function.comp_apply, Bool.eq_iff_iff, decide_eq_true_eq, Bool.not_eq_true',
      List.isEmpty_eq_false_iff, ne_eq, String.ofList_eq_empty_iff]
  rw [parts, String.toList_split_char, ← cut_eq_splitOn, List.filter_map, hempty, pieces]

/-- A delimiter between two paths parts them. -/
theorem parts_append (s t : String) : parts (s ++ "/" ++ t) = parts s ++ parts t := by
  have htext : (s ++ "/" ++ t).toList = s.toList ++ delimiter :: t.toList := by
    rw [String.toList_append, String.toList_append, List.append_assoc]
    rfl
  rw [parts_eq, parts_eq, parts_eq, htext, pieces_append, List.map_append]

/-- A string that is not empty and has no delimiter in it is its own only part. -/
theorem parts_of_notMem {s : String} (hne : s ≠ "") (hfree : delimiter ∉ s.toList) :
    parts s = [s] := by
  have htext : s.toList ≠ [] := fun hnil => hne (String.toList_inj.mp hnil)
  rw [parts_eq, pieces_eq_singleton hfree htext, List.map_singleton, String.ofList_toList]

/-! ## The segments of a key -/

theorem segments_ofTexts (texts : List (List Char)) :
    (ofTexts texts).segments = texts.flatMap fun text => parts (String.ofList text) := by
  rw [segments, pieces_text_ofTexts, List.map_flatMap]
  refine List.flatMap_congr fun text _ => ?_
  rw [parts_eq, String.toList_ofList]

/-- **The segments of a key that is made of strings are the parts of the strings**, in order. -/
theorem segments_ofSegments (paths : List String) :
    (ofSegments paths).segments = paths.flatMap parts := by
  rw [ofSegments, segments_ofTexts, List.flatMap_map]
  simp only [String.ofList_toList]

@[simp] theorem segments_ofString (path : String) : (ofString path).segments = parts path := by
  rw [ofString, segments_ofTexts, List.flatMap_singleton, String.ofList_toList]

/-- The segments of a key are the parts of its text. -/
theorem segments_eq_parts (k : Key) : k.segments = parts k.toString := by
  rw [parts_eq, toString, String.toList_ofList, segments]

@[simp] theorem segments_root : root.segments = [] := rfl

@[simp] theorem segments_join (a b : Key) : (a.join b).segments = a.segments ++ b.segments := by
  simp [segments]

@[simp] theorem segments_child (k : Key) (path : String) :
    (k.child path).segments = k.segments ++ parts path := by
  simp [segments, parts_eq]

/-- A segment is not empty and has no delimiter in it. -/
theorem ne_empty_of_mem_segments {s : String} (h : s ∈ k.segments) :
    s ≠ "" ∧ delimiter ∉ s.toList := by
  obtain ⟨piece, hpiece, rfl⟩ := List.mem_map.mp h
  have hsegment := isSegment_of_mem hpiece
  exact ⟨fun hempty => hsegment.1 (String.ofList_eq_empty_iff.mp hempty), by simpa using hsegment.2⟩

/-- Keys are told apart by their segments. -/
theorem segments_inj : a.segments = b.segments ↔ a = b := by
  refine ⟨fun h => ext_pieces ?_, congrArg segments⟩
  exact List.map_injective_iff.mpr (fun _ _ => String.ofList_injective) h

/-- Strings that could each be a segment are the segments of a key. -/
theorem segments_ofSegments_of_forall {strings : List String}
    (h : ∀ s ∈ strings, s ≠ "" ∧ delimiter ∉ s.toList) :
    (ofSegments strings).segments = strings := by
  have hparts : ∀ s ∈ strings, parts s = [s] := fun s hs => parts_of_notMem (h s hs).1 (h s hs).2
  rw [segments_ofSegments, List.flatMap_congr hparts, List.flatMap_singleton']

/-- **The lists that are the segments of a key** are those of strings that could each be one. -/
theorem exists_segments_eq_iff {strings : List String} :
    (∃ k : Key, k.segments = strings) ↔ ∀ s ∈ strings, s ≠ "" ∧ delimiter ∉ s.toList := by
  constructor
  · rintro ⟨k, rfl⟩ s hs
    exact ne_empty_of_mem_segments hs
  · exact fun h => ⟨ofSegments strings, segments_ofSegments_of_forall h⟩

/-- The segments of a key make the key again. -/
theorem ofSegments_segments (k : Key) : ofSegments k.segments = k :=
  segments_inj.mp (segments_ofSegments_of_forall fun _ hs => ne_empty_of_mem_segments hs)

/-- To read a path is to cut it at its delimiters and to make a key of what comes out. -/
theorem ofString_eq_ofSegments (path : String) :
    ofString path = ofSegments ((path.split delimiter).toList.map String.Slice.copy) := by
  refine ext_pieces ?_
  rw [pieces_text_ofString, String.toList_split_char, ofSegments, pieces_text_ofTexts,
    ← cut_eq_splitOn, List.map_map, List.flatMap_map, ← flatMap_pieces_cut]
  simp only [Function.comp_apply, String.toList_ofList]

/-! ## The text of a key -/

/-- A text with one more part, after a delimiter unless nothing comes before it. -/
def extend (path part : String) : String :=
  if path = "" then part else path.push delimiter ++ part

/-- A text that grows segment by segment is the segments joined. -/
theorem foldl_extend {segments : List (List Char)} (h : ∀ s ∈ segments, IsSegment delimiter s) :
    (segments.map String.ofList).foldl extend "" = String.ofList (joined delimiter segments) := by
  induction segments using List.reverseRecOn with
  | nil => rfl
  | append_singleton init last ih =>
    have hinit := fun s hs => h s (List.mem_append_left [last] hs)
    -- the text is empty as long as no segment has been put into it
    have hempty : String.ofList (joined delimiter init) = "" ↔ init = [] := by
      rw [String.ofList_eq_empty_iff, joined_eq_nil_iff hinit]
    rw [List.map_append, List.foldl_append, ih hinit, List.map_singleton, List.foldl_cons,
      List.foldl_nil, extend]
    by_cases hnil : init = []
    · rw [if_pos (hempty.mpr hnil), hnil, List.nil_append, joined_singleton]
    · rw [if_neg (mt hempty.mp hnil), joined_concat hnil, ← String.toList_inj]
      simp

/-- **The text of a key grows part by part**, with a delimiter between two of them. -/
theorem toString_ofSegments (paths : List String) : (ofSegments paths).toString =
    paths.foldl (fun text path => (parts path).foldl extend text) "" := by
  have hparts : paths.flatMap parts =
      ((paths.map String.toList).flatMap (pieces delimiter)).map String.ofList := by
    rw [List.map_flatMap, List.flatMap_map]
    exact List.flatMap_congr fun path _ => parts_eq path
  have hsegments : ∀ s ∈ (paths.map String.toList).flatMap (pieces delimiter),
      IsSegment delimiter s := fun s hs =>
    let ⟨_, _, hpiece⟩ := List.mem_flatMap.mp hs
    isSegment_of_mem_pieces hpiece
  rw [← List.foldl_flatMap, hparts, foldl_extend hsegments]
  rfl

/-! ## The free monoid -/

/-- **Keys are the free monoid of segments.** The key that is made of some strings has their parts as
its segments, in order, and its text grows part by part; to read a path is to make a key of what it
is cut into. The lists of segments of keys are all lists of strings that are not empty and have no
delimiter in them. The segments of a key are the parts of its text. They determine the key and make
it again, as the text does. To join keys is to append their segments, which is associative, has the
root as its neutral element and can be cancelled on both sides. To append a path is to join its key,
and a delimiter between two paths joins their keys. -/
theorem free_on_segments (paths : List String) (a b c : Key) (s t : String) :
    (ofSegments paths).segments = paths.flatMap parts ∧
    (ofSegments paths).toString =
      paths.foldl (fun text path => (parts path).foldl extend text) "" ∧
    ofString s = ofSegments ((s.split delimiter).toList.map String.Slice.copy) ∧
    (∀ strings : List String, (∃ k : Key, k.segments = strings) ↔
      ∀ segment ∈ strings, segment ≠ "" ∧ delimiter ∉ segment.toList) ∧
    a.segments = parts a.toString ∧
    (a = b ↔ a.segments = b.segments) ∧
    ofSegments a.segments = a ∧ ofString a.toString = a ∧
    (a.join b).segments = a.segments ++ b.segments ∧
    (a.join b).join c = a.join (b.join c) ∧
    root.join a = a ∧ a.join root = a ∧
    (a.join b = a.join c ↔ b = c) ∧ (a.join c = b.join c ↔ a = b) ∧
    a.child s = a.join (ofString s) ∧
    ofString (s ++ "/" ++ t) = (ofString s).join (ofString t) := by
  refine ⟨segments_ofSegments paths, toString_ofSegments paths, ofString_eq_ofSegments s,
    fun strings => exists_segments_eq_iff, segments_eq_parts a, segments_inj.symm,
    ofSegments_segments a, ofString_toString a, segments_join a b, ?assoc, ?left, ?right,
    ?cancelLeft, ?cancelRight, ?child, ?slash⟩
  -- each law is one of lists, read off the segments
  all_goals simp only [← segments_inj, segments_join, segments_root, segments_child,
    segments_ofString]
  case assoc => exact List.append_assoc ..
  case left => exact List.nil_append _
  case right => exact List.append_nil _
  case cancelLeft => exact List.append_right_inj _
  case cancelRight => exact List.append_left_inj _
  case slash => exact parts_append s t

end Key

end ObjectStore

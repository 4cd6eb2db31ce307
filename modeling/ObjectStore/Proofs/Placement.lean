import ObjectStore.Proofs.Ancestry
import ObjectStore.Proofs.Registry

/-! # Where proposals stand

The key of a proposal is made by appending a string to the proposal root of a target, and appending
reads the string as a path: it may come to nothing, to one segment under another spelling or to
several. The strings that are accepted as tokens are those that such a reading leaves as they are.

* **`Key.parts_eq_singleton_iff`** — the strings that are their own only part.
* **`Key.child_keeps_name_iff`** — the strings that name the child that they are appended as.
* **`Proposals.segments_key_eq`** — the layout of the keys below proposal roots, for any string.
* **`Proposals.placement_exact`** — tokens are exactly the strings that the layout can tell apart. -/

namespace ObjectStore

namespace Key

variable {k : Key} {s : String}

/-- A string is its own only part if it could be a segment. -/
theorem parts_eq_singleton_iff : parts s = [s] ↔ s ≠ "" ∧ delimiter ∉ s.toList := by
  constructor
  · intro h
    -- the parts of a path are the segments of its key
    have hmem : s ∈ (ofString s).segments := by
      rw [segments_ofString, h]
      exact List.mem_singleton_self s
    exact ne_empty_of_mem_segments hmem
  · exact fun h => parts_of_notMem h.1 h.2

/-- **A string names the child that it is appended as** if it could be a segment. -/
theorem child_keeps_name_iff :
    (k.child s).parent = some k ∧ (k.child s).name = some s ↔ s ≠ "" ∧ delimiter ∉ s.toList := by
  rw [← segments_eq_concat_iff, segments_child, List.append_right_inj, parts_eq_singleton_iff]

end Key

/-- A string is accepted as a token if it could be a segment. -/
theorem Token.exists_ofString_eq_ok_iff {s : String} :
    (∃ t, Token.ofString s = .ok t) ↔ s ≠ "" ∧ delimiter ∉ s.toList := by
  simp only [Token.ofString_eq_ok_iff]
  constructor
  · rintro ⟨t, rfl⟩
    exact ⟨t.nonempty, t.undivided⟩
  · exact fun h => ⟨⟨s, h.1, h.2⟩, rfl⟩

namespace Proposals

variable {target : Key}

theorem segments_root (target : Key) :
    (root target).segments = target.segments ++ [proposalsSegment] := by
  have hreserved : Key.parts proposalsSegment = [proposalsSegment] :=
    Key.parts_of_notMem (by decide) (by decide)
  rw [root, Key.segments_child, hreserved]

/-- **The layout of the keys below proposal roots**: the segments of the target, the reserved one and
the parts of the string, whatever the string. -/
theorem segments_key_eq (target : Key) (s : String) :
    (key target s).segments = target.segments ++ proposalsSegment :: Key.parts s := by
  rw [key, Key.segments_child, segments_root, List.append_assoc, List.singleton_append]

/-- The segments of a proposal's key: those of the target, the reserved one and the token. -/
theorem segments_key (target : Key) (t : Token) :
    (key target t.text).segments = target.segments ++ [proposalsSegment, t.text] := by
  rw [segments_key_eq, Key.parts_of_notMem t.nonempty t.undivided]

/-- A string that is refused as a token and comes to stand immediately below the proposal root
stands there in the place of a token. -/
theorem exists_token_of_refused {s : String} (hrefused : ∀ t, Token.ofString s ≠ .ok t)
    (hparent : (key target s).parent = some (root target)) :
    ∃ t : Token, t.text ≠ s ∧ key target s = key target t.text := by
  obtain ⟨t, ht⟩ := exists_token hparent
  exact ⟨t, fun htext => hrefused t (Token.ofString_eq_ok_iff.mpr htext.symm), ht⟩

/-- **Tokens are exactly the strings that the layout of proposals can tell apart.** The key that a
string leads to has the segments of the target, the reserved segment and the parts of the string. A
string is accepted as a token if and only if that key stands immediately below the proposal root of
the target and is named by the very string. Of accepted strings the keys are equal only if both the
targets and the strings are, whatever segments a target has and whatever the string. A string that
is refused leads to a key elsewhere than immediately below the root, or to that of another string
that is accepted. -/
theorem placement_exact (target target' : Key) (s u : String) :
    (key target s).segments = target.segments ++ proposalsSegment :: Key.parts s ∧
    ((∃ t, Token.ofString s = .ok t) ↔
      (key target s).parent = some (root target) ∧ (key target s).name = some s) ∧
    ((∃ t, Token.ofString s = .ok t) → (∃ t, Token.ofString u = .ok t) →
      (key target s = key target' u ↔ target = target' ∧ s = u)) ∧
    ((∀ t, Token.ofString s ≠ .ok t) → (key target s).parent = some (root target) →
      ∃ t : Token, t.text ≠ s ∧ key target s = key target t.text) := by
  refine ⟨segments_key_eq target s, ?_, ?_, exists_token_of_refused⟩
  · exact Token.exists_ofString_eq_ok_iff.trans Key.child_keeps_name_iff.symm
  · simp only [Token.ofString_eq_ok_iff]
    rintro ⟨t, rfl⟩ ⟨t', rfl⟩
    rw [key_eq_key_iff, Token.ext_iff]

/-- The reserved segment as a target and as a token: the proposal of that token on the root stands
where the proposals of that target begin, but it is none of them. A string that goes on after a token
with a delimiter is refused, and would take the token's place. -/
theorem placement_exact_mimicking :
    key Key.root proposalsSegment = root (Key.ofString proposalsSegment) ∧
      (∃ t, Token.ofString proposalsSegment = .ok t) ∧
      (key Key.root proposalsSegment).parent = some (root Key.root) ∧
      (key Key.root proposalsSegment).name = some proposalsSegment ∧
      key Key.root proposalsSegment ≠ key (Key.ofString proposalsSegment) proposalsSegment ∧
      (∀ t, Token.ofString "x/" ≠ .ok t) ∧
      ∃ t : Token, t.text ≠ "x/" ∧ key Key.root "x/" = key Key.root t.text := by
  have haccepted : ∃ t, Token.ofString proposalsSegment = .ok t :=
    ⟨⟨proposalsSegment, by decide, by decide⟩, rfl⟩
  have hrefused : ∀ t, Token.ofString "x/" ≠ .ok t := fun t h =>
    t.undivided (Token.ofString_eq_ok_iff.mp h ▸ by decide)
  obtain ⟨-, hplaced, hkeys, -⟩ :=
    placement_exact Key.root (Key.ofString proposalsSegment) proposalsSegment proposalsSegment
  obtain ⟨-, -, -, hinstead⟩ := placement_exact Key.root Key.root "x/" "x/"
  obtain ⟨hparent, hname⟩ := hplaced.mp haccepted
  refine ⟨by decide +kernel, haccepted, hparent, hname, fun hkey => ?_, hrefused,
    hinstead hrefused (by decide +kernel)⟩
  exact absurd ((hkeys haccepted haccepted).mp hkey).1 (by decide +kernel)

/-- With a delimiter in it a string could lead to a proposal of another target. -/
example : key Key.root ".lock-proposals/x" = key (Key.ofString ".lock-proposals") "x" := by
  decide +kernel

end Proposals

end ObjectStore

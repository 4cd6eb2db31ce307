import ObjectStore.Proofs.ByteListing
import ObjectStore.Proofs.Registry
import ObjectStore.Proofs.SingleSteps

/-! # The tokens of a target

The tokens that have a proposal are read off a listing of the proposal root: the keys that stand
immediately below it, each by its last segment. Nothing else below the root, at it or beside it is
taken for a token, and none is missed.

* **`Proposals.run_tokens`** — run alone, the enumeration comes to the registered names.
* **`Proposals.tokens_enumerate`** — what these are, in which order, and where they come from. -/

namespace ObjectStore

/-- Strings are ordered as their bytes are. -/
theorem Bytes.ofString_lt_ofString_iff {s t : String} :
    Bytes.ofString s < Bytes.ofString t ↔ s < t := Utf8.encode_lt_encode_iff

namespace Proposals

variable {target : Key} {entries : Entries}

/-- A string is registered if it is accepted as a token and the proposal of that token has an
entry. -/
theorem mem_registered_iff_accepted {s : String} : s ∈ registered target entries ↔
    (∃ t, Token.ofString s = .ok t) ∧ (entries.find? (key target s)).isSome = true := by
  rw [mem_registered_iff]
  simp only [Token.ofString_eq_ok_iff]
  constructor
  · rintro ⟨t, rfl, hsome⟩
    exact ⟨⟨t, rfl⟩, hsome⟩
  · rintro ⟨⟨t, rfl⟩, hsome⟩
    exact ⟨t, rfl, hsome⟩

/-- Run alone, the enumeration comes to the registered names and changes nothing. -/
theorem run_tokens (target : Key) (draw : Token) (world : World) :
    (tokens target).run (World.serve draw) world =
      (.ok (registered target world.store.entries), world) := rfl

/-- **What the enumeration of tokens comes to**, run alone on any store. It changes nothing and
succeeds. The names that it finds are in strictly ascending order of their bytes. They are exactly
the strings that are accepted as tokens and have an entry at their proposal's key. The keys of these
proposals are, one by one, the listed keys that stand immediately below the proposal root, so every
name leads back to the entry that it was read from. -/
theorem tokens_enumerate (target : Key) (draw : Token) (world : World) :
    ∃ (listed : List Key) (names : List String),
      world.store.apply (.list (root target)) = (.ok listed, world.store) ∧
      (tokens target).run (World.serve draw) world = (.ok names, world) ∧
      names.Pairwise (fun s t => Bytes.ofString s < Bytes.ofString t) ∧
      (∀ s : String, s ∈ names ↔ (∃ t, Token.ofString s = .ok t) ∧
        (world.store.entries.find? (key target s)).isSome = true) ∧
      names.map (key target) = listed.filter (fun k => k.parent == some (root target)) := by
  refine ⟨_, _, rfl, run_tokens target draw world, ?_, fun s => mem_registered_iff_accepted, ?_⟩
  · exact (pairwise_registered target world.store.entries).imp Bytes.ofString_lt_ofString_iff.mpr
  · exact map_key_childNames target (world.store.entries.scan (root target))

end Proposals

end ObjectStore

import ObjectStore.Proofs.Undisturbed

/-! # The verdict on the proposals of a target

Looking for an active proposal has one of two ends, and neither changes the store, whatever the
entries below the proposal root are.

* **`Proposals.verdict`** — success if no registered name but one's own counts, else a conflict.
* **`Proposals.run_checkSingle`** — run alone, the check comes to this verdict and changes
  nothing.
* **`Proposals.checkSingle_decides`** — what the verdict is in terms of the payloads, and what it
  depends on. -/

namespace ObjectStore

namespace Proposals

variable {target : Key} {own : String} {entries : Entries} {now : Instant}

/-- Success if none of some names but one's own counts, else a conflict. -/
def verdictOn (target : Key) (own : String) (entries : Entries) (now : Instant)
    (names : List String) : Result Unit :=
  if names.any fun name => name ≠ own && counts target entries now name then
    .error (.lockConflict target none)
  else .ok ()

/-- Success if no registered name but one's own counts, else a conflict. -/
def verdict (target : Key) (own : String) (entries : Entries) (now : Instant) : Result Unit :=
  verdictOn target own entries now (registered target entries)

/-! ## What the verdict says -/

/-- A token whose proposal counts is registered. -/
theorem mem_registered_of_counts {u : Token} (h : counts target entries now u.text = true) :
    u.text ∈ registered target entries := by
  rw [token_mem_registered_iff]
  obtain ⟨payload, hfind, -⟩ := (Option.any_eq_true _ _).mp h
  exact Option.isSome_of_eq_some hfind

/-- The check finds some other proposal that counts, if there is one. -/
theorem any_registered_iff :
    ((registered target entries).any fun name => name ≠ own && counts target entries now name) =
        true ↔
      ∃ u : Token, u.text ≠ own ∧ counts target entries now u.text = true := by
  simp only [List.any_eq_true, Bool.and_eq_true, decide_eq_true_eq]
  constructor
  · rintro ⟨name, hname, hown, hcounts⟩
    obtain ⟨u, rfl, -⟩ := mem_registered_iff.mp hname
    exact ⟨u, hown, hcounts⟩
  · rintro ⟨u, hown, hcounts⟩
    exact ⟨u.text, mem_registered_of_counts hcounts, hown, hcounts⟩

/-- The verdict is a conflict if the proposal of another token counts. -/
theorem verdict_eq_conflict_iff :
    verdict target own entries now = .error (.lockConflict target none) ↔
      ∃ u : Token, u.text ≠ own ∧ counts target entries now u.text = true := by
  rw [← any_registered_iff, verdict, verdictOn]
  split <;> simp_all

/-- The verdict is a success if the proposal of no other token counts. -/
theorem verdict_eq_ok_iff : verdict target own entries now = .ok () ↔
    ∀ u : Token, u.text ≠ own → counts target entries now u.text = false := by
  have hany : (∀ u : Token, u.text ≠ own → counts target entries now u.text = false) ↔
      ¬ ∃ u : Token, u.text ≠ own ∧ counts target entries now u.text = true := by
    simp
  rw [hany, ← any_registered_iff, verdict, verdictOn]
  split <;> simp_all

/-- The part that the proposal of one other token has in a conflict. -/
theorem verdict_eq_conflict_iff_of_ne {token : Token} (h : token.text ≠ own) :
    verdict target own entries now = .error (.lockConflict target none) ↔
      counts target entries now token.text = true ∨
        ∃ third : Token, third ≠ token ∧ third.text ≠ own ∧
          counts target entries now third.text = true := by
  rw [verdict_eq_conflict_iff]
  constructor
  · rintro ⟨u, hown, hcounts⟩
    by_cases hu : u = token
    · exact .inl (hu ▸ hcounts)
    · exact .inr ⟨u, hu, hown, hcounts⟩
  · rintro (hcounts | ⟨third, -, hown, hcounts⟩)
    · exact ⟨token, h, hcounts⟩
    · exact ⟨third, hown, hcounts⟩

/-- The part that the proposal of one other token has in a success. -/
theorem verdict_eq_ok_iff_of_ne {token : Token} (h : token.text ≠ own) :
    verdict target own entries now = .ok () ↔
      counts target entries now token.text = false ∧
        ∀ third : Token, third ≠ token → third.text ≠ own →
          counts target entries now third.text = false := by
  rw [verdict_eq_ok_iff]
  constructor
  · exact fun hfree => ⟨hfree token h, fun third _ hown => hfree third hown⟩
  · rintro ⟨htoken, hothers⟩ u hown
    by_cases hu : u = token
    · exact hu ▸ htoken
    · exact hothers u hu hown

/-! ## The check comes to the verdict -/

theorem run_judge (target : Key) (token : String) (payload : Bytes) (now : Instant) (draw : Token)
    (world : World) : (judge target token payload now).run (World.serve draw) world =
      (payloadIsActive payload now, world) := by
  rw [judge]
  cases Expiration.decode payload <;> rfl

theorem run_payload (target : Key) (token : String) (draw : Token) (world : World) :
    (payload target token).run (World.serve draw) world =
      (.ok (world.store.entries.find? (key target token)), world) := by
  rw [payload_eq, Program.run_step, Program.run_done]
  exact congrArg (·, world) (Lock.payloadOf_load world.store (key target token))

/-- A conflict is returned at a proposal that counts; one that does not is passed over. -/
theorem run_checkOne (target : Key) (own : String) (now : Instant) (other : String)
    (more : List String) (draw : Token) (world : World) :
    (checkOne target own now other more).run (World.serve draw) world =
      if counts target world.store.entries now other then
        (.error (.lockConflict target none), world)
      else (checkAgainst target own now more).run (World.serve draw) world := by
  rw [checkOne, Program.run_bind, run_payload, counts]
  cases world.store.entries.find? (key target other) with
  | none => rfl
  | some payload =>
    simp only [Program.run_bind, run_judge, Option.any_some]
    split <;> rfl

/-- Looking at some names comes to the verdict on them. -/
theorem run_checkAgainst (target : Key) (own : String) (now : Instant) (names : List String)
    (draw : Token) (world : World) :
    (checkAgainst target own now names).run (World.serve draw) world =
      (verdictOn target own world.store.entries now names, world) := by
  induction names with
  | nil => rfl
  | cons other more ih =>
    by_cases hown : other = own
    -- one's own name is passed over without a call
    · rw [hown, checkAgainst_cons_self, ih]
      simp [verdictOn]
    · rw [checkAgainst_cons_of_ne hown, run_checkOne, ih]
      cases hcounts : counts target world.store.entries now other <;>
        simp [verdictOn, hcounts, hown]

/-- **Run alone, the check comes to the verdict and changes nothing.** -/
theorem run_checkSingle (target : Key) (own : String) (draw : Token) (world : World) :
    (checkSingle target own).run (World.serve draw) world =
      (verdict target own world.store.entries world.clock, world) :=
  run_checkAgainst target own world.clock (registered target world.store.entries) draw world

/-! ## What the verdict depends on -/

/-- A payload does not count if it is not empty and denotes an instant that has been reached. -/
theorem payloadIsActive_eq_false_iff {payload : Bytes} : payloadIsActive payload now = false ↔
    payload ≠ [] ∧ ∃ i, Expiration.decode payload = .ok (.at i) ∧ i ≤ now := by
  rw [payloadIsActive]
  constructor
  · intro hspent
    cases hdecode : Expiration.decode payload with
    | error reason => rw [hdecode] at hspent; cases hspent
    | ok e =>
      rw [hdecode] at hspent
      cases e with
      | never => cases hspent
      | «at» i =>
        refine ⟨fun hempty => ?_, i, rfl, of_decide_eq_false hspent⟩
        rw [hempty] at hdecode
        cases hdecode
  · rintro ⟨-, i, hdecode, hreached⟩
    rw [hdecode]
    exact decide_eq_false hreached

/-- The proposal of a name does not count unless it is there, and then if its payload does not. -/
theorem counts_eq_false_iff {name : String} : counts target entries now name = false ↔
    ∀ payload, entries.find? (key target name) = some payload →
      payloadIsActive payload now = false := by
  rw [counts]
  cases entries.find? (key target name) <;> simp

/-- The verdict is a success if the payloads of all proposals but one's own are not empty and denote
instants that have been reached. -/
theorem verdict_eq_ok_iff_spent : verdict target own entries now = .ok () ↔
    ∀ k payload, IsProposal target k → k.name ≠ some own → entries.find? k = some payload →
      payload ≠ [] ∧ ∃ i, Expiration.decode payload = .ok (.at i) ∧ i ≤ now := by
  rw [verdict_eq_ok_iff]
  constructor
  · intro hfree k payload hparent hname hfind
    obtain ⟨u, rfl⟩ := exists_token hparent
    have hown : u.text ≠ own := fun htext => hname (htext ▸ name_key target u)
    exact payloadIsActive_eq_false_iff.mp (counts_eq_false_iff.mp (hfree u hown) payload hfind)
  · intro hspent u hown
    refine counts_eq_false_iff.mpr fun payload hfind => payloadIsActive_eq_false_iff.mpr ?_
    refine hspent _ payload (parent_key target u) (fun hname => hown ?_) hfind
    rwa [name_key, Option.some_inj] at hname

/-- A verdict that is no success is a conflict that names the target. -/
theorem verdict_eq_conflict_of_ne_ok (h : verdict target own entries now ≠ .ok ()) :
    verdict target own entries now = .error (.lockConflict target none) := by
  rw [verdict, verdictOn] at h ⊢
  split
  · rfl
  · next hnone => exact absurd (if_neg hnone) h

/-- The verdict is the same for the same proposals, one's own left aside. -/
theorem verdict_congr {others : Entries}
    (h : ∀ k, IsProposal target k → k.name ≠ some own → others.find? k = entries.find? k) :
    verdict target own others now = verdict target own entries now := by
  have hok : verdict target own others now = .ok () ↔ verdict target own entries now = .ok () := by
    rw [verdict_eq_ok_iff_spent, verdict_eq_ok_iff_spent]
    refine forall₂_congr fun k payload => forall₂_congr fun hparent hname => ?_
    rw [h k hparent hname]
  by_cases hentries : verdict target own entries now = .ok ()
  · rw [hentries, hok.mpr hentries]
  · rw [verdict_eq_conflict_of_ne_ok hentries, verdict_eq_conflict_of_ne_ok (mt hok.mp hentries)]

/-- **What the check decides**, run alone on any store. It succeeds if the payload of each immediate
child of the proposal root, except for the child named by the token, is not empty and denotes an
instant that has been reached. Otherwise it is a conflict that names the target. It changes nothing,
and nothing else in the store has a part in it. -/
theorem checkSingle_decides (target : Key) (own : String) (draw : Token) (world : World) :
    let check := (checkSingle target own).run (World.serve draw)
    ((check world).1 = .ok () ↔
      ∀ k payload, k.parent = some (root target) → k.name ≠ some own →
        world.store.entries.find? k = some payload →
          payload ≠ [] ∧ ∃ i, Expiration.decode payload = .ok (.at i) ∧ i ≤ world.clock) ∧
    ((check world).1 ≠ .ok () → (check world).1 = .error (.lockConflict target none)) ∧
    (check world).2 = world ∧
    ∀ other : World, other.clock = world.clock →
      (∀ k, k.parent = some (root target) → k.name ≠ some own →
        other.store.entries.find? k = world.store.entries.find? k) →
      (check other).1 = (check world).1 := by
  intro check
  have hcheck : ∀ world : World,
      check world = (verdict target own world.store.entries world.clock, world) :=
    run_checkSingle target own draw
  simp only [hcheck]
  refine ⟨verdict_eq_ok_iff_spent, verdict_eq_conflict_of_ne_ok, trivial, ?_⟩
  intro other hclock hsame
  rw [hclock]
  exact verdict_congr hsame

end Proposals

end ObjectStore

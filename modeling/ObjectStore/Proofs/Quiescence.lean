import ObjectStore.Proofs.Exclusion

/-! # Proposals at rest

Every way in which an attempt fails withdraws its proposal. So as long as no deletion goes wrong,
the proposals in the store are those of the parties that have succeeded, whenever no operation is in
progress.

* **`Contest.Tidy`** — no proposal is in the store but those that have to be; preserved by every
  step (`StageStep.tidy`).
* **`Contest.tokens_at_rest`** — what listing the tokens of the target gives. -/

namespace ObjectStore

open Lock (Stage Course)

namespace Lock.Stage

variable {stage : Stage} {world world' : World} {operation : LockOperation} {wrote : Bool}
  {history : List Completed}

/-- A deletion in clean weather leaves nothing under its key. -/
theorem find?_of_deleted {draw : Token} {key : Key} {reply : Result Unit}
    (h : Answered Weather.clean draw world (.call (.delete key)) reply world') :
    world'.store.entries.find? key = none := by
  cases h with
  | served call => exact MemoryStore.find?_delete ..
  | failed _ mishap hm => exact absurd rfl (hm.2 key)

/-- An attempt that has written and still looks at names has its proposal. -/
theorem isPosted_lookAt (lock : Lock) (now : Instant) (names : List String) :
    (Party.follow history .acquire true (lock.lookAt now names)).IsPosted := by
  rcases lock.lookAt_cases now names with ⟨hended, -⟩ | ⟨other, more, hstands, -⟩
  · rw [hended]
    rfl
  · rw [hstands]
    trivial

/-- A proposal that must not be there after a reply is not there. -/
theorem find?_of_after_not_isPosted (lock : Lock) {reply : (stage.action lock).Reply}
    (hfits : stage.Fits operation wrote)
    (h : Answered Weather.clean lock.token world (stage.action lock) reply world')
    (hfind : ¬ stage.IsPosted (standing history = true) →
      world.store.entries.find? (Proposals.key lock.target lock.token.text) = none)
    (hposted : ¬ (Party.follow history operation (wrote || Action.wrote _ reply)
      (stage.after lock reply)).IsPosted) :
    world'.store.entries.find? (Proposals.key lock.target lock.token.text) = none := by
  cases operation with
  | release =>
    obtain ⟨-, rfl⟩ := hfits
    exact find?_of_deleted h
  | acquire =>
    cases stage with
    | write =>
      change Result Unit at reply
      cases reply with
      | ok done => exact absurd trivial hposted
      | error e =>
        obtain rfl : wrote = false := hfits
        rw [h.eq_of_error]
        exact hfind hposted
    | read => exact absurd trivial hposted
    | list now =>
      obtain rfl : wrote = true := hfits
      refine absurd ?_ hposted
      rcases after_list_cases lock now reply with ⟨e, hafter⟩ | ⟨names, hafter⟩
      · rw [hafter]
        trivial
      · rw [hafter]
        exact isPosted_lookAt lock now names
    | load now other more =>
      obtain rfl : wrote = true := hfits
      refine absurd ?_ hposted
      rcases after_load_cases lock now other more reply with ⟨e, hafter⟩ | hafter
      · rw [hafter]
        trivial
      · rw [hafter]
        exact isPosted_lookAt lock now more
    | withdraw failure => exact find?_of_deleted h
    | release => exact hfits.elim

end Lock.Stage

namespace Contest

variable {ι : Type} {contest : Contest ι} {world : World} {s t : State ι Stage}

/-- No proposal is in the store but those that have to be. -/
structure Tidy (contest : Contest ι) (s : State ι Stage) : Prop where
  absent : ∀ i, ¬ (s.party i).IsPosted → s.world.store.entries.find? (contest.key i) = none
  /-- Every proposal is a party's. -/
  owned : ∀ k, k.parent = some (Proposals.root contest.target) → (∀ i, k ≠ contest.key i) →
    s.world.store.entries.find? k = none

/-- The store has no proposals for the target. -/
def IsUnused (contest : Contest ι) (world : World) : Prop :=
  ∀ k, k.parent = some (Proposals.root contest.target) → world.store.entries.find? k = none

theorem tidy_start (h : contest.IsUnused world) : contest.Tidy (start world) where
  absent i _ := h _ (Proposals.parent_key contest.target (contest.token i))
  owned k hk _ := h k hk

/-- **Every step in clean weather leaves the store tidy.** -/
theorem StageStep.tidy [DecidableEq ι] (h : contest.StageStep Weather.clean s t)
    (hs : contest.Invariant s) (ht : contest.Tidy s) : contest.Tidy t := by
  cases h with
  | call i operation hidle =>
    refine ⟨?_, ht.owned⟩
    refine (Function.forall_update_iff _ fun j (p : Party Stage) => ¬ p.IsPosted → _ = none).mpr
      ⟨fun hposted => ?_, fun j _ => ht.absent j⟩
    exact ht.absent i fun hbefore => hposted ((Party.isPosted_first hidle).mpr hbefore)
  | @act i operation wrote stage reply world hbusy ha =>
    have hfind : ¬ stage.IsPosted (standing (s.party i).history = true) →
        s.world.store.entries.find? (contest.key i) = none :=
      fun h => ht.absent i fun hposted => h ((Party.isPosted_of_busy hbusy).mp hposted)
    constructor
    · refine (Function.forall_update_iff _ fun j (p : Party Stage) => ¬ p.IsPosted → _ = none).mpr
        ⟨?_, fun j hji => ?_⟩
      · have hfits := (hs.coherent i).fits hbusy
        exact Stage.find?_of_after_not_isPosted (contest.lock i) hfits ha hfind
      · rw [find?_key_of_ne hji ha]
        exact ht.absent j
    · intro k hk hnone
      have hkept : k ∉ (stage.action (contest.lock i)).written :=
        fun hmem => hnone i (Stage.eq_key_of_mem_written hmem)
      rw [ha.find?_of_notMem hkept]
      exact ht.owned k hk hnone
  | tick later hlater => exact ⟨ht.absent, ht.owned⟩
  | other call hcall =>
    have hkept : ∀ k, k.parent = some (Proposals.root contest.target) →
        (s.world.store.apply call).2.entries.find? k = s.world.store.entries.find? k :=
      fun k hk => MemoryStore.find?_apply_of_notMem fun hmem => hcall k hmem hk
    refine ⟨fun i hposted => ?_, fun k hk hnone => (hkept k hk).trans (ht.owned k hk hnone)⟩
    exact (hkept _ (Proposals.parent_key contest.target (contest.token i))).trans
      (ht.absent i hposted)

/-- **The store is tidy in every state that a contest for an unused target can come to.** -/
theorem StageReachable.tidy [DecidableEq ι] (h : contest.StageReachable Weather.clean world s)
    (hunused : contest.IsUnused world) : contest.Tidy s := by
  induction h with
  | refl => exact tidy_start hunused
  | tail hreach hstep ih =>
    -- clean weather is rough weather
    have hinv := StageReachable.invariant (.mono Weather.clean_milder hreach)
    exact hstep.tidy hinv ih

/-! ## At rest -/

section AtRest

variable (hs : contest.Invariant s) (ht : contest.Tidy s)
  (hrest : ∀ i, (s.party i).activity = .idle)

include hs ht hrest

/-- In a tidy state at rest the proposals are those of the parties that stand. -/
theorem find?_eq_some_iff_standing {k : Key} {value : Bytes}
    (hk : k.parent = some (Proposals.root contest.target)) :
    s.world.store.entries.find? k = some value ↔ ∃ i, k = contest.key i ∧
      value = contest.payload i ∧ standing (s.party i).history = true := by
  constructor
  · intro hfind
    -- an entry that is there is a party's, and the party is posted
    by_cases howned : ∃ i, k = contest.key i
    · obtain ⟨i, rfl⟩ := howned
      by_cases hposted : (s.party i).IsPosted
      · rw [hs.posted i hposted, Option.some_inj] at hfind
        exact ⟨i, rfl, hfind.symm, (Party.isPosted_of_idle (hrest i)).mp hposted⟩
      · rw [ht.absent i hposted] at hfind
        cases hfind
    · rw [ht.owned k hk (not_exists.mp howned)] at hfind
      cases hfind
  · rintro ⟨i, rfl, rfl, hstanding⟩
    exact hs.posted i ((Party.isPosted_of_idle (hrest i)).mpr hstanding)

/-- In a tidy state at rest the registered names are those of the parties that stand. -/
theorem mem_registered_iff_standing {name : String} :
    name ∈ Proposals.registered contest.target s.world.store.entries ↔
      ∃ i, name = (contest.token i).text ∧ standing (s.party i).history = true := by
  rw [Proposals.mem_registered_iff]
  constructor
  · rintro ⟨u, rfl, hsome⟩
    obtain ⟨value, hfind⟩ := Option.isSome_iff_exists.mp hsome
    obtain ⟨i, hkey, -, hstanding⟩ :=
      (find?_eq_some_iff_standing hs ht hrest (Proposals.parent_key contest.target u)).mp hfind
    have htoken : u = contest.token i := Proposals.key_injective hkey
    exact ⟨i, congrArg Token.text htoken, hstanding⟩
  · rintro ⟨i, rfl, hstanding⟩
    have hfind : s.world.store.entries.find? (contest.key i) = some (contest.payload i) :=
      hs.posted i ((Party.isPosted_of_idle (hrest i)).mpr hstanding)
    exact ⟨contest.token i, rfl, Option.isSome_of_eq_some hfind⟩

omit ht in
/-- No two parties stand at rest if their locks never expire. -/
theorem eq_of_standing (hnever : ∀ i, contest.expiration i = .never) {i j : ι}
    (hi : standing (s.party i).history = true) (hj : standing (s.party j).history = true) :
    i = j := by
  by_contra hij
  refine hs.apart i j hij ((Party.passedOver_of_idle (hrest i)).mpr hi)
    ((Party.passedOver_of_idle (hrest j)).mpr hj) ?_
  rw [hnever i, hnever j]
  exact ⟨rfl, rfl⟩

/-- At rest at most one name is registered if no lock ever expires. -/
theorem length_registered_le_one (hnever : ∀ i, contest.expiration i = .never) :
    (Proposals.registered contest.target s.world.store.entries).length ≤ 1 := by
  have hmem {name} : name ∈ Proposals.registered contest.target s.world.store.entries ↔ _ :=
    mem_registered_iff_standing hs ht hrest
  have hsorted := Proposals.pairwise_registered contest.target s.world.store.entries
  rcases hnames : Proposals.registered contest.target s.world.store.entries with
    _ | ⟨first, _ | ⟨second, more⟩⟩
  · exact Nat.zero_le 1
  · exact Nat.le_refl 1
  · rw [hnames] at hmem hsorted
    obtain ⟨i, hi, histands⟩ := hmem.mp List.mem_cons_self
    obtain ⟨j, hj, hjstands⟩ := hmem.mp (List.mem_cons_of_mem _ List.mem_cons_self)
    -- two names would be those of one party, but they are different
    have hlt : first < second := List.rel_of_pairwise_cons hsorted List.mem_cons_self
    rw [hi, hj, eq_of_standing hs hrest hnever histands hjstands] at hlt
    exact absurd hlt (String.lt_irrefl _)

end AtRest

/-- **At rest the registered tokens are exactly those of the parties that stand**: those whose
latest attempt to get past writing its proposal succeeded and that have completed no release since.
Nothing else is left of any attempt. If no lock ever expires there is at most one such token. -/
theorem tokens_at_rest [DecidableEq ι] {s : State ι (Program (Result Unit))}
    (h : contest.Reachable Weather.clean world s) (hunused : contest.IsUnused world)
    (hrest : ∀ i, (s.party i).activity = .idle) (draw : Token) :
    ∃ names, (Proposals.tokens contest.target).run (World.serve draw) s.world =
        (.ok names, s.world) ∧
      names.Pairwise (· < ·) ∧
      (∀ name, name ∈ names ↔
        ∃ i, name = (contest.token i).text ∧ standing (s.party i).history = true) ∧
      (∀ k value, k.parent = some (Proposals.root contest.target) →
        (s.world.store.entries.find? k = some value ↔ ∃ i, k = contest.key i ∧
          value = contest.payload i ∧ standing (s.party i).history = true)) ∧
      ((∀ i, contest.expiration i = .never) → names.length ≤ 1) := by
  obtain ⟨s, rfl, hreach⟩ := exists_stages h
  have hs := StageReachable.invariant (hreach.mono Weather.clean_milder)
  have ht := StageReachable.tidy hreach hunused
  have hidle : ∀ i, (s.party i).activity = .idle := fun i => idle_of_programs (hrest i)
  refine ⟨Proposals.registered contest.target s.world.store.entries, rfl,
    Proposals.pairwise_registered .., fun name => ?_, fun k value hk => ?_,
    length_registered_le_one hs ht hidle⟩
  · simp only [history_programs]
    exact mem_registered_iff_standing hs ht hidle
  · simp only [history_programs]
    exact find?_eq_some_iff_standing hs ht hidle hk

/-- A contest at rest is at rest again when one party has carried out an operation undisturbed. -/
theorem reaches_rest [DecidableEq ι] {weather : Weather} {s : State ι (Program (Result Unit))}
    (hrest : ∀ i, (s.party i).activity = .idle) (i : ι) (operation : LockOperation) :
    ∃ t, Relation.ReflTransGen (contest.Step weather) s t ∧ (∀ j, (t.party j).activity = .idle) ∧
      t.world = ((operation.program (contest.lock i)).run (World.serve (contest.token i))
        s.world).2 := by
  obtain ⟨wrote, hreach⟩ := contest.reaches_call_end weather i operation (hrest i)
  refine ⟨_, hreach, ?_, rfl⟩
  exact (Function.forall_update_iff _ fun _ (p : Party (Program (Result Unit))) =>
    p.activity = .idle).mpr ⟨rfl, fun j _ => hrest j⟩

/-- After an attempt that succeeds and one that fails, one token is registered. -/
theorem tokens_at_rest_after_two : ∃ s, (generated (Key.ofString "a")).Reachable Weather.clean
    ⟨.unlimited, .epoch⟩ s ∧ (∀ i, (s.party i).activity = .idle) ∧
      (∀ name, name = (Token.numbered 0).text ↔ ∃ i, name = (Token.numbered i).text ∧
        standing (s.party i).history = true) := by
  obtain ⟨s, hfirst, hsrest, hs⟩ := (generated (Key.ofString "a")).reaches_rest
    (s := start ⟨.unlimited, .epoch⟩) (fun _ => rfl) 0 .acquire
  obtain ⟨t, hsecond, htrest, ht⟩ := reaches_rest hsrest 1 .acquire
  obtain ⟨names, hrun, -, hmem, -⟩ := tokens_at_rest (hfirst.trans hsecond) (fun _ _ => rfl) htrest
    (Token.numbered 2)
  rw [ht, hs] at hrun
  have hnames : (.ok names : Result (List String)) = .ok [(Token.numbered 0).text] :=
    (congrArg Prod.fst hrun).symm.trans (by decide +kernel)
  refine ⟨t, hfirst.trans hsecond, htrest, fun name => ?_⟩
  rw [Except.ok.inj hnames] at hmem
  exact List.mem_singleton.symm.trans (hmem name)

end Contest

end ObjectStore

import ObjectStore.Proofs.Crowd
import ObjectStore.Proofs.Undisturbed

/-! # What stopped parties leave behind

A party that stops for ever may leave its proposal behind, wherever in an operation it stops and
whatever went wrong before. The proposal stands for its expiration and for nothing else: it blocks
the attempts of other tokens until then.

* **`Crowd.State.lastWritten`** — the expiration that a proposal was last written with.
* **`Crowd.State.Blocks`** — whether the proposal of a token stands in the way at some time.
* **`Crowd.Accounted`** — every proposal in the store is what was last written there; so it is in
  every state (`accounted_play`).
* **`Crowd.sameAt_play`** — while nobody acts with a token, its proposal stays what it is.
* **`Crowd.blocks_until_expiry`** — an attempt that runs alone succeeds if nothing blocks it, and
  what a stopped party has left blocks exactly as long as its expiration says. -/

namespace ObjectStore

open Lock (Stage Course)

/-- A call writes no proposal of a target. -/
def Call.Spares (target : Key) (call : Call) : Prop :=
  ∀ k ∈ call.written, ¬ Proposals.IsProposal target k

namespace Lock.Stage

variable {weather : Weather} {draw : Token} {world world' : World} {lock : Lock} {stage : Stage}
  {k : Key}

/-- A deletion removes its entry, or it goes wrong. -/
theorem find?_deleted_cases {reply : Result Unit}
    (h : Answered weather draw world (.call (.delete k)) reply world') :
    world'.store.entries.find? k = world.store.entries.find? k ∨
      world'.store.entries.find? k = none := by
  cases h with
  | served call => exact .inr (MemoryStore.find?_delete ..)
  | failed call mishap hm => exact .inl rfl

/-- **What a stage's action does to an entry.** It leaves the entry alone, or the entry is the
proposal of the lock and has been written or removed. -/
theorem find?_cases {reply : (stage.action lock).Reply}
    (h : Answered weather draw world (stage.action lock) reply world') (k : Key) :
    (world'.store.entries.find? k = world.store.entries.find? k ∧
      (Action.wrote _ reply = true → k ≠ lock.proposal.1)) ∨
    (k = lock.proposal.1 ∧ Action.wrote _ reply = true ∧
      world'.store.entries.find? k = some (Bytes.ofString lock.expiration.encode)) ∨
    (k = lock.proposal.1 ∧ world'.store.entries.find? k = none) := by
  by_cases hk : k = lock.proposal.1
  · subst hk
    cases stage with
    | write =>
      change Result Unit at reply
      cases reply with
      | ok done => exact .inr (.inl ⟨rfl, rfl, h.find?_of_saved (Content.drain_ofBytes _)⟩)
      | error e =>
        rw [h.eq_of_error]
        exact .inl ⟨rfl, nofun⟩
    | read => exact .inl ⟨h.find?_of_notMem List.not_mem_nil, nofun⟩
    | list now => exact .inl ⟨h.find?_of_notMem List.not_mem_nil, nofun⟩
    | load now other more => exact .inl ⟨h.find?_of_notMem List.not_mem_nil, nofun⟩
    | withdraw failure =>
      rcases find?_deleted_cases h with hsame | hnone
      · exact .inl ⟨hsame, nofun⟩
      · exact .inr (.inr ⟨rfl, hnone⟩)
    | release =>
      rcases find?_deleted_cases h with hsame | hnone
      · exact .inl ⟨hsame, nofun⟩
      · exact .inr (.inr ⟨rfl, hnone⟩)
  · have hsame := h.find?_of_notMem fun hmem => hk (eq_key_of_mem_written hmem)
    exact .inl ⟨hsame, fun _ => hk⟩

end Lock.Stage

namespace Crowd

variable {ι : Type} {crowd : Crowd ι} {target : Key} {s : State ι} {k : Key}

/-- The expiration that a proposal was last written with. -/
def State.lastWritten (s : State ι) (k : Key) : Option Expiration := s.written.lookup k

/-- Whether the proposal of a token stands in the way of others: it is registered, and what it was
last written with is active. -/
def State.Blocks (s : State ι) (target : Key) (now : Instant) (token : Token) : Prop :=
  token.text ∈ Proposals.registered target s.world.store.entries ∧
    ∃ e, s.lastWritten (Proposals.key target token.text) = some e ∧ e.isActiveAt now = true

/-! ## What is in the store -/

/-- A store without limit where every proposal of a target is what was last written there. -/
structure Accounted (target : Key) (s : State ι) : Prop where
  unlimited : s.world.store.limit = 0
  last : ∀ k value, Proposals.IsProposal target k → s.world.store.entries.find? k = some value →
    ∃ e, s.lastWritten k = some e ∧ e.IsOfEra ∧ value = Bytes.ofString e.encode

theorem accounted_start {world : World} (hlimit : world.store.limit = 0)
    (hnone : ∀ k, Proposals.IsProposal target k → world.store.entries.find? k = none) :
    Accounted target (start (ι := ι) world) where
  unlimited := hlimit
  last k value hk hfind := by
    rw [show (start world : State ι).world = world from rfl, hnone k hk] at hfind
    cases hfind

/-- What is written is noted before all that was written earlier. -/
theorem lookup_written {wrote : Bool} {lock : Lock} (written : List (Key × Expiration))
    (h : wrote = true → k ≠ lock.proposal.1) :
    (if wrote then lock.proposal :: written else written).lookup k = written.lookup k := by
  cases wrote with
  | false => rfl
  | true =>
    have hne : (k == lock.proposal.1) = false := by simpa using h rfl
    show List.lookup k (lock.proposal :: written) = _
    rw [List.lookup_cons, hne]

variable [DecidableEq ι]

/-- **Every incident leaves the proposals accounted for.** -/
theorem Accounted.step (hstaged : Staged crowd s) (h : Accounted target s)
    (hera : ∀ i, (crowd i).target = target → (crowd i).expiration.IsOfEra) {incident : Incident ι}
    (hspares : ∀ call, incident = .other call → call.Spares target) :
    Accounted target (step crowd s incident) := by
  cases incident with
  | call i operation =>
    rcases step_call_cases crowd s i operation with hstep | ⟨p, -, hstep⟩
    · rwa [hstep]
    · rw [hstep]
      exact ⟨h.unlimited, h.last⟩
  | reply i mishap =>
    rcases step_reply_cases hstaged i mishap with hstep | ⟨stage, reply, world, p, -, ha, hstep⟩
    · rwa [hstep]
    · rw [hstep]
      refine ⟨ha.limit_eq.trans h.unlimited, fun k value hk hfind => ?_⟩
      rcases Stage.find?_cases ha k with ⟨hsame, hother⟩ | ⟨hown, hwrote, hwritten⟩ | ⟨-, hnone⟩
      · -- an entry that has been left alone is what it was
        obtain ⟨e, hlast, he⟩ := h.last k value hk (hsame.symm.trans hfind)
        exact ⟨e, (lookup_written s.written hother).trans hlast, he⟩
      · -- what has just been written is the proposal of a lock on the target
        rw [hown, Lock.proposal, Proposals.IsProposal, Proposals.parent_key, Option.some_inj] at hk
        refine ⟨(crowd i).expiration, ?_, hera i (Proposals.root_injective hk), ?_⟩
        · rw [hwrote, if_pos rfl, hown]
          exact List.lookup_cons_self
        · exact Option.some_inj.mp (hfind.symm.trans hwritten)
      · cases hnone.symm.trans hfind
  | tick now => exact ⟨h.unlimited, h.last⟩
  | other call =>
    refine ⟨(MemoryStore.limit_apply ..).trans h.unlimited, fun k value hk hfind => ?_⟩
    have hsame : (s.world.store.apply call).2.entries.find? k = s.world.store.entries.find? k :=
      MemoryStore.find?_apply_of_notMem fun hmem => hspares call rfl k hmem hk
    exact h.last k value hk (hsame.symm.trans hfind)

theorem accounted_play (hstaged : Staged crowd s) (h : Accounted target s)
    (hera : ∀ i, (crowd i).target = target → (crowd i).expiration.IsOfEra)
    {incidents : List (Incident ι)}
    (hspares : ∀ call, .other call ∈ incidents → call.Spares target) :
    Accounted target (play crowd s incidents) := by
  induction incidents generalizing s with
  | nil => exact h
  | cons incident more ih =>
    have hstep := h.step hstaged hera fun call hcall => hspares call (hcall ▸ List.mem_cons_self)
    exact ih (staged_step hstaged incident) hstep fun call hcall =>
      hspares call (List.mem_cons_of_mem _ hcall)

/-! ## While nobody acts with a token -/

/-- Nobody whose lock has the proposal under a key gets a reply. -/
def Silent (crowd : Crowd ι) (k : Key) (incidents : List (Incident ι)) : Prop :=
  ∀ i mishap, .reply i mishap ∈ incidents → (crowd i).proposal.1 ≠ k

/-- Two states have the same under a key: the entry, and what has last been written. -/
structure SameAt (k : Key) (s t : State ι) : Prop where
  find?_eq : s.world.store.entries.find? k = t.world.store.entries.find? k
  lastWritten_eq : s.lastWritten k = t.lastWritten k

theorem sameAt_step (hstaged : Staged crowd s) {incident : Incident ι}
    (hsilent : ∀ i mishap, incident = .reply i mishap → (crowd i).proposal.1 ≠ k)
    (hspares : ∀ call, incident = .other call → k ∉ call.written) :
    SameAt k (step crowd s incident) s := by
  cases incident with
  | call i operation =>
    rcases step_call_cases crowd s i operation with hstep | ⟨p, -, hstep⟩
    · rw [hstep]
      exact ⟨rfl, rfl⟩
    · rw [hstep]
      exact ⟨rfl, rfl⟩
  | reply i mishap =>
    have hne : k ≠ (crowd i).proposal.1 := (hsilent i mishap rfl).symm
    rcases step_reply_cases hstaged i mishap with hstep | ⟨stage, reply, world, p, -, ha, hstep⟩
    · rw [hstep]
      exact ⟨rfl, rfl⟩
    · rw [hstep]
      refine ⟨ha.find?_of_notMem fun hmem => hne (Stage.eq_key_of_mem_written hmem), ?_⟩
      exact lookup_written s.written fun _ => hne
  | tick now => exact ⟨rfl, rfl⟩
  | other call => exact ⟨MemoryStore.find?_apply_of_notMem (hspares call rfl), rfl⟩

/-- **While nobody acts with a token, its proposal stays what it is.** -/
theorem sameAt_play (hstaged : Staged crowd s) {incidents : List (Incident ι)}
    (hsilent : Silent crowd k incidents)
    (hspares : ∀ call, .other call ∈ incidents → k ∉ call.written) :
    SameAt k (play crowd s incidents) s := by
  induction incidents generalizing s with
  | nil => exact ⟨rfl, rfl⟩
  | cons incident more ih =>
    have hstep : SameAt k (step crowd s incident) s :=
      sameAt_step hstaged (fun i mishap h => hsilent i mishap (h ▸ List.mem_cons_self))
        fun call h => hspares call (h ▸ List.mem_cons_self)
    have hmore := ih (staged_step hstaged incident)
      (fun i mishap h => hsilent i mishap (List.mem_cons_of_mem _ h))
      fun call h => hspares call (List.mem_cons_of_mem _ h)
    exact ⟨hmore.find?_eq.trans hstep.find?_eq, hmore.lastWritten_eq.trans hstep.lastWritten_eq⟩

/-! ## What blocks an attempt -/

omit [DecidableEq ι] in
theorem registered_iff {token : Token} :
    token.text ∈ Proposals.registered target s.world.store.entries ↔
      ∃ value, s.world.store.entries.find? (Proposals.key target token.text) = some value := by
  rw [Proposals.token_mem_registered_iff, Option.isSome_iff_exists]

omit [DecidableEq ι] in
/-- The proposals that count against a lock are those of other tokens that block. -/
theorem Accounted.rivals_iff_blocks {lock : Lock} (h : Accounted lock.target s) {now : Instant}
    (hnow : now.year ≤ 9999) (other : Token) :
    lock.Rivals s.world.store.entries now other.text ↔
      other ≠ lock.token ∧ s.Blocks lock.target now other := by
  have hname : other.text ≠ lock.token.text ↔ other ≠ lock.token :=
    not_congr ⟨fun htext => Token.ext htext, congrArg Token.text⟩
  refine and_congr hname ?_
  rw [State.Blocks, registered_iff]
  constructor
  · rintro ⟨value, hfind, hactive⟩
    obtain ⟨e, hlast, hera, rfl⟩ := h.last _ value (Proposals.parent_key lock.target other) hfind
    rw [Proposals.payloadIsActive_encode_eq hera hnow] at hactive
    exact ⟨⟨_, hfind⟩, e, hlast, hactive⟩
  · rintro ⟨⟨value, hfind⟩, e, hlast, hactive⟩
    obtain ⟨e', hlast', hera, rfl⟩ := h.last _ value (Proposals.parent_key lock.target other) hfind
    obtain rfl : e = e' := Option.some_inj.mp (hlast.symm.trans hlast')
    rw [← Proposals.payloadIsActive_encode_eq hera hnow] at hactive
    exact ⟨_, hfind, hactive⟩

omit [DecidableEq ι] in
/-- **An attempt that runs alone** succeeds if nothing blocks it and fails with a conflict otherwise.
Either way it leaves the proposals of others as they are. -/
theorem Accounted.run_acquire {lock : Lock} (h : Accounted lock.target s) (draw : Token)
    {now : Instant} (hnow : now.year ≤ 9999) :
    ((lock.acquire.run (World.serve draw) ⟨s.world.store, now⟩).1 = .ok () ↔
      ∀ other, other ≠ lock.token → ¬ s.Blocks lock.target now other) ∧
    ((lock.acquire.run (World.serve draw) ⟨s.world.store, now⟩).1 ≠ .ok () →
      (lock.acquire.run (World.serve draw) ⟨s.world.store, now⟩).1 =
        .error (.lockConflict lock.target none)) ∧
    ∀ k, k ≠ Proposals.key lock.target lock.token.text →
      (lock.acquire.run (World.serve draw) ⟨s.world.store, now⟩).2.store.entries.find? k =
        s.world.store.entries.find? k := by
  by_cases hblocked : ∃ other, other ≠ lock.token ∧ s.Blocks lock.target now other
  · obtain ⟨other, hblocks⟩ := hblocked
    have hrival := (h.rivals_iff_blocks hnow other).mpr hblocks
    rw [lock.run_acquire_of_rival draw ⟨s.world.store, now⟩ h.unlimited hrival]
    refine ⟨⟨nofun, fun hfree => absurd hblocks.2 (hfree other hblocks.1)⟩, fun _ => rfl, ?_⟩
    intro k hk
    rw [MemoryStore.find?_delete_of_ne hk, Lock.find?_posted_of_ne lock hk]
  · have hfree : ∀ other : Token, ¬ lock.Rivals s.world.store.entries now other.text :=
      fun other hrival => hblocked ⟨other, (h.rivals_iff_blocks hnow other).mp hrival⟩
    rw [lock.run_acquire_of_free draw ⟨s.world.store, now⟩ h.unlimited hfree]
    refine ⟨⟨fun _ other hne hblocks => hblocked ⟨other, hne, hblocks⟩, fun _ => rfl⟩,
      fun hfailed => absurd rfl hfailed, ?_⟩
    intro k hk
    exact Lock.find?_posted_of_ne lock hk _

/-- A token whose release has got its reply blocks nobody. -/
theorem not_blocks_of_released {i : ι} (hidle : (s.party i).activity = .idle) (now : Instant) :
    ¬ (play crowd s [.call i .release, .reply i none]).Blocks (crowd i).target now
      (crowd i).token := by
  rintro ⟨hregistered, -⟩
  obtain ⟨value, hfind⟩ := registered_iff.mp hregistered
  obtain ⟨p, hp, hcall⟩ := step_call crowd hidle .release
  have hstands : StandsAt (crowd i) ((step crowd s (.call i .release)).party i)
      (.follow (s.party i).history .release false (.stands .release)) := by
    rw [hcall]
    show StandsAt (crowd i) (Function.update s.party i p i) _
    rw [Function.update_self]
    exact hp
  obtain ⟨p', -, hreply⟩ := step_reply hstands rfl none rfl
  rw [play_cons, play_cons, hreply, hcall] at hfind
  cases (MemoryStore.find?_delete s.world.store _).symm.trans hfind

/-- **What a stopped party has left blocks others exactly as long as its expiration says.** Take any
state that a crowd comes to on a target that was unused, whichever calls have gone wrong and wherever
parties have stopped.

An attempt that runs alone from there succeeds if no other token blocks it, that is, if none that is
registered was last written with an expiration that is active. Otherwise it fails with a conflict
that names the target. Either way the other entries stay.

As long as nobody acts with a registered token, it goes on to block others while the expiration it
was last written with is active, and no longer; once it is released it blocks nobody. -/
theorem blocks_until_expiry (crowd : Crowd ι) (target : Key)
    (hera : ∀ i, (crowd i).target = target → (crowd i).expiration.IsOfEra) (world : World)
    (hlimit : world.store.limit = 0)
    (hnone : ∀ k, Proposals.IsProposal target k → world.store.entries.find? k = none)
    (incidents : List (Incident ι))
    (hspares : ∀ call, .other call ∈ incidents → call.Spares target) {s : State ι}
    (hs : play crowd (start world) incidents = s) :
    (∀ (lock : Lock) (draw : Token) (now : Instant), lock.target = target → now.year ≤ 9999 →
      ((lock.acquire.run (World.serve draw) ⟨s.world.store, now⟩).1 = .ok () ↔
        ∀ other, other ≠ lock.token → ¬ s.Blocks target now other) ∧
      ((lock.acquire.run (World.serve draw) ⟨s.world.store, now⟩).1 ≠ .ok () →
        (lock.acquire.run (World.serve draw) ⟨s.world.store, now⟩).1 =
          .error (.lockConflict target none)) ∧
      ∀ k, k ≠ Proposals.key target lock.token.text →
        (lock.acquire.run (World.serve draw) ⟨s.world.store, now⟩).2.store.entries.find? k =
          s.world.store.entries.find? k) ∧
    (∀ other : Token, other.text ∈ Proposals.registered target s.world.store.entries →
      ∃ e, s.lastWritten (Proposals.key target other.text) = some e ∧
        ∀ more, Silent crowd (Proposals.key target other.text) more →
          (∀ call, .other call ∈ more → call.Spares target) →
          ∀ now, (play crowd s more).Blocks target now other ↔ e.isActiveAt now = true) ∧
    (∀ i, (crowd i).target = target → (s.party i).activity = .idle →
      ∀ now, ¬ (play crowd s [.call i .release, .reply i none]).Blocks target now
        (crowd i).token) := by
  have hstaged : Staged crowd s := hs ▸ staged_play (staged_start crowd world) incidents
  have haccounted : Accounted target s :=
    hs ▸ accounted_play (staged_start crowd world) (accounted_start hlimit hnone) hera hspares
  refine ⟨?_, ?_, ?_⟩
  · rintro lock draw now rfl hnow
    exact haccounted.run_acquire draw hnow
  · intro other hregistered
    obtain ⟨value, hfind⟩ := registered_iff.mp hregistered
    have hproposal := Proposals.parent_key target other
    obtain ⟨e, hlast, -, -⟩ := haccounted.last _ value hproposal hfind
    refine ⟨e, hlast, fun more hsilent hmore now => ?_⟩
    have hsame := sameAt_play hstaged hsilent fun call hcall hmem => hmore call hcall _ hmem hproposal
    rw [State.Blocks, registered_iff, hsame.find?_eq, hsame.lastWritten_eq]
    constructor
    · rintro ⟨-, e', hlast', hactive⟩
      obtain rfl : e = e' := Option.some_inj.mp (hlast.symm.trans hlast')
      exact hactive
    · exact fun hactive => ⟨⟨value, hfind⟩, e, hlast, hactive⟩
  · rintro i rfl hidle now
    exact not_blocks_of_released hidle now

/-- The locks of three parties on one target, the first of which expires after a minute. -/
def stopping : Crowd (Fin 3)
  | 0 => ⟨Key.ofString "a", .numbered 0, .at ⟨60, 0, by decide⟩⟩
  | 1 => ⟨Key.ofString "a", .numbered 1, .never⟩
  | 2 => ⟨Key.ofString "a", .numbered 2, .never⟩

section

-- the numbers of the parties are read with an instance by name
local instance neZeroThree : NeZero 3 := ⟨by decide⟩

/-- The first party stops once it has written its proposal. The second one meets with it and fails to
withdraw its own. -/
def stoppingRun : List (Incident (Fin 3)) :=
  [.call 0 .acquire, .reply 0 none, .call 1 .acquire, .reply 1 none, .reply 1 none, .reply 1 none,
    .reply 1 none, .reply 1 (some (.refused (.backend { cause := "" })))]

end

/-- What the first party has left blocks for a minute, what the second one has left blocks for ever. -/
theorem blocks_until_expiry_of_two :
    (∀ now, (play stopping (start ⟨.unlimited, .epoch⟩) stoppingRun).Blocks (Key.ofString "a") now
      (.numbered 0) ↔ now < ⟨60, 0, by decide⟩) ∧
    (∀ now, (play stopping (start ⟨.unlimited, .epoch⟩) stoppingRun).Blocks (Key.ofString "a") now
      (.numbered 1)) ∧
    ((stopping 2).acquire.run (World.serve (.numbered 2))
      ⟨(play stopping (start ⟨.unlimited, .epoch⟩) stoppingRun).world.store,
        ⟨60, 0, by decide⟩⟩).1 = .error (.lockConflict (Key.ofString "a") none) := by
  have hera : ∀ i, (stopping i).target = Key.ofString "a" → (stopping i).expiration.IsOfEra := by
    intro i _
    match i with
    | 0 =>
      show (0 : Int) ≤ Instant.year ⟨60, 0, by decide⟩
      decide +kernel
    | 1 => trivial
    | 2 => trivial
  obtain ⟨hattempt, hleft, -⟩ := blocks_until_expiry stopping (Key.ofString "a") hera
    ⟨.unlimited, .epoch⟩ rfl (fun _ _ => rfl) stoppingRun (by simp [stoppingRun]) rfl
  obtain ⟨e, hlast, hfirst⟩ := hleft (.numbered 0) (by decide +kernel)
  obtain rfl : e = .at ⟨60, 0, by decide⟩ := Option.some_inj.mp (hlast.symm.trans (by decide +kernel))
  obtain ⟨e', hlast', hsecond⟩ := hleft (.numbered 1) (by decide +kernel)
  obtain rfl : e' = .never := Option.some_inj.mp (hlast'.symm.trans (by decide +kernel))
  -- nothing has happened since
  have hfirst := hfirst [] nofun nofun
  have hsecond := hsecond [] nofun nofun
  rw [play_nil] at hfirst hsecond
  obtain ⟨hok, hconflict, -⟩ := hattempt (stopping 2) (.numbered 2) ⟨60, 0, by decide⟩ rfl
    (by decide +kernel)
  refine ⟨fun now => (hfirst now).trans decide_eq_true_iff, fun now => (hsecond now).mpr rfl, ?_⟩
  refine hconflict fun hrun => ?_
  exact hok.mp hrun (.numbered 1) (by decide +kernel) ((hsecond _).mpr rfl)

end Crowd

end ObjectStore

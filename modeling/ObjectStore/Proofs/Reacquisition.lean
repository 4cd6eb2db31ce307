import ObjectStore.Proofs.Quiescence
import ObjectStore.Proofs.Undisturbed

/-! # Taking a lock again

A holder that takes its lock again writes its proposal anew and looks at all others, like anybody
else. It does not lose the lock to another holder: there is none. But it may find the proposal of a
party that has written it and has not come to withdraw it yet. Then the attempt fails, and withdraws
the proposal by which the lock was held.

* **`Contest.Keeps`** — a party's latest completed operation has taken the lock, and its expiration
  has not come; it may be taking the lock again.
* **`Contest.StageReachable.unpassed`** — no other party whose proposal counts has passed over one
  that keeps the lock.
* **`Contest.kept_unless_contended`** — the proposal of such a party is in the store; all others that
  count are of parties in the middle of an attempt, and only these can make it lose the lock.
* **`Contest.loses_lock_by_reacquiring`** — a run in which it does. -/

namespace ObjectStore

open Lock (Stage Course)

/-- An operation that has a proposal and has not found that nothing is against it is an attempt that
has written. -/
theorem Lock.Stage.Fits.of_not_passedOver {stage : Stage} {operation : LockOperation} {wrote : Bool}
    {before : Prop} {name : String} (h : stage.Fits operation wrote)
    (hposted : stage.IsPosted before) (hnot : ¬ stage.PassedOver name before) :
    operation = .acquire ∧ wrote = true := by
  cases operation with
  | acquire =>
    cases stage with
    | write => exact absurd hposted hnot
    | release => exact h.elim
    | read => exact ⟨rfl, h⟩
    | list now => exact ⟨rfl, h⟩
    | load now other more => exact ⟨rfl, h⟩
    | withdraw failure => exact ⟨rfl, h⟩
  | release =>
    obtain ⟨-, rfl⟩ := h
    exact absurd hposted hnot

namespace Contest

variable {ι : Type} {contest : Contest ι} {world : World}

/-- A party keeps the lock if its latest completed operation was an attempt that succeeded and its
expiration has not come. It may be in the middle of a further operation. -/
def Keeps {ρ : Type} (contest : Contest ι) (s : State ι ρ) (i : ι) : Prop :=
  (∃ wrote earlier, (s.party i).history = ⟨.acquire, wrote, .ok ()⟩ :: earlier) ∧
    (contest.expiration i).isActiveAt s.world.clock = true

/-- The proposal of a party is in the store and counts. -/
def Counts {ρ : Type} (contest : Contest ι) (s : State ι ρ) (i : ι) : Prop :=
  ∃ value, s.world.store.entries.find? (contest.key i) = some value ∧
    Proposals.payloadIsActive value s.world.clock = true

/-! ## Nobody passes over a party that keeps the lock -/

section Unpassed

variable {s t : State ι Stage}

/-- No other party whose proposal counts has passed over one that stands. -/
def Unpassed (contest : Contest ι) (s : State ι Stage) : Prop :=
  ∀ i j, i ≠ j → standing (s.party i).history = true →
    (s.party j).PassedOver (contest.token i).text →
    ¬ ((contest.expiration i).isActiveAt s.world.clock = true ∧
      (contest.expiration j).isActiveAt s.world.clock = true)

variable [DecidableEq ι]

/-- If one party alone changes, it is enough that it newly passes over nobody that stands, and newly
stands only where nobody has passed over it. -/
theorem Unpassed.update (hu : contest.Unpassed s) {k : ι} {p : Party Stage} {world : World}
    (hclock : world.clock = s.world.clock)
    (hover : ∀ i, i ≠ k → standing (s.party i).history = true →
      (contest.expiration i).isActiveAt s.world.clock = true →
      p.PassedOver (contest.token i).text → (s.party k).PassedOver (contest.token i).text)
    (hstands : standing p.history = true → standing (s.party k).history = true ∨
      ∀ j, j ≠ k → (s.party j).PassedOver (contest.token k).text →
        ¬ ((contest.expiration k).isActiveAt s.world.clock = true ∧
          (contest.expiration j).isActiveAt s.world.clock = true)) :
    contest.Unpassed ⟨world, Function.update s.party k p⟩ := by
  intro i j hij hstanding hpassed hactive
  dsimp only at hstanding hpassed hactive
  rw [hclock] at hactive
  by_cases hjk : j = k
  · subst hjk
    rw [Function.update_of_ne hij] at hstanding
    rw [Function.update_self] at hpassed
    exact hu i j hij hstanding (hover i hij hstanding hactive.1 hpassed) hactive
  · rw [Function.update_of_ne hjk] at hpassed
    by_cases hik : i = k
    · subst hik
      rw [Function.update_self] at hstanding
      rcases hstands hstanding with hbefore | hfree
      · exact hu i j hij hbefore hpassed hactive
      · exact hfree j hjk hpassed hactive
    · rw [Function.update_of_ne hik] at hstanding
      exact hu i j hij hstanding hpassed hactive

/-- **No step passes over a party that stands.** Its proposal is in the store, so whoever looks finds
it; and whoever comes to stand has passed over everybody, so nobody has passed over it. -/
theorem StageStep.unpassed (h : contest.StageStep Weather.rough s t) (hs : contest.Invariant s)
    (hu : contest.Unpassed s) : contest.Unpassed t := by
  have ht := h.invariant hs
  cases h with
  | call k operation hidle =>
    exact hu.update rfl (fun i _ _ _ hpassed => (Party.passedOver_first hidle).mp hpassed) .inl
  | @act k operation wrote stage reply world hbusy ha =>
    refine hu.update ha.clock_eq (fun i hik hstanding hactive hpassed => ?_) fun hstanding => ?_
    · have hother : contest.token i ≠ contest.token k :=
        fun htoken => hik (contest.token_injective htoken)
      rw [Party.passedOver_of_busy hbusy]
      exact Stage.passedOver_of_after (contest.lock k) hother ((hs.coherent k).fits hbusy)
        ((hs.coherent k).hasRead hbusy) ha (hs.posted i (Party.isPosted_of_standing hstanding))
        (payloadIsActive_of_le hactive) hpassed
    · cases hcourse : stage.after (contest.lock k) reply with
      | stands stage' =>
        -- the operation goes on, so none has been completed since
        rw [hcourse] at hstanding
        exact .inl hstanding
      | ended result =>
        rw [hcourse] at hstanding ht
        refine .inr fun j hjk hpassed => ?_
        have happart := ht.apart k j hjk.symm
        simp only [Function.update_self, Function.update_of_ne hjk, ha.clock_eq] at happart
        exact happart hstanding hpassed
  | tick later hlater =>
    exact fun i j hij hstanding hpassed hactive => hu i j hij hstanding hpassed
      ⟨Expiration.isActiveAt_of_le hlater hactive.1, Expiration.isActiveAt_of_le hlater hactive.2⟩
  | other call hcall => exact hu

theorem StageReachable.unpassed (h : contest.StageReachable Weather.rough world s) :
    contest.Unpassed s := by
  induction h with
  | refl => exact fun i j _ hstanding => by cases hstanding
  | tail hreach hstep ih =>
    have hs := StageReachable.invariant hreach
    exact hstep.unpassed hs ih

omit [DecidableEq ι] in
/-- Whoever keeps the lock stands. -/
theorem Invariant.standing_of_keeps (hs : contest.Invariant s) {i : ι} (h : contest.Keeps s i) :
    standing (s.party i).history = true := by
  obtain ⟨⟨wrote, earlier, hhistory⟩, -⟩ := h
  exact (hs.coherent i).standing_of_acquired hhistory

omit [DecidableEq ι] in
/-- Beside a party that keeps the lock, a proposal counts only in the middle of an attempt. -/
theorem busy_of_counts (hs : contest.Invariant s) (ht : contest.Tidy s) (hu : contest.Unpassed s)
    {i j : ι} (hi : contest.Keeps s i) (hji : j ≠ i) (hera : (contest.expiration j).IsOfEra)
    (hyear : s.world.clock.year ≤ 9999) (hj : contest.Counts s j) :
    ∃ stage, (s.party j).activity = .busy .acquire true stage := by
  obtain ⟨value, hfind, hcounts⟩ := hj
  have hposted : (s.party j).IsPosted := by
    by_contra hnone
    rw [ht.absent j hnone] at hfind
    cases hfind
  have hactive : (contest.expiration j).isActiveAt s.world.clock = true := by
    rw [hs.posted j hposted, Option.some_inj] at hfind
    rwa [← hfind, payload, Proposals.payloadIsActive_encode_eq hera hyear] at hcounts
  have hunpassed : ¬ (s.party j).PassedOver (contest.token i).text :=
    fun hpassed => hu i j hji.symm (hs.standing_of_keeps hi) hpassed ⟨hi.2, hactive⟩
  cases hactivity : (s.party j).activity with
  | idle =>
    rw [Party.passedOver_of_idle hactivity] at hunpassed
    exact absurd ((Party.isPosted_of_idle hactivity).mp hposted) hunpassed
  | busy operation wrote stage =>
    have hfits := (hs.coherent j).fits hactivity
    rw [Party.passedOver_of_busy hactivity] at hunpassed
    rw [Party.isPosted_of_busy hactivity] at hposted
    obtain ⟨rfl, rfl⟩ := hfits.of_not_passedOver hposted hunpassed
    exact ⟨stage, rfl⟩

end Unpassed

/-! ## Attempts that run alone -/

/-- In a tidy store the proposals against a party are those of other parties that count. -/
theorem Tidy.rivals_iff {s : State ι Stage} (ht : contest.Tidy s) (i : ι) (other : Token) :
    (contest.lock i).Rivals s.world.store.entries s.world.clock other.text ↔
      ∃ j, j ≠ i ∧ other = contest.token j ∧ contest.Counts s j := by
  constructor
  · rintro ⟨hname, value, hfind, hactive⟩
    -- the entry is there, so it is the proposal of a party
    obtain ⟨j, hkey⟩ : ∃ j, Proposals.key contest.target other.text = contest.key j := by
      by_contra hnone
      have hparent := Proposals.parent_key contest.target other
      cases (ht.owned _ hparent (not_exists.mp hnone)).symm.trans hfind
    have hother : other = contest.token j := Proposals.key_injective hkey
    refine ⟨j, ?_, hother, value, hkey ▸ hfind, hactive⟩
    rintro rfl
    exact hname (congrArg Token.text hother)
  · rintro ⟨j, hji, rfl, value, hfind, hactive⟩
    exact ⟨fun htext => hji (contest.token_injective (Token.ext htext)), value, hfind, hactive⟩

/-- An attempt that runs alone in a tidy store succeeds if no proposal of another party counts, and
otherwise leaves no proposal of its own. -/
theorem Tidy.run_acquire {s : State ι Stage} (ht : contest.Tidy s)
    (hlimit : s.world.store.limit = 0) {i : ι} {draw : Token} {outcome : Result Unit} {world' : World}
    (hrun : (contest.lock i).acquire.run (World.serve draw) s.world = (outcome, world')) :
    (outcome = .ok () ↔ ∀ j, j ≠ i → ¬ contest.Counts s j) ∧
    (outcome = .ok () → world'.store.entries.find? (contest.key i) = some (contest.payload i)) ∧
    (outcome ≠ .ok () → outcome = .error (.lockConflict contest.target none) ∧
      world'.store.entries.find? (contest.key i) = none) := by
  by_cases hcontended : ∃ j, j ≠ i ∧ contest.Counts s j
  · obtain ⟨j, hji, hcounts⟩ := hcontended
    have hrival := (ht.rivals_iff i (contest.token j)).mpr ⟨j, hji, rfl, hcounts⟩
    obtain ⟨rfl, rfl⟩ := Prod.mk.inj
      (hrun.symm.trans ((contest.lock i).run_acquire_of_rival draw s.world hlimit hrival))
    exact ⟨⟨nofun, fun hfree => absurd hcounts (hfree j hji)⟩, nofun,
      fun _ => ⟨rfl, MemoryStore.find?_delete ..⟩⟩
  · have hfree : ∀ other : Token,
        ¬ (contest.lock i).Rivals s.world.store.entries s.world.clock other.text := by
      intro other hrival
      obtain ⟨j, hji, -, hcounts⟩ := (ht.rivals_iff i other).mp hrival
      exact hcontended ⟨j, hji, hcounts⟩
    obtain ⟨rfl, rfl⟩ := Prod.mk.inj
      (hrun.symm.trans ((contest.lock i).run_acquire_of_free draw s.world hlimit hfree))
    exact ⟨⟨fun _ j hji hcounts => hcontended ⟨j, hji, hcounts⟩, fun _ => rfl⟩,
      fun _ => Lock.find?_posted_self hlimit, fun hfailed => absurd rfl hfailed⟩

variable [DecidableEq ι] {weather : Weather} {s : State ι (Program (Result Unit))} {i : ι}

/-- No step of a contest changes the limit of the store. -/
theorem Reachable.limit_eq (h : contest.Reachable weather world s) :
    s.world.store.limit = world.store.limit := by
  induction h with
  | refl => rfl
  | tail _ hstep ih =>
    cases hstep with
    | call i operation hidle => exact ih
    | act hbusy ha => exact ha.limit_eq.trans ih
    | tick later hlater => exact ih
    | other call hcall => exact (MemoryStore.limit_apply ..).trans ih

/-- **A lock is kept until release or expiry, unless its holder takes it again at the wrong time.**
In every state that a contest for an unused target comes to without faults, the proposal of a party
that keeps the lock is in the store, and any other that counts there is of a party in the middle of
an attempt. If the holder takes the lock again and nobody else takes a step meanwhile, this succeeds
and leaves the proposal in the store exactly if there is none of these; otherwise it fails, and the
proposal by which the lock was held is gone. -/
theorem kept_unless_contended (h : contest.Reachable Weather.fair world s)
    (hlimit : world.store.limit = 0) (hunused : contest.IsUnused world)
    (hi : contest.Keeps s i) :
    s.world.store.entries.find? (contest.key i) = some (contest.payload i) ∧
    ((∀ j, (contest.expiration j).IsOfEra) → s.world.clock.year ≤ 9999 →
      ∀ j, j ≠ i → contest.Counts s j →
        ∃ rest, (s.party j).activity = .busy .acquire true rest) ∧
    ∀ outcome world', (contest.lock i).acquire.run (World.serve (contest.token i)) s.world =
        (outcome, world') →
      (outcome = .ok () ↔ ∀ j, j ≠ i → ¬ contest.Counts s j) ∧
      (outcome = .ok () → world'.store.entries.find? (contest.key i) = some (contest.payload i)) ∧
      (outcome ≠ .ok () → outcome = .error (.lockConflict contest.target none) ∧
        world'.store.entries.find? (contest.key i) = none) := by
  have hlimit' := h.limit_eq.trans hlimit
  obtain ⟨s, rfl, hreach⟩ := exists_stages h
  have hs := StageReachable.invariant (hreach.mono (Weather.fair_milder _))
  have ht := StageReachable.tidy (hreach.mono (Weather.fair_milder _)) hunused
  have hu := StageReachable.unpassed (hreach.mono (Weather.fair_milder _))
  have hkeeps : contest.Keeps s i := by
    obtain ⟨⟨wrote, earlier, hhistory⟩, hactive⟩ := hi
    exact ⟨⟨wrote, earlier, (history_programs s i).symm.trans hhistory⟩, hactive⟩
  refine ⟨?_, ?_, ?_⟩
  · exact hs.posted i (Party.isPosted_of_standing (hs.standing_of_keeps hkeeps))
  · intro hera hyear j hji hcounts
    obtain ⟨stage, hbusy⟩ := busy_of_counts hs ht hu hkeeps hji (hera j) hyear hcounts
    refine ⟨stage.program (contest.lock j), ?_⟩
    show ((s.party j).map _).activity = _
    rw [Party.map, hbusy]
  · intro outcome world' hrun
    exact ht.run_acquire hlimit' hrun

/-- A lock taken and taken again while nobody else wants it is kept. -/
theorem kept_unless_contended_alone : ∃ s,
    (generated (Key.ofString "a")).Reachable Weather.fair ⟨.unlimited, .epoch⟩ s ∧
    (generated (Key.ofString "a")).Keeps s 0 ∧
    (((generated (Key.ofString "a")).lock 0).acquire.run (World.serve (.numbered 0)) s.world).1 =
      .ok () ∧
    s.world.store.entries.find? ((generated (Key.ofString "a")).key 0) = some [] := by
  obtain ⟨wrote, hreach⟩ := (generated (Key.ofString "a")).reaches_call_end Weather.fair
    (s := start ⟨.unlimited, .epoch⟩) 0 .acquire rfl
  obtain ⟨hstored, hbusy, hagain⟩ := kept_unless_contended hreach rfl (fun _ _ => rfl) (i := 0)
    ⟨⟨wrote, [], rfl⟩, rfl⟩
  have hyear : (((generated (Key.ofString "a")).lock 0).acquire.run (World.serve (.numbered 0))
      ⟨.unlimited, .epoch⟩).2.clock.year ≤ 9999 := by decide +kernel
  refine ⟨_, hreach, ⟨⟨wrote, [], rfl⟩, rfl⟩, (hagain _ _ rfl).1.mpr fun j hj hcounts => ?_, hstored⟩
  -- everybody else is idle
  obtain ⟨rest, hrest⟩ := hbusy (fun _ => trivial) hyear j hj hcounts
  simp only [Function.update_of_ne hj] at hrest
  cases hrest

/-- An idle party can always begin an attempt and write its proposal in a store without limit. -/
theorem reaches_written (i : ι) (hidle : (s.party i).activity = .idle)
    (hlimit : s.world.store.limit = 0) :
    Relation.ReflTransGen (contest.Step weather) s
      ⟨{ s.world with store := (contest.lock i).posted s.world.store },
        Function.update s.party i
          ⟨.busy .acquire true (Stage.read.program (contest.lock i)), (s.party i).history⟩⟩ := by
  obtain ⟨next, hprogram, hafter⟩ := Stage.write.program_step (contest.lock i)
  have hbegun : Party.goOn (s.party i).history .acquire false (contest.lock i).acquire =
      ⟨.busy .acquire false (.step (Stage.write.action (contest.lock i)) next),
        (s.party i).history⟩ := by
    rw [show (contest.lock i).acquire = _ from hprogram]
    rfl
  have hcall : contest.Step weather s ⟨s.world, Function.update s.party i
      ⟨.busy .acquire false (.step (Stage.write.action (contest.lock i)) next),
        (s.party i).history⟩⟩ := hbegun ▸ Step.call i .acquire hidle
  have hwrite : contest.Step weather ⟨s.world, Function.update s.party i
      ⟨.busy .acquire false (.step (Stage.write.action (contest.lock i)) next),
        (s.party i).history⟩⟩ _ := Step.answered (.of_serve (Lock.serve_write hlimit)) s.party
  have hquiet : (next (.ok ())).quieted = (Course.stands .read).program (contest.lock i) :=
    congrArg Prod.snd (hafter (.ok ()))
  rw [Party.goOn_eq_map_follow hquiet] at hwrite
  exact (Relation.ReflTransGen.single hcall).tail hwrite

/-- The world when the first party has taken its lock and the second one has written its proposal. -/
def contended : World :=
  let taken := (((generated (Key.ofString "a")).lock 0).acquire.run (World.serve (.numbered 0))
    ⟨.unlimited, .epoch⟩).2
  { taken with store := ((generated (Key.ofString "a")).lock 1).posted taken.store }

theorem exists_contended : ∃ s wrote,
    (generated (Key.ofString "a")).Reachable Weather.fair ⟨.unlimited, .epoch⟩ s ∧
    s.world = contended ∧ s.party 0 = ⟨.idle, [⟨.acquire, wrote, .ok ()⟩]⟩ := by
  obtain ⟨wrote, hfirst⟩ := (generated (Key.ofString "a")).reaches_call_end Weather.fair
    (s := start ⟨.unlimited, .epoch⟩) 0 .acquire rfl
  have hsecond := hfirst.trans (reaches_written 1 rfl (Reachable.limit_eq hfirst))
  exact ⟨_, wrote, hsecond, rfl, rfl⟩

/-- **A holder can lose its lock by taking it again.** The first party holds the lock. The second one
writes its proposal, and before it goes on the first takes its lock again: it finds the proposal,
fails, and withdraws its own, which never expires. -/
theorem loses_lock_by_reacquiring : ∃ s t,
    (generated (Key.ofString "a")).Reachable Weather.fair ⟨.unlimited, .epoch⟩ s ∧
    (generated (Key.ofString "a")).Keeps s 0 ∧ (s.party 0).activity = .idle ∧
    Relation.ReflTransGen ((generated (Key.ofString "a")).Step Weather.fair) s t ∧
    (t.party 0).activity = .idle ∧
    (∃ wrote, (t.party 0).history =
      ⟨.acquire, wrote, .error (.lockConflict (Key.ofString "a") none)⟩ :: (s.party 0).history) ∧
    t.world.store.entries.find? ((generated (Key.ofString "a")).key 0) = none := by
  obtain ⟨s, wrote, hreach, hworld, hparty⟩ := exists_contended
  have hidle : (s.party 0).activity = .idle := congrArg Party.activity hparty
  obtain ⟨wrote', hagain⟩ :=
    (generated (Key.ofString "a")).reaches_call_end Weather.fair 0 .acquire hidle
  -- how the second attempt of the first party ends does not depend on more than the world
  generalize hrun : (LockOperation.acquire.program ((generated (Key.ofString "a")).lock 0)).run
    (World.serve ((generated (Key.ofString "a")).token 0)) s.world = ended at hagain
  have hresult : ended.1 = .error (.lockConflict (Key.ofString "a") none) := by
    rw [← hrun, hworld]
    decide +kernel
  have hgone : ended.2.store.entries.find? ((generated (Key.ofString "a")).key 0) = none := by
    rw [← hrun, hworld]
    decide +kernel
  rw [hresult] at hagain
  refine ⟨s, _, hreach, ⟨⟨wrote, [], congrArg Party.history hparty⟩, rfl⟩, hidle, hagain, ?_,
    ⟨wrote', ?_⟩, hgone⟩
  · dsimp only
    rw [Function.update_self]
  · dsimp only
    rw [Function.update_self]

end Contest

end ObjectStore

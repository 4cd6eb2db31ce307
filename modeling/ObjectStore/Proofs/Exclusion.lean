import ObjectStore.Proofs.Crowd

/-! # Mutual exclusion

Of two parties whose attempts succeed, the one that lists later finds the proposal of the other. So
no two parties can have **passed over** each other while both their proposals count, and whoever
holds the lock has passed over everybody.

* **`Party.IsPosted`** — whether a party's proposal has to be in the store.
* **`Party.PassedOver`** — whether a party has found nothing against it from another token.
* **`Contest.Invariant`** — what holds in every state, preserved by every step
  (`StageStep.invariant`).
* **`Contest.Holds`** — when a party holds the lock, which can be decided in any given state.
* **`Contest.holder_unique`** — at most one party holds the lock. -/

namespace ObjectStore

open Lock (Stage Course)

/-- Whether the latest attempt that wrote a proposal succeeded, and no release came after it. -/
def standing : List Completed → Bool
  | [] => false
  | ⟨.release, _, _⟩ :: _ => false
  | ⟨.acquire, true, result⟩ :: _ => result.isOk
  | ⟨.acquire, false, _⟩ :: earlier => standing earlier

namespace Lock.Stage

/-- Whether there has to be a proposal at a stage; `before` tells whether there was one before the
operation. -/
def IsPosted (before : Prop) : Stage → Prop
  | .write => before
  | .release => before
  | .read => True
  | .list _ => True
  | .load _ _ _ => True
  | .withdraw _ => True

/-- Whether an attempt has found nothing against it from a name; `before` tells whether an earlier
attempt of the party has. -/
def PassedOver (name : String) (before : Prop) : Stage → Prop
  | .write => before
  | .release => before
  | .load _ other more => name ∉ other :: more
  | .read => False
  | .list _ => False
  | .withdraw _ => False

/-- Whether a stage belongs to an operation that has or has not written a proposal. -/
def Fits : LockOperation → (wrote : Bool) → Stage → Prop
  | .acquire, wrote, .write => wrote = false
  | .acquire, _, .release => False
  | .acquire, wrote, _ => wrote = true
  | .release, wrote, stage => wrote = false ∧ stage = .release

/-- Whether the clock read at a stage has been reached. -/
def HasRead (clock : Instant) : Stage → Prop
  | .list now => now ≤ clock
  | .load now _ _ => now ≤ clock
  | _ => True

end Lock.Stage

namespace Party

/-- Whether a party's proposal has to be in the store. -/
def IsPosted (p : Party Stage) : Prop :=
  match p.activity with
  | .idle => standing p.history = true
  | .busy _ _ stage => stage.IsPosted (standing p.history = true)

/-- Whether a party has found nothing against it from a name. -/
def PassedOver (name : String) (p : Party Stage) : Prop :=
  match p.activity with
  | .idle => standing p.history = true
  | .busy _ _ stage => stage.PassedOver name (standing p.history = true)

/-- What holds of a party by itself. -/
structure Coherent (clock : Instant) (p : Party Stage) : Prop where
  fits : ∀ {operation wrote stage}, p.activity = .busy operation wrote stage →
    stage.Fits operation wrote
  hasRead : ∀ {operation wrote stage}, p.activity = .busy operation wrote stage →
    stage.HasRead clock
  wrote : ∀ c ∈ p.history, c.operation = .acquire → c.result.isOk = true → c.wrote = true

variable {p : Party Stage} {name : String} {clock : Instant}

theorem isPosted_of_busy {operation : LockOperation} {wrote : Bool} {stage : Stage}
    (h : p.activity = .busy operation wrote stage) :
    p.IsPosted ↔ stage.IsPosted (standing p.history = true) := by
  rw [IsPosted, h]

theorem passedOver_of_busy {operation : LockOperation} {wrote : Bool} {stage : Stage}
    (h : p.activity = .busy operation wrote stage) :
    p.PassedOver name ↔ stage.PassedOver name (standing p.history = true) := by
  rw [PassedOver, h]

theorem isPosted_of_idle (h : p.activity = .idle) : p.IsPosted ↔ standing p.history = true := by
  rw [IsPosted, h]

theorem passedOver_of_idle (h : p.activity = .idle) :
    p.PassedOver name ↔ standing p.history = true := by
  rw [PassedOver, h]

/-- A party that stands has its proposal in the store, also while it takes the lock again. -/
theorem isPosted_of_standing (h : standing p.history = true) : p.IsPosted := by
  cases hactivity : p.activity with
  | idle => exact (isPosted_of_idle hactivity).mpr h
  | busy operation wrote stage =>
    rw [isPosted_of_busy hactivity]
    cases stage with
    | write => exact h
    | release => exact h
    | read => trivial
    | list now => trivial
    | load now other more => trivial
    | withdraw failure => trivial

/-- Whoever has passed over another has a proposal. -/
theorem PassedOver.isPosted (h : p.PassedOver name) : p.IsPosted := by
  rw [PassedOver] at h
  rw [IsPosted]
  cases hactivity : p.activity with
  | idle => rwa [hactivity] at h
  | busy operation wrote stage =>
    rw [hactivity] at h
    cases stage with
    | write => exact h
    | release => exact h
    | read => exact h.elim
    | list now => exact h.elim
    | load now other more => exact trivial
    | withdraw failure => exact h.elim

end Party

/-! ## One reply

What the reply to its next action means for a party that stands at a stage. -/

namespace Lock.Stage

variable {lock : Lock} {stage : Stage} {weather : Weather} {world world' : World}
  {operation : LockOperation} {wrote : Bool} {history : List Completed} {name : String}
  {reply : (stage.action lock).Reply}

/-- A course that belongs to an operation, where only an attempt that has written can succeed. -/
def FitsCourse (clock : Instant) (operation : LockOperation) (wrote : Bool) : Course → Prop
  | .stands stage => stage.Fits operation wrote ∧ stage.HasRead clock
  | .ended result => operation = .acquire → result.isOk = true → wrote = true

theorem fits_lookAt {now clock : Instant} (h : now ≤ clock) (names : List String) :
    FitsCourse clock .acquire true (lock.lookAt now names) := by
  rcases lock.lookAt_cases now names with ⟨hended, -⟩ | ⟨other, more, hstands, -⟩
  · rw [hended]
    exact fun _ _ => rfl
  · rw [hstands]
    exact ⟨rfl, h⟩

/-- Where a reply leads belongs to the operation again. -/
theorem fits_after (lock : Lock) {reply : (stage.action lock).Reply}
    (hfits : stage.Fits operation wrote) (hread : stage.HasRead world.clock)
    (h : Answered weather lock.token world (stage.action lock) reply world') :
    FitsCourse world.clock operation (wrote || Action.wrote _ reply) (stage.after lock reply) := by
  cases operation with
  | release =>
    obtain ⟨-, rfl⟩ := hfits
    rintro ⟨⟩
  | acquire =>
    cases stage with
    | write =>
      change Result Unit at reply
      cases reply with
      | ok done => exact ⟨Bool.or_true wrote, trivial⟩
      | error e => rintro - ⟨⟩
    | read =>
      -- the clock that is read is the clock of the world
      have hnow : reply = world.clock := by cases h; rfl
      exact ⟨Bool.or_eq_true_iff.mpr (.inl hfits), hnow ▸ Instant.le_refl _⟩
    | list now =>
      obtain rfl : wrote = true := hfits
      rcases after_list_cases lock now reply with ⟨e, hafter⟩ | ⟨names, hafter⟩
      · rw [hafter]
        exact ⟨rfl, trivial⟩
      · rw [hafter]
        exact fits_lookAt hread names
    | load now other more =>
      obtain rfl : wrote = true := hfits
      rcases after_load_cases lock now other more reply with ⟨e, hafter⟩ | hafter
      · rw [hafter]
        exact ⟨rfl, trivial⟩
      · rw [hafter]
        exact fits_lookAt hread more
    | withdraw failure =>
      simp only [after]
      cases Proposals.withdrawn reply <;> rintro - ⟨⟩
    | release => exact hfits.elim

/-- An attempt that still has a name to look at has not passed over it. -/
theorem not_passedOver_lookAt {now : Instant} {names : List String} (hname : name ≠ lock.token.text)
    (hmem : name ∈ names) :
    ¬ (Party.follow history operation wrote (lock.lookAt now names)).PassedOver name := by
  rcases lock.lookAt_cases now names with ⟨-, hown⟩ | ⟨other, more, hstands, hleft⟩
  · exact absurd (hown name hmem) hname
  · rw [hstands]
    exact fun hpassed => hpassed (hleft name hmem hname)

/-- Loading a proposal that is there gives its payload or fails. -/
theorem payloadOf_of_answered {key : Key} {payload : Bytes} {reply : Result Content}
    (hfind : world.store.entries.find? key = some payload)
    (h : Answered Weather.rough lock.token world (.call (.load key)) reply world') :
    Proposals.payloadOf reply = .ok (some payload) ∨
      ∃ e, Proposals.payloadOf reply = .error e := by
  cases h with
  | served call =>
    left
    -- the store carries out the load
    rw [MemoryStore.apply_load, hfind]
    simp [Proposals.payloadOf, Except.map]
  | failed call mishap hm =>
    right
    cases mishap with
    | refused e =>
      -- the error is not that the proposal is gone
      have hpresent := hm key e rfl rfl (by rw [hfind]; rfl)
      exact ⟨e, by simp [Mishap.reply, Proposals.payloadOf, hpresent]⟩
    | broken fault => exact ⟨_, rfl⟩

/-- An attempt that has withdrawn its proposal has none. -/
theorem not_isPosted_after_withdraw {failure : StorageError} {reply : Result Unit}
    (hfits : (withdraw failure).Fits operation wrote) :
    ¬ (Party.follow history operation (wrote || Action.wrote ((withdraw failure).action lock) reply)
      ((withdraw failure).after lock reply)).IsPosted := by
  cases operation with
  | release => cases hfits.2
  | acquire =>
    obtain rfl : wrote = true := hfits
    simp only [after]
    cases Proposals.withdrawn reply <;> rintro ⟨⟩

/-- A party that has given its lock up has no proposal. -/
theorem not_isPosted_after_release {reply : Result Unit} (hfits : release.Fits operation wrote) :
    ¬ (Party.follow history operation (wrote || Action.wrote (release.action lock) reply)
      (release.after lock reply)).IsPosted := by
  cases operation with
  | release => rintro ⟨⟩
  | acquire => exact hfits.elim

/-- A proposal that has to be there after a reply is there. -/
theorem find?_of_after (lock : Lock) {reply : (stage.action lock).Reply}
    (hfits : stage.Fits operation wrote)
    (h : Answered weather lock.token world (stage.action lock) reply world')
    (hfind : stage.IsPosted (standing history = true) →
      world.store.entries.find? (Proposals.key lock.target lock.token.text) =
        some (Bytes.ofString lock.expiration.encode))
    (hposted : (Party.follow history operation (wrote || Action.wrote _ reply)
      (stage.after lock reply)).IsPosted) :
    world'.store.entries.find? (Proposals.key lock.target lock.token.text) =
      some (Bytes.ofString lock.expiration.encode) := by
  cases stage with
  | write =>
    change Result Unit at reply
    cases reply with
    | ok done => exact h.find?_of_saved (Content.drain_ofBytes _)
    | error e =>
      cases operation with
      | release => cases hfits.2
      | acquire =>
        -- a write that fails leaves the proposal of the attempt before, if any
        obtain rfl : wrote = false := hfits
        rw [h.eq_of_error]
        exact hfind hposted
  | withdraw failure => exact (not_isPosted_after_withdraw hfits hposted).elim
  | release => exact (not_isPosted_after_release hfits hposted).elim
  | read => rw [h.find?_of_notMem List.not_mem_nil, hfind trivial]
  | list now => rw [h.find?_of_notMem List.not_mem_nil, hfind trivial]
  | load now other more => rw [h.find?_of_notMem List.not_mem_nil, hfind trivial]

/-- **No attempt newly passes over a proposal that counts.** As long as the proposal of a name is in
the store and counts, whoever has passed over the name after a reply had done so before. -/
theorem passedOver_of_after (lock : Lock) {reply : (stage.action lock).Reply} {payload : Bytes}
    {other : Token} (hother : other ≠ lock.token)
    (hfits : stage.Fits operation wrote) (hread : stage.HasRead world.clock)
    (h : Answered Weather.rough lock.token world (stage.action lock) reply world')
    (hfind : world.store.entries.find? (Proposals.key lock.target other.text) = some payload)
    (hactive : ∀ now ≤ world.clock, Proposals.payloadIsActive payload now = true)
    (hpassed : (Party.follow history operation (wrote || Action.wrote _ reply)
      (stage.after lock reply)).PassedOver other.text) :
    stage.PassedOver other.text (standing history = true) := by
  have hname : other.text ≠ lock.token.text := fun htext => hother (Token.ext htext)
  cases stage with
  | write =>
    change Result Unit at reply
    cases reply with
    | ok done => exact hpassed.elim
    | error e =>
      cases operation with
      | release => cases hfits.2
      | acquire =>
        obtain rfl : wrote = false := hfits
        exact hpassed
  | read => exact hpassed.elim
  | list now =>
    cases h with
    | served call =>
      -- the listing shows the name, so it is still to be looked at
      have hmem := Proposals.token_mem_registered_iff.mpr (Option.isSome_of_eq_some hfind)
      exact absurd hpassed (not_passedOver_lookAt hname hmem)
    | failed call mishap hm =>
      cases mishap <;> exact hpassed.elim
  | load now first more =>
    intro hmem
    rcases List.mem_cons.mp hmem with rfl | hmore
    · -- the proposal is the one that has been loaded
      simp only [after] at hpassed
      rcases payloadOf_of_answered hfind h with hloaded | ⟨e, hfailed⟩
      · simp only [hloaded, afterPayload, hactive now hread, if_true] at hpassed
        exact hpassed
      · simp only [hfailed] at hpassed
        exact hpassed
    -- the name is among those still to be looked at
    · rcases after_load_cases lock now first more reply with ⟨e, hafter⟩ | hafter
      · rw [hafter] at hpassed
        exact hpassed
      · rw [hafter] at hpassed
        exact not_passedOver_lookAt hname hmore hpassed
  | withdraw failure => exact (not_isPosted_after_withdraw hfits hpassed.isPosted).elim
  | release => exact (not_isPosted_after_release hfits hpassed.isPosted).elim

end Lock.Stage

/-! ## The invariant -/

namespace Party

variable {p : Party Stage} {operation : LockOperation} {name : String} {clock later : Instant}

/-- A party that calls an operation is where it was. -/
theorem passedOver_first (h : p.activity = .idle) :
    (Party.follow p.history operation false (.stands (Contest.first operation))).PassedOver name ↔
      p.PassedOver name := by
  rw [passedOver_of_idle h]
  cases operation <;> rfl

theorem isPosted_first (h : p.activity = .idle) :
    (Party.follow p.history operation false (.stands (Contest.first operation))).IsPosted ↔
      p.IsPosted := by
  rw [isPosted_of_idle h]
  cases operation <;> rfl

theorem coherent_newcomer (clock : Instant) : (newcomer : Party Stage).Coherent clock where
  fits h := by cases h
  hasRead h := by cases h
  wrote _ hc := by cases hc

theorem coherent_follow {history : List Completed} {wrote : Bool} {course : Course}
    (hcourse : Stage.FitsCourse clock operation wrote course)
    (hwrote : ∀ c ∈ history, c.operation = .acquire → c.result.isOk = true → c.wrote = true) :
    (follow history operation wrote course).Coherent clock := by
  cases course with
  | stands stage =>
    refine ⟨?_, ?_, hwrote⟩
    · rintro _ _ _ ⟨⟩
      exact hcourse.1
    · rintro _ _ _ ⟨⟩
      exact hcourse.2
  | ended result =>
    refine ⟨?_, ?_, List.forall_mem_cons.mpr ⟨hcourse, hwrote⟩⟩
    · rintro _ _ _ ⟨⟩
    · rintro _ _ _ ⟨⟩

/-- A party whose latest operation was an attempt that succeeded stands. -/
theorem Coherent.standing_of_acquired (h : p.Coherent clock) {wrote : Bool}
    {earlier : List Completed} (hhistory : p.history = ⟨.acquire, wrote, .ok ()⟩ :: earlier) :
    standing p.history = true := by
  have hwrote : wrote = true := by
    refine h.wrote ⟨.acquire, wrote, .ok ()⟩ ?_ rfl rfl
    rw [hhistory]
    exact List.mem_cons_self
  rw [hhistory, hwrote]
  rfl

theorem Coherent.mono (h : p.Coherent clock) (hle : clock ≤ later) : p.Coherent later := by
  refine ⟨h.fits, fun {operation wrote stage} hbusy => ?_, h.wrote⟩
  have hread := h.hasRead hbusy
  cases stage with
  | list now => exact Instant.le_trans hread hle
  | load now other more => exact Instant.le_trans hread hle
  | write => trivial
  | read => trivial
  | withdraw failure => trivial
  | release => trivial

end Party

namespace Contest

variable {ι : Type} {contest : Contest ι} {world : World} {s t : State ι Stage}

/-- What holds in every state of a contest. -/
structure Invariant (contest : Contest ι) (s : State ι Stage) : Prop where
  coherent : ∀ i, (s.party i).Coherent s.world.clock
  posted : ∀ i, (s.party i).IsPosted →
    s.world.store.entries.find? (contest.key i) = some (contest.payload i)
  /-- No two parties whose proposals count have passed over each other. -/
  apart : ∀ i j, i ≠ j → (s.party i).PassedOver (contest.token j).text →
    (s.party j).PassedOver (contest.token i).text →
    ¬ ((contest.expiration i).isActiveAt s.world.clock = true ∧
      (contest.expiration j).isActiveAt s.world.clock = true)

theorem invariant_start (contest : Contest ι) (world : World) :
    contest.Invariant (start world) where
  coherent _ := Party.coherent_newcomer world.clock
  posted _ h := by cases h
  apart _ _ _ h := by cases h

variable [DecidableEq ι]

/-- If one party alone changes, it is enough to compare it with each of the others. -/
theorem Invariant.apart_update (hs : contest.Invariant s) {i : ι} {p : Party Stage}
    (hp : ∀ j, j ≠ i → p.PassedOver (contest.token j).text →
      (s.party j).PassedOver (contest.token i).text →
      (contest.expiration j).isActiveAt s.world.clock = true →
      (s.party i).PassedOver (contest.token j).text) (j k : ι) (hjk : j ≠ k)
    (hj : (Function.update s.party i p j).PassedOver (contest.token k).text)
    (hk : (Function.update s.party i p k).PassedOver (contest.token j).text) :
    ¬ ((contest.expiration j).isActiveAt s.world.clock = true ∧
      (contest.expiration k).isActiveAt s.world.clock = true) := by
  rintro ⟨hjactive, hkactive⟩
  by_cases hji : j = i
  · subst hji
    rw [Function.update_self] at hj
    rw [Function.update_of_ne hjk.symm] at hk
    exact hs.apart j k hjk (hp k hjk.symm hj hk hkactive) hk ⟨hjactive, hkactive⟩
  · rw [Function.update_of_ne hji] at hj
    by_cases hki : k = i
    · subst hki
      rw [Function.update_self] at hk
      exact hs.apart j k hjk hj (hp j hji hk hj hjactive) ⟨hjactive, hkactive⟩
    · rw [Function.update_of_ne hki] at hk
      exact hs.apart j k hjk hj hk ⟨hjactive, hkactive⟩

omit [DecidableEq ι] in
theorem key_ne {i j : ι} (h : j ≠ i) : contest.key j ≠ contest.key i :=
  Proposals.key_ne fun htoken => h (contest.token_injective htoken)

omit [DecidableEq ι] in
/-- An action of one party leaves the proposals of the others. -/
theorem find?_key_of_ne {weather : Weather} {i j : ι} (hji : j ≠ i) {stage : Stage}
    {reply : (stage.action (contest.lock i)).Reply} {world world' : World}
    (h : Answered weather (contest.token i) world (stage.action (contest.lock i)) reply world') :
    world'.store.entries.find? (contest.key j) = world.store.entries.find? (contest.key j) :=
  h.find?_of_notMem fun hmem => key_ne hji (Stage.eq_key_of_mem_written hmem)

omit [DecidableEq ι] in
/-- While an expiration counts, its payload has counted at every time so far. -/
theorem payloadIsActive_of_le {i : ι} {clock : Instant}
    (h : (contest.expiration i).isActiveAt clock = true) (now : Instant) (hle : now ≤ clock) :
    Proposals.payloadIsActive (contest.payload i) now = true :=
  (Proposals.payloadIsActive_encode _ _).mpr (.inl (Expiration.isActiveAt_of_le hle h))

/-- **Every step preserves the invariant.** -/
theorem StageStep.invariant (h : contest.StageStep Weather.rough s t) (hs : contest.Invariant s) :
    contest.Invariant t := by
  cases h with
  | call i operation hidle =>
    constructor
    · refine (Function.forall_update_iff _ fun _ (p : Party Stage) => p.Coherent _).mpr
        ⟨?_, fun j _ => hs.coherent j⟩
      have hfits : (first operation).Fits operation false := by
        cases operation <;> simp [first, Stage.Fits]
      have hread : (first operation).HasRead s.world.clock := by cases operation <;> trivial
      exact Party.coherent_follow ⟨hfits, hread⟩ (hs.coherent i).wrote
    · refine (Function.forall_update_iff _ fun j (p : Party Stage) => p.IsPosted →
        _ = some (contest.payload j)).mpr
        ⟨fun hposted => ?_, fun j _ => hs.posted j⟩
      exact hs.posted i ((Party.isPosted_first hidle).mp hposted)
    · exact hs.apart_update fun j _ hpassed _ _ => (Party.passedOver_first hidle).mp hpassed
  | @act i operation wrote stage reply world hbusy ha =>
    have hclock := ha.clock_eq
    have hfits := (hs.coherent i).fits hbusy
    have hread := (hs.coherent i).hasRead hbusy
    have hposted : stage.IsPosted (standing (s.party i).history = true) →
        s.world.store.entries.find? (contest.key i) = some (contest.payload i) :=
      fun h => hs.posted i ((Party.isPosted_of_busy hbusy).mpr h)
    constructor
    · rw [hclock]
      refine (Function.forall_update_iff _ fun _ (p : Party Stage) => p.Coherent _).mpr
        ⟨?_, fun j _ => hs.coherent j⟩
      have hcourse := Stage.fits_after (contest.lock i) hfits hread ha
      exact Party.coherent_follow hcourse (hs.coherent i).wrote
    · refine (Function.forall_update_iff _ fun j (p : Party Stage) => p.IsPosted →
        _ = some (contest.payload j)).mpr
        ⟨Stage.find?_of_after (contest.lock i) hfits ha hposted, fun j hji => ?_⟩
      rw [find?_key_of_ne hji ha]
      exact hs.posted j
    · rw [hclock]
      refine hs.apart_update fun j hji hpassed hback hactive => ?_
      -- the proposal of party j counts, so party i had passed over it before
      have hother : contest.token j ≠ contest.token i :=
        fun htoken => hji (contest.token_injective htoken)
      have hfind : s.world.store.entries.find? (contest.key j) = some (contest.payload j) :=
        hs.posted j hback.isPosted
      rw [Party.passedOver_of_busy hbusy]
      exact Stage.passedOver_of_after (contest.lock i) hother hfits hread ha hfind
        (payloadIsActive_of_le hactive) hpassed
  | tick later hlater =>
    refine ⟨fun i => (hs.coherent i).mono hlater, hs.posted, fun i j hij hi hj hactive => ?_⟩
    exact hs.apart i j hij hi hj ⟨Expiration.isActiveAt_of_le hlater hactive.1,
      Expiration.isActiveAt_of_le hlater hactive.2⟩
  | other call hcall =>
    refine ⟨hs.coherent, fun i hposted => ?_, hs.apart⟩
    -- others leave the immediate children of the root alone
    have hspared : contest.key i ∉ call.written := fun hmem =>
      hcall _ hmem (Proposals.parent_key contest.target (contest.token i))
    show (s.world.store.apply call).2.entries.find? (contest.key i) = _
    rw [MemoryStore.find?_apply_of_notMem hspared]
    exact hs.posted i hposted

/-- **The invariant holds in every state that a contest can come to.** -/
theorem StageReachable.invariant (h : contest.StageReachable Weather.rough world s) :
    contest.Invariant s := by
  induction h with
  | refl => exact invariant_start contest world
  | tail _ hstep ih => exact hstep.invariant ih

/-! ## Holders -/

/-- A party holds the lock if its last operation was an attempt that succeeded, it has called none
since, and its expiration has not come. -/
def Holds {ρ : Type} (contest : Contest ι) (s : State ι ρ) (i : ι) : Prop :=
  (s.party i).activity = .idle ∧
    (∃ wrote earlier, (s.party i).history = ⟨.acquire, wrote, .ok ()⟩ :: earlier) ∧
    (contest.expiration i).isActiveAt s.world.clock = true

omit [DecidableEq ι] in
/-- A holder has passed over everybody. -/
theorem Invariant.passedOver_of_holds (hs : contest.Invariant s) {i : ι} (h : contest.Holds s i)
    (name : String) : (s.party i).PassedOver name := by
  obtain ⟨hidle, ⟨wrote, earlier, hhistory⟩, -⟩ := h
  rw [Party.passedOver_of_idle hidle]
  exact (hs.coherent i).standing_of_acquired hhistory

omit [DecidableEq ι] in
/-- No two parties hold the lock in a state where the invariant holds. -/
theorem Invariant.eq_of_holds (hs : contest.Invariant s) {i j : ι} (hi : contest.Holds s i)
    (hj : contest.Holds s j) : i = j := by
  by_contra hij
  exact hs.apart i j hij (hs.passedOver_of_holds hi _) (hs.passedOver_of_holds hj _)
    ⟨hi.2.2, hj.2.2⟩

omit [DecidableEq ι] in
/-- Whoever holds the lock among programs holds it among stages. -/
theorem holds_of_programs {i : ι} (h : contest.Holds (contest.programs s) i) :
    contest.Holds s i := by
  obtain ⟨hidle, ⟨wrote, earlier, hhistory⟩, hactive⟩ := h
  rw [history_programs] at hhistory
  exact ⟨idle_of_programs hidle, ⟨wrote, earlier, hhistory⟩, hactive⟩

omit [DecidableEq ι] in
/-- Whether a party holds the lock can be read off what it has completed last. -/
theorem holds_iff_head? {ρ : Type} {s : State ι ρ} {i : ι} : contest.Holds s i ↔
    (s.party i).activity = .idle ∧
      ((s.party i).history.head?.map fun latest => (latest.operation, latest.result)) =
        some (.acquire, .ok ()) ∧
      (contest.expiration i).isActiveAt s.world.clock = true := by
  refine and_congr_right fun _ => and_congr_left fun _ => ?_
  rcases (s.party i).history with _ | ⟨⟨operation, wrote, result⟩, earlier⟩ <;> simp

instance {ρ : Type} (s : State ι ρ) (i : ι) : Decidable (contest.Holds s i) :=
  decidable_of_iff' _ holds_iff_head?

/-- **At most one party holds the lock**, whatever order the steps of all parties are taken in,
whichever calls go wrong, and whatever others do elsewhere in the store. -/
theorem holder_unique {s : State ι (Program (Result Unit))}
    (h : contest.Reachable Weather.rough world s) {i j : ι} (hi : contest.Holds s i)
    (hj : contest.Holds s j) : i = j := by
  obtain ⟨s, rfl, hreach⟩ := exists_stages h
  exact hreach.invariant.eq_of_holds (holds_of_programs hi) (holds_of_programs hj)

/-- Two attempts at the same time. The second party is the first to write its proposal, and the first
one writes its own before anybody lists. The second one finds it and withdraws, so the first one, who
is the last to list, finds nothing. -/
def overlapping : List (Incident Nat) :=
  [.call 0 .acquire, .call 1 .acquire, .reply 1 none, .reply 0 none, .reply 1 none, .reply 0 none,
    .reply 1 none, .reply 1 none, .reply 1 none, .reply 0 none]

/-- Of two parties whose attempts overlap, one comes to hold the lock, and nobody else does. -/
theorem holder_unique_overlapping :
    let s := Crowd.play (generated (Key.ofString "a")).lock (Crowd.start ⟨.unlimited, .epoch⟩)
      overlapping
    (generated (Key.ofString "a")).Reachable Weather.rough ⟨.unlimited, .epoch⟩
        ⟨s.world, s.party⟩ ∧
      (s.party 1).history.map Completed.result =
        [.error (.lockConflict (Key.ofString "a") none)] ∧
      ∀ i, (generated (Key.ofString "a")).Holds ⟨s.world, s.party⟩ i ↔ i = 0 := by
  intro s
  have hreach : (generated (Key.ofString "a")).Reachable Weather.rough ⟨.unlimited, .epoch⟩
      ⟨s.world, s.party⟩ := Crowd.reachable_play (Crowd.staged_start _ _) .refl (by decide)
  have hholds : (generated (Key.ofString "a")).Holds ⟨s.world, s.party⟩ 0 := by decide +kernel
  refine ⟨hreach, by decide +kernel, fun i => ⟨fun hi => holder_unique hreach hi hholds, ?_⟩⟩
  rintro rfl
  exact hholds

end Contest

end ObjectStore

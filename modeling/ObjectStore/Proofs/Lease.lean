import ObjectStore.Proofs.Undisturbed

/-! # Locks as leases

Parties that never overlap take turns at a target. To them the proposals in a store without limit
are a single lease: one holder at most, whose lease counts until it expires. What the store keeps of
earlier holders and of attempts that failed never counts again.

* **`Lease.ideal`** — a turn at a lease; **`Lease.real`** — the same turn at the store.
* **`Lease.Agrees`** — a store that stands for a lease; every turn keeps it so (`Agrees.step`).
* **`Lease.refines_ideal`** — every history of turns ends as it does for the lease. -/

namespace ObjectStore

namespace Lease

/-- A party's turn at a target. -/
structure Turn where
  operation : LockOperation
  token : Token
  expiration : Expiration
  /-- What the clock shows. -/
  time : Instant

/-- The lock with which a party takes its turn. -/
def Turn.lock (target : Key) (turn : Turn) : Lock := ⟨target, turn.token, turn.expiration⟩

/-- The holder of a lease, with the expiration of the lease. -/
abbrev Holder : Type := Option (Token × Expiration)

/-- Whether a lease stands against a token. -/
def standsAgainst (holder : Holder) (token : Token) (now : Instant) : Bool :=
  match holder with
  | some (other, expiration) => other ≠ token && expiration.isActiveAt now
  | none => false

/-- Whoever a lease stands against is not its holder. -/
theorem filter_of_standsAgainst {holder : Holder} {token : Token} {now : Instant}
    (h : standsAgainst holder token now = true) :
    (holder.filter fun held => held.1 ≠ token) = holder := by
  rcases holder with _ | ⟨other, e⟩
  · rfl
  · simp only [standsAgainst, Bool.and_eq_true] at h
    exact Option.filter_some_pos h.1

/-- A turn at a lease: a conflict changes nothing, and a release by another token neither. -/
def ideal (target : Key) (turn : Turn) (holder : Holder) : Result Unit × Holder :=
  match turn.operation with
  | .acquire =>
    if standsAgainst holder turn.token turn.time then (.error (.lockConflict target none), holder)
    else (.ok (), some (turn.token, turn.expiration))
  | .release => (.ok (), holder.filter fun held => held.1 ≠ turn.token)

/-- A turn at the proposals in a store. -/
def real (target : Key) (turn : Turn) (store : MemoryStore) : Result Unit × MemoryStore :=
  let (result, world) := (turn.operation.program (turn.lock target)).run (World.serve turn.token)
    ⟨store, turn.time⟩
  (result, world.store)

/-- Take turns one after another. -/
def takeTurns {σ : Type} (take : Turn → σ → Result Unit × σ) :
    List Turn → σ → List (Result Unit) × σ
  | [], s => ([], s)
  | turn :: more, s =>
    let (result, s) := take turn s
    let (results, s) := takeTurns take more s
    (result :: results, s)

variable {target : Key} {store : MemoryStore} {holder : Holder} {clock later : Instant}
  {turn : Turn}

/-- A store stands for a lease at a time: the holder's proposal is there, and no other one counts
from then on. -/
structure Agrees (target : Key) (store : MemoryStore) (holder : Holder) (clock : Instant) :
    Prop where
  limit : store.limit = 0
  held : ∀ token e, holder = some (token, e) → e.IsOfEra ∧
    store.entries.find? (Proposals.key target token.text) = some (Bytes.ofString e.encode)
  others : ∀ (token : Token) value, (∀ e, holder ≠ some (token, e)) →
    store.entries.find? (Proposals.key target token.text) = some value →
    ∀ now, clock ≤ now → now.year ≤ 9999 → Proposals.payloadIsActive value now = false

/-- An unused target stands for a lease that nobody holds. -/
theorem agrees_none (hlimit : store.limit = 0)
    (h : ∀ k, k.parent = some (Proposals.root target) → store.entries.find? k = none)
    (clock : Instant) : Agrees target store none clock := by
  refine ⟨hlimit, ?_, ?_⟩
  · rintro _ _ ⟨⟩
  · intro token value _ hfind
    rw [h _ (Proposals.parent_key target token)] at hfind
    cases hfind

namespace Agrees

theorem mono (h : Agrees target store holder clock) (hle : clock ≤ later) :
    Agrees target store holder later :=
  ⟨h.limit, h.held, fun token value hother hfind now hnow =>
    h.others token value hother hfind now (Instant.le_trans hle hnow)⟩

/-- A proposal that counts is the holder's. -/
theorem exists_holder (h : Agrees target store holder clock) {token : Token} {value : Bytes}
    (hfind : store.entries.find? (Proposals.key target token.text) = some value) {now : Instant}
    (hnow : clock ≤ now) (hyear : now.year ≤ 9999)
    (hactive : Proposals.payloadIsActive value now = true) :
    ∃ e, holder = some (token, e) ∧ value = Bytes.ofString e.encode := by
  -- the proposal of anybody but the holder would not count
  by_cases hholder : ∃ e, holder = some (token, e)
  · obtain ⟨e, he⟩ := hholder
    rw [(h.held token e he).2, Option.some_inj] at hfind
    exact ⟨e, he, hfind.symm⟩
  · rw [h.others token value (not_exists.mp hholder) hfind now hnow hyear] at hactive
    cases hactive

/-- Another token has a proposal that counts exactly if the lease stands against one's own. -/
theorem exists_rivals_iff (h : Agrees target store holder turn.time)
    (hyear : turn.time.year ≤ 9999) :
    (∃ other : Token, (turn.lock target).Rivals store.entries turn.time other.text) ↔
      standsAgainst holder turn.token turn.time = true := by
  constructor
  · rintro ⟨other, hother, value, hfind, hactive⟩
    obtain ⟨e, rfl, rfl⟩ := h.exists_holder hfind (Instant.le_refl _) hyear hactive
    rw [Proposals.payloadIsActive_encode_eq (h.held other e rfl).1 hyear] at hactive
    have hne : other ≠ turn.token := fun heq => hother (congrArg Token.text heq)
    simp [standsAgainst, hne, hactive]
  · intro hstands
    rcases holder with _ | ⟨other, e⟩
    · cases hstands
    -- the holder's proposal is there and counts as the lease does
    · obtain ⟨hera, hfind⟩ := h.held other e rfl
      simp only [standsAgainst, Bool.and_eq_true, decide_eq_true_eq] at hstands
      refine ⟨other, fun htext => hstands.1 (Token.ext htext), _, hfind, ?_⟩
      rw [Proposals.payloadIsActive_encode_eq hera hyear]
      exact hstands.2

/-- The lease of a holder who takes a turn again, or of a new one. -/
theorem acquired (h : Agrees target store holder turn.time)
    (hera : turn.expiration.IsOfEra)
    (hfree : standsAgainst holder turn.token turn.time = false) :
    Agrees target ((turn.lock target).posted store) (some (turn.token, turn.expiration))
      turn.time := by
  refine ⟨?_, ?_, fun token value hother hfind now hnow hnowyear => ?_⟩
  · exact (MemoryStore.limit_put ..).trans h.limit
  · rintro _ _ ⟨⟩
    exact ⟨hera, Lock.find?_posted_self h.limit⟩
  · have hne : token ≠ turn.token := fun heq => hother turn.expiration (by rw [heq])
    have hkey : Proposals.key target token.text ≠ Proposals.key target turn.token.text :=
      Proposals.key_ne hne
    rw [Lock.find?_posted_of_ne (turn.lock target) hkey] at hfind
    refine Bool.eq_false_iff.mpr fun hactive => ?_
    -- a lease that still counts would have stood against the turn
    obtain ⟨e, rfl, rfl⟩ := h.exists_holder hfind hnow hnowyear hactive
    rw [Proposals.payloadIsActive_encode_eq (h.held token e rfl).1 hnowyear] at hactive
    have hactive := Expiration.isActiveAt_of_le hnow hactive
    simp [standsAgainst, hne, hactive] at hfree

/-- A store without the proposal of a token stands for the lease without that token. -/
theorem deleted {token : Token} {store' : MemoryStore} (h : Agrees target store holder clock)
    (hlimit : store'.limit = store.limit)
    (hself : store'.entries.find? (Proposals.key target token.text) = none)
    (hothers : ∀ other : Token, other ≠ token →
      store'.entries.find? (Proposals.key target other.text) =
        store.entries.find? (Proposals.key target other.text)) :
    Agrees target store' (holder.filter fun held => held.1 ≠ token) clock := by
  refine ⟨hlimit.trans h.limit, fun other e hholder => ?_, fun other value hother hfind => ?_⟩
  · obtain ⟨rfl, hne⟩ := Option.filter_eq_some_iff.mp hholder
    have hne : other ≠ token := by simpa using hne
    rw [hothers other hne]
    exact h.held other e rfl
  · have hne : other ≠ token := by
      rintro rfl
      rw [hself] at hfind
      cases hfind
    rw [hothers other hne] at hfind
    refine h.others other value (fun e hholder => hother e ?_) hfind
    rw [hholder, Option.filter_some, if_pos (by simpa using hne)]

/-- **Every turn keeps a store in agreement with the lease**, and has the same result. -/
theorem step (h : Agrees target store holder turn.time) (hyear : turn.time.year ≤ 9999)
    (hera : turn.operation = .acquire → turn.expiration.IsOfEra) :
    (real target turn store).1 = (ideal target turn holder).1 ∧
      Agrees target (real target turn store).2 (ideal target turn holder).2 turn.time := by
  cases hoperation : turn.operation with
  | release =>
    simp only [real, ideal, hoperation, LockOperation.program, Lock.run_release]
    refine ⟨trivial, h.deleted (MemoryStore.limit_delete ..) (MemoryStore.find?_delete ..) ?_⟩
    exact fun other hother => MemoryStore.find?_delete_of_ne (Proposals.key_ne hother)
  | acquire =>
    by_cases hstands : standsAgainst holder turn.token turn.time = true
    -- the attempt writes its proposal, finds the holder's and withdraws its own
    · obtain ⟨other, hrival⟩ := (h.exists_rivals_iff hyear).mpr hstands
      have hrun := (turn.lock target).run_acquire_of_rival turn.token ⟨store, turn.time⟩ h.limit
        hrival
      simp only [real, ideal, hoperation, LockOperation.program, hrun, hstands, if_true]
      refine ⟨rfl, ?_⟩
      rw [← filter_of_standsAgainst hstands]
      refine h.deleted ?_ (MemoryStore.find?_delete ..) fun other hother => ?_
      · exact (MemoryStore.limit_delete ..).trans (MemoryStore.limit_put ..)
      · have hkey : Proposals.key target other.text ≠ Proposals.key target turn.token.text :=
          Proposals.key_ne hother
        exact (MemoryStore.find?_delete_of_ne hkey).trans
          (Lock.find?_posted_of_ne (turn.lock target) hkey store)
    -- nobody else's proposal counts, so the attempt succeeds and keeps its own
    · have hnone : ∀ other : Token,
          ¬ (turn.lock target).Rivals store.entries turn.time other.text :=
        fun other hrival => hstands ((h.exists_rivals_iff hyear).mp ⟨other, hrival⟩)
      have hrun :=
        (turn.lock target).run_acquire_of_free turn.token ⟨store, turn.time⟩ h.limit hnone
      simp only [real, ideal, hoperation, LockOperation.program, hrun, if_neg hstands]
      exact ⟨trivial, h.acquired (hera hoperation) (Bool.eq_false_iff.mpr hstands)⟩

end Agrees

/-! ## Histories -/

/-- What turns have to be like: in the order of time, up to the year 9999, and each attempt with an
expiration that never comes or comes in the year 0 or later. -/
structure IsHistory (turns : List Turn) : Prop where
  ordered : turns.Pairwise fun earlier later => earlier.time ≤ later.time
  year : ∀ turn ∈ turns, turn.time.year ≤ 9999
  era : ∀ turn ∈ turns, turn.operation = .acquire → turn.expiration.IsOfEra

theorem IsHistory.sublist {turns part : List Turn} (h : IsHistory turns)
    (hpart : part.Sublist turns) : IsHistory part where
  ordered := h.ordered.sublist hpart
  year turn hturn := h.year turn (hpart.subset hturn)
  era turn hturn := h.era turn (hpart.subset hturn)

/-- **A store that stands for a lease does so after every history**, with the same results. -/
theorem Agrees.takeTurns {turns : List Turn} (h : Agrees target store holder clock)
    (hturns : IsHistory turns) (hlater : ∀ turn ∈ turns, clock ≤ turn.time) :
    (takeTurns (real target) turns store).1 = (takeTurns (ideal target) turns holder).1 ∧
      ∀ now, clock ≤ now → (∀ turn ∈ turns, turn.time ≤ now) →
        Agrees target (takeTurns (real target) turns store).2
          (takeTurns (ideal target) turns holder).2 now := by
  induction turns generalizing store holder clock with
  | nil => exact ⟨rfl, fun now hnow _ => h.mono hnow⟩
  | cons turn turns ih =>
    obtain ⟨hresult, hagrees⟩ := (h.mono (hlater turn List.mem_cons_self)).step
      (hturns.year turn List.mem_cons_self) (hturns.era turn List.mem_cons_self)
    obtain ⟨hresults, hafter⟩ := ih hagrees (hturns.sublist (List.sublist_cons_self ..))
      (List.pairwise_cons.mp hturns.ordered).1
    refine ⟨congrArg₂ List.cons hresult hresults, fun now _ hnow => ?_⟩
    exact hafter now (hnow turn List.mem_cons_self) fun other hother =>
      hnow other (List.mem_cons_of_mem _ hother)

section Unused

variable {turns : List Turn} (hlimit : store.limit = 0)
  (hunused : ∀ k, k.parent = some (Proposals.root target) → store.entries.find? k = none)

include hlimit hunused

/-- A history at an unused target begins with a lease that nobody holds. -/
theorem takeTurns_of_unused (hturns : IsHistory turns) :
    (takeTurns (real target) turns store).1 = (takeTurns (ideal target) turns none).1 ∧
      ∀ now, (∀ turn ∈ turns, turn.time ≤ now) →
        Agrees target (takeTurns (real target) turns store).2
          (takeTurns (ideal target) turns none).2 now := by
  cases turns with
  | nil => exact ⟨rfl, fun now _ => agrees_none hlimit hunused now⟩
  | cons turn turns =>
    obtain ⟨hresults, hafter⟩ := (agrees_none hlimit hunused turn.time).takeTurns hturns
      (List.forall_mem_cons.mpr ⟨Instant.le_refl _, (List.pairwise_cons.mp hturns.ordered).1⟩)
    exact ⟨hresults, fun now hnow => hafter now (hnow turn List.mem_cons_self) hnow⟩

/-- **Every history of turns at an unused target refines the lease.** All results are those of the
lease, and after every turn each registered proposal that counts is the holder's. -/
theorem refines_ideal (hturns : IsHistory turns) :
    (takeTurns (real target) turns store).1 = (takeTurns (ideal target) turns none).1 ∧
      ∀ done, done <+: turns → ∀ now, (∀ turn ∈ done, turn.time ≤ now) → now.year ≤ 9999 →
        ∀ k value, k.parent = some (Proposals.root target) →
          (takeTurns (real target) done store).2.entries.find? k = some value →
            Proposals.payloadIsActive value now = true →
              ∃ token e, (takeTurns (ideal target) done none).2 = some (token, e) ∧
                k = Proposals.key target token.text ∧ value = Bytes.ofString e.encode := by
  refine ⟨(takeTurns_of_unused hlimit hunused hturns).1, fun done hdone now hnow hyear => ?_⟩
  have hagrees := (takeTurns_of_unused hlimit hunused (hturns.sublist hdone.sublist)).2 now hnow
  intro k value hk hfind hactive
  obtain ⟨token, rfl⟩ := Proposals.exists_token hk
  obtain ⟨e, hholder, hvalue⟩ :=
    hagrees.exists_holder hfind (Instant.le_refl _) hyear hactive
  exact ⟨token, e, hholder, rfl, hvalue⟩

end Unused

/-- Of three turns the second comes too early, the third late enough. -/
theorem refines_ideal_three_turns :
    let expiring := Expiration.at ⟨60, 0, by decide⟩
    (takeTurns (real (Key.ofString "a")) [⟨.acquire, .numbered 0, expiring, .epoch⟩,
      ⟨.acquire, .numbered 1, .never, .epoch⟩,
      ⟨.acquire, .numbered 1, .never, ⟨60, 0, by decide⟩⟩] .unlimited).1 =
        [.ok (), .error (.lockConflict (Key.ofString "a") none), .ok ()] := by
  intro expiring
  have hera : expiring.IsOfEra := by
    show (0 : Int) ≤ Instant.year ⟨60, 0, by decide⟩
    decide +kernel
  refine (refines_ideal rfl (fun _ _ => rfl) ⟨?_, ?_, ?_⟩).1.trans ?_
  · decide +kernel
  · decide +kernel
  · simp [hera, show Expiration.never.IsOfEra from trivial]
  · decide +kernel

end Lease

end ObjectStore

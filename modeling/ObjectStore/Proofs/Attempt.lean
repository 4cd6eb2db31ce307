import ObjectStore.Lock.Basic
import ObjectStore.Proofs.SingleSteps

/-! # The course of a lock operation

Between two storage calls an attempt to take a lock stands at one of a few stages. Everything about
attempts among others follows from what is done at each stage and what comes after it.

* **`LockOperation`** — the two operations on a lock.
* **`Lock.Stage`** — where an operation stands; `Lock.Stage.program` is what is left to do.
* **`Lock.Stage.action`**, **`Lock.Stage.after`** — the next action, and where each reply leads.
* **`Lock.Stage.program_step`** — the programs of locks take exactly this course. -/

namespace ObjectStore

open Program

/-- Whether somebody has told that a lock was taken or given up. -/
def Event.isGrant : Event → Bool
  | ⟨.tell (.lockAcquired _ _), _⟩ => true
  | ⟨.tell (.lockReleased _ _), _⟩ => true
  | _ => false

/-- What a program tells about locks taken and given up before its next action, with what is left of
it then. -/
def Program.hushed {α : Type} (t : Program α) : List Event × Program α :=
  (t.asides.filter Event.isGrant, t.quieted)

/-- What a party can do with its lock. -/
inductive LockOperation where
  | acquire | release
  deriving DecidableEq, Repr

/-- The program of an operation. -/
def LockOperation.program (lock : Lock) : LockOperation → Program (Result Unit)
  | .acquire => lock.acquire
  | .release => lock.release

namespace Proposals

/-- How a withdrawal ends: that there is nothing to withdraw is no failure. -/
def withdrawn : Result Unit → Result Unit
  | .ok () => .ok ()
  | .error e => if e.isNotFound then .ok () else .error e

theorem withdraw_eq (target : Key) (token : String) : withdraw target token =
    .step (.call (.delete (key target token))) fun reply => .done (withdrawn reply) := by
  refine congrArg (Program.step (.call (.delete (key target token)))) ?_
  funext reply
  cases reply <;> rfl

/-- What a loaded proposal is worth: nothing if it is gone. -/
def payloadOf : Result Content → Result (Option Bytes)
  | .ok content => content.drain.map some
  | .error e => if e.isNotFound then .ok none else .error e

theorem payload_eq (target : Key) (token : String) : payload target token =
    .step (.call (.load (key target token))) fun reply => .done (payloadOf reply) := by
  refine congrArg (Program.step (.call (.load (key target token)))) ?_
  funext reply
  cases reply <;> rfl

theorem create_eq (target : Key) (token : String) (expiration : Expiration) :
    create target token expiration =
      .step (.call (.save (key target token) (.ofBytes (Bytes.ofString expiration.encode))))
        fun saved => match saved with
          | .ok () => .step (.tell (.proposalRegistered target token expiration)) fun _ =>
            .done (.ok ())
          | .error e => .done (.error e) := by
  refine congrArg (Program.step (.call (.save _ _))) ?_
  funext saved
  cases saved <;> rfl

theorem tokens_eq (target : Key) : tokens target =
    .step (.call (.list (root target))) fun keys => .done (keys.map (childNames (root target))) := by
  refine congrArg (Program.step (.call (.list (root target)))) ?_
  funext keys
  cases keys <;> rfl

/-- Look for an active proposal with the clock read. -/
def checkAt (target : Key) (own : String) (now : Instant) : Program (Result Unit) := do
  match ← tokens target with
  | .ok others => checkAgainst target own now others
  | .error e => return .error e

/-- Look at one proposal of another token, then at those of further tokens. -/
def checkOne (target : Key) (own : String) (now : Instant) (other : String) (more : List String) :
    Program (Result Unit) := do
  match ← payload target other with
  | .error e => return .error e
  | .ok none => checkAgainst target own now more
  | .ok (some bytes) =>
    if ← judge target other bytes now then
      tell (.heldByAnother target other)
      return .error (.lockConflict target none)
    else
      tell (.expiredProposalIgnored target other)
      checkAgainst target own now more

theorem checkAgainst_cons_self (target : Key) (own : String) (now : Instant) (more : List String) :
    checkAgainst target own now (own :: more) = checkAgainst target own now more := by
  rw [checkAgainst, if_pos rfl]

theorem checkAgainst_cons_of_ne {own other : String} (h : other ≠ own) (target : Key)
    (now : Instant) (more : List String) :
    checkAgainst target own now (other :: more) = checkOne target own now other more := by
  rw [checkAgainst, if_neg h]
  rfl

/-- Past what is told about a payload only the judgement on it is left. -/
theorem hushed_judge_bind (target : Key) (token : String) (bytes : Bytes) (now : Instant)
    {α : Type} (f : Bool → Program α) :
    (judge target token bytes now >>= f).hushed = (f (payloadIsActive bytes now)).hushed := by
  rw [judge]
  cases Expiration.decode bytes <;> rfl

end Proposals

namespace Lock

/-! ## The end of an attempt -/

/-- Withdraw after a failure and return it; a conflict goes with how the withdrawal ended. -/
def giveUp (lock : Lock) : StorageError → Program (Result Unit)
  | .lockConflict blocked _ => do
    let rollback ← lock.rollBack .conflict blocked
    return .error (.lockConflict blocked rollback)
  | e => do
    let _ ← lock.rollBack .storageError lock.target
    return .error e

/-- Go on once the other proposals have been judged. -/
def conclude (lock : Lock) : Result Unit → Program (Result Unit)
  | .ok () => do
    count (.attempts .acquired)
    tell (.lockAcquired lock.target lock.token)
    return .ok ()
  | .error (.lockConflict blocked rollback) => do
    count (.attempts .conflict)
    lock.giveUp (.lockConflict blocked rollback)
  | .error e => do
    count (.attempts .error)
    lock.giveUp e

/-- Go on once one's own proposal has been written. -/
def proceed (lock : Lock) : Result Unit → Program (Result Unit)
  | .error e => do
    count (.attempts .error)
    return .error e
  | .ok () => Proposals.checkSingle lock.target lock.token.text >>= lock.conclude

theorem acquire_eq (lock : Lock) : lock.acquire =
    Proposals.create lock.target lock.token.text lock.expiration >>= lock.proceed := by
  refine congrArg (Proposals.create lock.target lock.token.text lock.expiration >>= ·) ?_
  funext created
  cases created with
  | error e => rfl
  | ok done =>
    refine congrArg (Proposals.checkSingle lock.target lock.token.text >>= ·) ?_
    funext checked
    cases checked with
    | ok done => rfl
    | error e => cases e <;> rfl

/-- The error of an attempt once its withdrawal has ended: a conflict takes in how that went. -/
def afterWithdrawal (rollback : Option StorageError) : StorageError → StorageError
  | .lockConflict blocked _ => .lockConflict blocked rollback
  | e => e

/-! ## Stages -/

/-- Where an operation on a lock stands. -/
inductive Stage where
  /-- The attempt is about to write its proposal. -/
  | write
  /-- The proposal is written; the clock is to be read. -/
  | read
  /-- The clock is read; the proposals are to be listed. -/
  | list (now : Instant)
  /-- The proposal of `other` is to be loaded, then those of further tokens. -/
  | load (now : Instant) (other : String) (more : List String)
  /-- The attempt has failed; its proposal is to be withdrawn. -/
  | withdraw (failure : StorageError)
  /-- The lock is to be given up. -/
  | release
  deriving DecidableEq

/-- Where an operation stands, or how it has ended. -/
inductive Course where
  | stands (stage : Stage)
  | ended (result : Result Unit)

variable (lock : Lock)

namespace Stage

/-- What an operation does next. -/
def action : Stage → Action
  | .write => .call (.save (Proposals.key lock.target lock.token.text)
      (.ofBytes (Bytes.ofString lock.expiration.encode)))
  | .read => .now
  | .list _ => .call (.list (Proposals.root lock.target))
  | .load _ other _ => .call (.load (Proposals.key lock.target other))
  | .withdraw _ => .call (.delete (Proposals.key lock.target lock.token.text))
  | .release => .call (.delete (Proposals.key lock.target lock.token.text))

/-- An operation writes nothing but its own proposal. -/
theorem eq_key_of_mem_written {lock : Lock} {stage : Stage} {k : Key}
    (h : k ∈ (stage.action lock).written) : k = Proposals.key lock.target lock.token.text := by
  cases stage with
  | write => exact List.mem_singleton.mp h
  | read => cases h
  | list now => cases h
  | load now other more => cases h
  | withdraw failure => exact List.mem_singleton.mp h
  | release => exact List.mem_singleton.mp h

/-- What is left to do at a stage. -/
def program : Stage → Program (Result Unit)
  | .write => lock.acquire
  | .read => Proposals.checkSingle lock.target lock.token.text >>= lock.conclude
  | .list now => Proposals.checkAt lock.target lock.token.text now >>= lock.conclude
  | .load now other more =>
    Proposals.checkOne lock.target lock.token.text now other more >>= lock.conclude
  | .withdraw failure => lock.giveUp failure
  | .release => lock.release

end Stage

/-- What is left to do. -/
def Course.program : Course → Program (Result Unit)
  | .stands stage => stage.program lock
  | .ended result => .done result

/-- What is told when the lock is taken. -/
def acquired : Event := ⟨.tell (.lockAcquired lock.target lock.token), ()⟩

/-- What is told when the lock is given up. -/
def released : Event := ⟨.tell (.lockReleased lock.target lock.token), ()⟩

/-- What an attempt tells about the lock as it takes a course. -/
def Course.grants : Course → List Event
  | .ended (.ok ()) => [lock.acquired]
  | _ => []

/-- What an attempt comes to. -/
def Course.hushed (course : Course) : List Event × Program (Result Unit) :=
  (course.grants lock, course.program lock)

/-- Where an attempt stands that has proposals of some names left to look at. -/
def lookAt (now : Instant) : List String → Course
  | [] => .ended (.ok ())
  | other :: more =>
    if other = lock.token.text then lookAt now more else .stands (.load now other more)

/-- Where an attempt stands that has looked at a payload and has further names left. -/
def afterPayload (now : Instant) (more : List String) (payload : Bytes) : Course :=
  if Proposals.payloadIsActive payload now then .stands (.withdraw (.lockConflict lock.target none))
  else lock.lookAt now more

/-- Where each reply leads. -/
def Stage.after : (stage : Stage) → (stage.action lock).Reply → Course
  | .write, (reply : Result Unit) =>
    match reply with
    | .ok () => .stands .read
    | .error e => .ended (.error e)
  | .read, (now : Instant) => .stands (.list now)
  | .list now, (reply : Result (List Key)) =>
    match reply with
    | .ok keys => lock.lookAt now (Proposals.childNames (Proposals.root lock.target) keys)
    | .error e => .stands (.withdraw e)
  | .load now _ more, (reply : Result Content) =>
    match Proposals.payloadOf reply with
    | .ok (some payload) => lock.afterPayload now more payload
    | .ok none => lock.lookAt now more
    | .error e => .stands (.withdraw e)
  | .withdraw failure, (reply : Result Unit) =>
    match Proposals.withdrawn reply with
    | .ok () => .ended (.error (afterWithdrawal none failure))
    | .error e => .ended (.error (afterWithdrawal (some e) failure))
  | .release, (reply : Result Unit) => .ended (Proposals.withdrawn reply)

/-- What an operation tells about the lock as it takes a course. -/
def Stage.grants : Stage → Course → List Event
  | .release, .ended (.ok ()) => [lock.released]
  | .release, _ => []
  | _, course => course.grants lock

/-! ## The programs take this course -/

variable {lock}

theorem hushed_conclude_error (e : StorageError) :
    (lock.conclude (.error e)).hushed = (Course.stands (.withdraw e)).hushed lock := by
  cases e <;> rfl

theorem hushed_checkAgainst (now : Instant) (names : List String) :
    (Proposals.checkAgainst lock.target lock.token.text now names >>= lock.conclude).hushed =
      (lock.lookAt now names).hushed lock := by
  induction names with
  | nil => rfl
  | cons other more ih =>
    by_cases h : other = lock.token.text
    -- one's own name is skipped without a call
    · rw [h, Proposals.checkAgainst_cons_self, lookAt, if_pos rfl]
      exact ih
    · rw [Proposals.checkAgainst_cons_of_ne h, lookAt, if_neg h]
      rfl

/-- Look at what a loaded proposal is worth. -/
theorem hushed_checkOne (now : Instant) (other : String) (more : List String)
    (reply : Result Content) :
    ((match Proposals.payloadOf reply with
      | .error e => Program.done (.error e)
      | .ok none => Proposals.checkAgainst lock.target lock.token.text now more
      | .ok (some bytes) =>
        Proposals.judge lock.target other bytes now >>= fun active =>
          if active then
            tell (.heldByAnother lock.target other) >>= fun _ =>
              .done (.error (.lockConflict lock.target none))
          else
            tell (.expiredProposalIgnored lock.target other) >>= fun _ =>
              Proposals.checkAgainst lock.target lock.token.text now more) >>=
        lock.conclude).hushed =
      ((Stage.load now other more).after lock reply).hushed lock := by
  simp only [Stage.after]
  cases Proposals.payloadOf reply with
  | error e => exact hushed_conclude_error e
  | ok found =>
    cases found with
    | none => exact hushed_checkAgainst now more
    | some bytes =>
      show _ = (lock.afterPayload now more bytes).hushed lock
      -- an active payload leads to the withdrawal, any other to the further names
      rw [bind_bind, Proposals.hushed_judge_bind, afterPayload]
      split
      · rfl
      · exact hushed_checkAgainst now more

/-- A withdrawal that tells its own failure is one deletion. -/
theorem rollBack_eq (cause : Withdrawal) (blocked : Key) : lock.rollBack cause blocked =
    .step (.call (.delete (Proposals.key lock.target lock.token.text))) fun reply =>
      match Proposals.withdrawn reply with
      | .ok () => .done none
      | .error e =>
        tell (.rollbackFailed cause blocked lock.token e) >>= fun _ => .done (some e) := by
  rw [rollBack, Proposals.withdraw_eq]
  refine congrArg (Program.step (.call (.delete _))) ?_
  funext reply
  show (Program.done (Proposals.withdrawn reply) >>= _) = _
  cases Proposals.withdrawn reply <;> rfl

/-- To give up is to roll back and then return the failure. A conflict and any other failure differ
in what is told only. -/
theorem exists_giveUp_eq (lock : Lock) (failure : StorageError) : ∃ cause blocked,
    lock.giveUp failure = lock.rollBack cause blocked >>= fun rollback =>
      .done (.error (afterWithdrawal rollback failure)) := by
  cases failure <;> exact ⟨_, _, rfl⟩

/-- Giving up is one deletion, and then the failure is returned. -/
theorem giveUp_eq (failure : StorageError) : ∃ next : Result Unit → Program (Result Unit),
    lock.giveUp failure = .step ((Stage.withdraw failure).action lock) next ∧
      ∀ reply, (next reply).hushed =
        ((Stage.withdraw failure).after lock reply).hushed lock := by
  obtain ⟨cause, blocked, hgive⟩ := lock.exists_giveUp_eq failure
  refine ⟨_, by rw [hgive, rollBack_eq]; rfl, fun reply => ?_⟩
  simp only [Stage.after]
  cases Proposals.withdrawn reply <;> rfl

/-- **The programs of locks take the course of the stages.** At every stage the program does the
stage's action. Past what it then tells and counts it stands where the reply leads; of locks it
tells that they are taken or given up when the operation ends so. -/
theorem Stage.program_step (stage : Stage) (lock : Lock) :
    ∃ next : (stage.action lock).Reply → Program (Result Unit),
      stage.program lock = .step (stage.action lock) next ∧
        ∀ reply, (next reply).hushed =
          (stage.grants lock (stage.after lock reply), (stage.after lock reply).program lock) := by
  cases stage with
  | write =>
    -- the write is the head of the whole attempt
    refine ⟨_, lock.acquire_eq, fun (reply : Result Unit) => ?_⟩
    cases reply <;> rfl
  | read => exact ⟨_, rfl, fun now => rfl⟩
  | list now =>
    refine ⟨_, rfl, fun (reply : Result (List Key)) => ?_⟩
    cases reply with
    | ok keys => exact hushed_checkAgainst now _
    | error e => exact hushed_conclude_error e
  | load now other more =>
    refine ⟨_, ?_, hushed_checkOne now other more⟩
    rw [program, Proposals.checkOne, Proposals.payload_eq]
    rfl
  | withdraw failure => exact giveUp_eq failure
  | release =>
    refine ⟨_, by rw [program, Lock.release, Proposals.withdraw_eq]; rfl, fun reply => ?_⟩
    simp only [after]
    cases Proposals.withdrawn reply <;> rfl

/-! ## Looking at names -/

/-- An attempt that looks at names is done if they are all its own; otherwise it has to load the
proposal of some other name first, with all names but its own still before it. -/
theorem lookAt_cases (lock : Lock) (now : Instant) (names : List String) :
    (lock.lookAt now names = .ended (.ok ()) ∧ ∀ name ∈ names, name = lock.token.text) ∨
      ∃ other more, lock.lookAt now names = .stands (.load now other more) ∧
        ∀ name ∈ names, name ≠ lock.token.text → name ∈ other :: more := by
  induction names with
  | nil => exact .inl ⟨rfl, fun name hname => by cases hname⟩
  | cons first names ih =>
    by_cases h : first = lock.token.text
    · rw [lookAt, if_pos h]
      refine ih.imp ?_ ?_
      · rintro ⟨hended, hown⟩
        exact ⟨hended, List.forall_mem_cons.mpr ⟨h, hown⟩⟩
      · rintro ⟨other, more, hstands, hleft⟩
        exact ⟨other, more, hstands, List.forall_mem_cons.mpr ⟨fun hne => absurd h hne, hleft⟩⟩
    · rw [lookAt, if_neg h]
      exact .inr ⟨first, names, rfl, fun name hname _ => hname⟩

namespace Stage

/-- After listing, an attempt withdraws or looks at the names found. -/
theorem after_list_cases (lock : Lock) (now : Instant) (reply : Result (List Key)) :
    (∃ e, (list now).after lock reply = .stands (.withdraw e)) ∨
      ∃ names, (list now).after lock reply = lock.lookAt now names := by
  cases reply with
  | ok keys => exact .inr ⟨_, rfl⟩
  | error e => exact .inl ⟨e, rfl⟩

/-- After loading a proposal, an attempt withdraws or looks at the further names. -/
theorem after_load_cases (lock : Lock) (now : Instant) (other : String) (more : List String)
    (reply : Result Content) :
    (∃ e, (load now other more).after lock reply = .stands (.withdraw e)) ∨
      (load now other more).after lock reply = lock.lookAt now more := by
  simp only [after]
  cases Proposals.payloadOf reply with
  | error e => exact .inl ⟨e, rfl⟩
  | ok found =>
    cases found with
    | none => exact .inr rfl
    | some payload =>
      show (∃ e, lock.afterPayload now more payload = _) ∨ lock.afterPayload now more payload = _
      rw [afterPayload]
      split
      · exact .inl ⟨_, rfl⟩
      · exact .inr rfl

end Stage

end Lock

end ObjectStore

import ObjectStore.Proofs.Discipline
import ObjectStore.Proofs.Nesting
import ObjectStore.Workload.Bench

/-! # What the counters show

A store counts the calls that it carries out, and the operations on locks count themselves. Between
programs and the store stands a wrapper that may answer any call with an error of its own. What the
counters show after a run is compared with two lists of what has happened in it: how the operations
on locks have ended, and which calls have got to the store with which outcome.

* **`Wrapper`** — which calls fail in front of a counting store; **`Wrapper.answer`** is the handler
  of programs behind it.
* **`Program.reached`** — the calls of a run that have got to the store, with its outcomes.
* **`Wrapper.counter_run`** — a run adds to a counter what the program counts and what the store
  counts.
* **`Lock.counters_program`** — an operation on a lock counts its own end, and nothing else.
* **`Body.endings`** — how the operations on locks in a body have ended, those of its sections
  included.
* **`Body.counts_account`** — the counters account for what has happened. -/

namespace ObjectStore

variable {α β σ : Type}

/-! ## A wrapper around a counting store -/

/-- A wrapper around a store that counts. The wrapper answers the calls that fail. It may pass them
on to the store all the same, and keeps the store's outcome to itself then. -/
structure Wrapper extends Oracle where
  /-- Whether a call that fails is passed on, by the number of the calls before it. -/
  passesOn : Nat → Call → Bool

namespace Wrapper

/-- Where a program behind a wrapper has come to. -/
structure State where
  bench : Bench
  /-- How many calls have been made. -/
  asked : Nat := 0
  /-- How many tokens have been drawn. -/
  draws : Nat := 0
  /-- How often the clock has been read. -/
  readings : Nat := 0

/-- What a counter shows. -/
def State.counter (s : State) (c : Counter) : Nat := s.bench.counts.count c

variable (wrapper : Wrapper)

/-- Whether a call gets to the store. -/
def reaches (call : Call) (s : State) : Bool :=
  (wrapper.outage s.asked call).isNone || wrapper.passesOn s.asked call

/-- Make a call: the wrapper answers it, or else the store. -/
def ask (call : Call) (s : State) : call.Outcome × State :=
  let outcome := match wrapper.outage s.asked call with
    | some outage => outage.reply
    | none => (s.bench.reach call).1
  (outcome, { s with
    bench := if wrapper.reaches call s then (s.bench.reach call).2 else s.bench
    asked := s.asked + 1 })

/-- Answer the actions of a program behind the wrapper. -/
def answer : Program.Handler State
  | .call call, s => wrapper.ask call s
  | .now, s => (wrapper.time s.readings, { s with readings := s.readings + 1 })
  | .freshToken, s => (wrapper.token s.draws, { s with draws := s.draws + 1 })
  | .tell notice, s => ((), { s with bench := (Bench.answer (.tell notice) s.bench).2 })
  | .count c, s => ((), { s with bench := (Bench.answer (.count c) s.bench).2 })

/-- The call of an action if it gets to the store, with the outcome that it has there. -/
def reached : Action → State → List Exchange
  | .call call, s =>
    if wrapper.reaches call s then [⟨call, (s.bench.store.apply call).1⟩] else []
  | _, _ => []

end Wrapper

/-! ## What a run counts -/

/-- What an action counts of itself. -/
def Action.counters : Action → List Counter
  | .count c => [c]
  | _ => []

/-- The counter that an exchange with a store belongs to. -/
def Exchange.counter (exchange : Exchange) : Counter := .ofCall exchange.call exchange.outcome

/-- The error that an exchange has ended in, if it has. -/
def Exchange.error? (exchange : Exchange) : Option StorageError :=
  match exchange.outcome with
  | .ok _ => none
  | .error e => some e

namespace Program

/-- What a program counts when it runs with a handler, in order. -/
def counters (handler : Handler σ) : Program β → σ → List Counter
  | .done _, _ => []
  | .step action next, s =>
    action.counters ++ (next (handler action s).1).counters handler (handler action s).2

/-- The calls that get to the store when a program runs behind a wrapper, with the outcomes that
they have there, in order. -/
def reached (wrapper : Wrapper) : Program β → Wrapper.State → List Exchange
  | .done _, _ => []
  | .step action next, s =>
    wrapper.reached action s ++
      (next (wrapper.answer action s).1).reached wrapper (wrapper.answer action s).2

/-- No proposal is refused with a conflict. -/
def Handler.RefusesPlainly (handler : Handler σ) : Prop :=
  ∀ (lock : Lock) (s : σ) (e : StorageError),
    (handler (.call lock.saveCall) s).1 = .error e → e.isConflict = false

variable {handler : Handler σ} {s : σ}

@[simp] theorem counters_done (result : β) : (done result).counters handler s = [] := rfl

@[simp] theorem counters_step (action : Action) (next : action.Reply → Program β) :
    (step action next).counters handler s =
      action.counters ++ (next (handler action s).1).counters handler (handler action s).2 := rfl

/-- Programs that run in a row count one after the other. -/
theorem counters_bind (t : Program α) (f : α → Program β) :
    (t >>= f).counters handler s = t.counters handler s ++
      (f (t.run handler s).1).counters handler (t.run handler s).2 := by
  induction t generalizing s with
  | done result => rfl
  | step action next ih => simp only [step_bind, counters_step, run_step, ih, List.append_assoc]

end Program

namespace Wrapper

variable {wrapper : Wrapper}

/-- **An action adds to a counter what it counts of itself, and what the store counts if it is a
call that gets there.** -/
theorem counter_answer (wrapper : Wrapper) (action : Action) (s : State) (c : Counter) :
    (wrapper.answer action s).2.counter c = s.counter c + action.counters.count c +
      ((wrapper.reached action s).map Exchange.counter).count c := by
  cases action with
  | call call =>
    simp only [answer, ask, reached, State.counter, Action.counters]
    cases wrapper.reaches call s with
    | true => exact List.count_append
    | false => rfl
  | now => rfl
  | freshToken => rfl
  | tell notice => rfl
  | count counter => exact List.count_append

/-- **A run adds to a counter what the program counts, and what the store counts of the calls that
get there.** -/
theorem counter_run (t : Program β) (s : State) (c : Counter) :
    (t.run wrapper.answer s).2.counter c = s.counter c +
      (t.counters wrapper.answer s).count c +
      ((t.reached wrapper s).map Exchange.counter).count c := by
  induction t generalizing s with
  | done result => rfl
  | step action next ih =>
    have hfirst := wrapper.counter_answer action s c
    simp only [Program.run_step, Program.counters, Program.reached, List.map_append,
      List.count_append, ih]
    omega

end Wrapper

/-- No proposal is refused with a conflict behind a wrapper that fails with none. -/
theorem Wrapper.refusesPlainly {wrapper : Wrapper}
    (hplain : wrapper.FailsWith fun e => e.isConflict = false) :
    wrapper.answer.RefusesPlainly := by
  intro lock s e h
  replace h : (wrapper.ask lock.saveCall s).1 = .error e := h
  rw [ask] at h
  cases houtage : wrapper.outage s.asked lock.saveCall with
  | some outage =>
    rw [houtage] at h
    obtain rfl : outage.error = e := Except.error.inj ((outage.reply_eq nofun).symm.trans h)
    exact hplain _ _ _ houtage
  | none =>
    rw [houtage] at h
    replace h : (s.bench.store.save lock.ownKey _).1 = .error e := h
    rw [MemoryStore.save_of_drain (Content.drain_ofBytes _)] at h
    obtain rfl := MemoryStore.eq_limitExceeded_of_put h
    rfl

/-! ## What an operation on a lock counts -/

/-- How an attempt with a result is counted. -/
def Attempt.ofResult : Result Unit → Attempt
  | .ok () => .acquired
  | .error (.lockConflict _ _) => .conflict
  | .error _ => .error

/-- An operation on a lock that has ended. -/
structure Ending where
  operation : LockOperation
  result : Result Unit

/-- The counter that the end of an operation on a lock belongs to. A release that fails is not
counted. -/
def Ending.counter? : Ending → Option Counter
  | ⟨.acquire, result⟩ => some (.attempts (.ofResult result))
  | ⟨.release, .ok ()⟩ => some .releases
  | ⟨.release, .error _⟩ => none

theorem Attempt.ofResult_of_not_conflict {e : StorageError} (h : e.isConflict = false) :
    Attempt.ofResult (.error e) = .error := by
  cases e with
  | lockConflict target rollback => cases h
  | _ => rfl

/-- The withdrawal after a failure does not change how the attempt is counted. -/
theorem Attempt.ofResult_afterWithdrawal (rollback : Option StorageError) (e : StorageError) :
    Attempt.ofResult (.error (Lock.afterWithdrawal rollback e)) = .ofResult (.error e) := by
  cases e <;> rfl

namespace Proposals

variable {handler : Program.Handler σ} {s : σ}

/-- To write a proposal counts nothing, and comes to what the save comes to. -/
theorem counters_create (handler : Program.Handler σ) (target : Key) (token : String)
    (expiration : Expiration) (s : σ) :
    (create target token expiration).counters handler s = [] ∧
      ((create target token expiration).run handler s).1 = (handler (.call (.save (key target token)
        (.ofBytes (Bytes.ofString expiration.encode)))) s).1 := by
  rw [create_eq, Program.counters_step, Program.run_step]
  cases (handler (.call (.save _ _)) s).1 <;> exact ⟨rfl, rfl⟩

theorem counters_judge (target : Key) (token : String) (bytes : Bytes) (now : Instant) :
    (judge target token bytes now).counters handler s = [] := by
  rw [judge]
  cases Expiration.decode bytes <;> rfl

/-- To look at other proposals counts nothing. -/
theorem counters_checkAgainst (target : Key) (own : String) (now : Instant) (names : List String) :
    (checkAgainst target own now names).counters handler s = [] := by
  induction names generalizing s with
  | nil => rfl
  | cons other more ih =>
    by_cases hother : other = own
    · rw [hother, checkAgainst_cons_self, ih]
    · rw [checkAgainst_cons_of_ne hother, checkOne, Program.counters_bind, payload_eq]
      simp only [Program.counters_step, Program.counters_done, Program.run_step, Program.run_done,
        Action.counters, List.nil_append]
      cases payloadOf (handler (.call (.load (key target other))) s).1 with
      | error e => rfl
      | ok found =>
        cases found with
        | none => exact ih
        | some bytes =>
          rw [Program.counters_bind, counters_judge]
          split
          · rfl
          · exact ih

theorem counters_checkSingle (target : Key) (token : String) :
    (checkSingle target token).counters handler s = [] := by
  show (checkAt target token _).counters handler _ = []
  rw [checkAt, tokens_eq, Program.counters_bind, Program.counters_step, Program.run_step]
  cases (handler (.call (.list (root target))) _).1 with
  | ok keys => exact counters_checkAgainst ..
  | error e => rfl

end Proposals

namespace Lock

variable {handler : Program.Handler σ} {s : σ}

theorem counters_rollBack (lock : Lock) (cause : Withdrawal) (blocked : Key) :
    (lock.rollBack cause blocked).counters handler s = [] := by
  rw [rollBack_eq, Program.counters_step]
  cases Proposals.withdrawn (handler (.call (.delete _)) s).1 <;> rfl

/-- Once the other proposals have been judged, the end of the attempt is counted. -/
theorem counters_conclude (lock : Lock) (checked : Result Unit) :
    (lock.conclude checked).counters handler s =
      [.attempts (.ofResult ((lock.conclude checked).run handler s).1)] := by
  cases checked with
  | ok done => rfl
  | error e =>
    obtain ⟨cause, blocked, hgive⟩ := lock.exists_giveUp_eq e
    have hconclude : lock.conclude (.error e) =
        .step (.count (.attempts (.ofResult (.error e)))) fun _ =>
          lock.rollBack cause blocked >>= fun rollback =>
            .done (.error (afterWithdrawal rollback e)) := by
      rw [← hgive]
      cases e <;> rfl
    rw [hconclude, Program.counters_step, Program.counters_bind, counters_rollBack,
      Program.run_step, Program.run_bind, Program.run_done, Attempt.ofResult_afterWithdrawal]
    rfl

/-- An attempt counts its outcome once, at whichever of its exits. -/
theorem counters_acquire (hplain : handler.RefusesPlainly) (lock : Lock) (s : σ) :
    lock.acquire.counters handler s =
      (Ending.counter? ⟨.acquire, (lock.acquire.run handler s).1⟩).toList := by
  obtain ⟨hcounters, hresult⟩ :=
    Proposals.counters_create handler lock.target lock.token.text lock.expiration s
  rw [acquire_eq, Program.counters_bind, hcounters, Program.run_bind]
  cases hcreated : ((Proposals.create lock.target lock.token.text lock.expiration).run
      handler s).1 with
  | ok done =>
    rw [proceed, Program.counters_bind, Proposals.counters_checkSingle, Program.run_bind,
      counters_conclude]
    rfl
  | error e =>
    -- a refused write is counted as an error whatever it is refused with
    show [_] = [Counter.attempts (.ofResult (.error e))]
    rw [Attempt.ofResult_of_not_conflict (hplain lock s e (hresult.symm.trans hcreated))]

/-- A release counts itself if it succeeds. -/
theorem counters_release (lock : Lock) (s : σ) : lock.release.counters handler s =
    (Ending.counter? ⟨.release, (lock.release.run handler s).1⟩).toList := by
  rw [release, Proposals.withdraw_eq, Program.step_bind, Program.counters_step, Program.run_step]
  simp only [Program.done_bind]
  cases Proposals.withdrawn (handler (.call (.delete _)) s).1 <;> rfl

/-- **An operation on a lock counts its own end**, and nothing else. -/
theorem counters_program (hplain : handler.RefusesPlainly) (operation : LockOperation)
    (lock : Lock) (s : σ) : (operation.program lock).counters handler s =
      (Ending.counter? ⟨operation, ((operation.program lock).run handler s).1⟩).toList := by
  cases operation with
  | acquire => exact counters_acquire hplain lock s
  | release => exact counters_release lock s

end Lock

/-! ## What a body counts -/

/-- A section counts the end of its attempt, and if it gets its lock what its body counts and the end
of its release. -/
theorem counters_exclusively (handler : Program.Handler σ) (key : Key) (body : Program (Result α))
    (s : σ) :
    let drawn := (Lock.fresh key).run handler s
    let entry := drawn.1.acquire.run handler drawn.2
    (exclusively key body).counters handler s = drawn.1.acquire.counters handler drawn.2 ++
      match entry.1 with
      | .error _ => []
      | .ok () => body.counters handler entry.2 ++
        drawn.1.release.counters handler (body.run handler entry.2).2 := by
  intro drawn entry
  have hfresh : (Lock.fresh key).counters handler s = [] := rfl
  simp only [exclusively, monadLift_self]
  rw [Program.counters_bind, hfresh, List.nil_append, Program.counters_bind]
  refine congrArg (drawn.1.acquire.counters handler drawn.2 ++ ·) ?_
  show Program.counters handler (match entry.1 with | .error e => _ | .ok () => _) entry.2 = _
  cases entry.1 with
  | error e => rfl
  | ok done =>
    dsimp only
    rw [Program.counters_bind, Program.counters_bind]
    refine congrArg (body.counters handler entry.2 ++ ·) ?_
    -- what is told if the release fails as well is not counted
    cases (body.run handler entry.2).1 <;>
      cases (drawn.1.release.run handler (body.run handler entry.2).2).1 <;>
        exact List.append_nil _

namespace Body

variable {handler : Program.Handler σ}

/-- The actions that stand in a body itself count nothing. -/
def CountsNothing {α : Type} : Body α → Prop
  | .done _ => True
  | .act action next => action.counters = [] ∧ ∀ reply, (next reply).CountsNothing
  | .operate _ _ next => ∀ outcome, (next outcome).CountsNothing
  | .enclose _ inner next => inner.CountsNothing ∧ ∀ outcome, (next outcome).CountsNothing

/-- The operations on locks that a body carries out, with how they end: those that stand in the body
itself, and for each section in it its attempt and, if that succeeds, what its own body carries out
and then its release. -/
def endings (handler : Program.Handler σ) {α : Type} : Body α → σ → List Ending
  | .done _, _ => []
  | .act action next, s =>
    (next (handler action s).1).endings handler (handler action s).2
  | .operate operation lock next, s =>
    let ended := (operation.program lock).run handler s
    ⟨operation, ended.1⟩ :: (next ended.1).endings handler ended.2
  | .enclose key inner next, s =>
    let drawn := (Lock.fresh key).run handler s
    let entry := drawn.1.acquire.run handler drawn.2
    let ended := (exclusively (m := Program) key inner.program).run handler s
    (⟨.acquire, entry.1⟩ :: match entry.1 with
      | .error _ => []
      | .ok () => inner.endings handler entry.2 ++
        [⟨.release, (drawn.1.release.run handler (inner.program.run handler entry.2).2).1⟩]) ++
      (next ended.1).endings handler ended.2

/-- **A body counts the ends of the operations on locks that it carries out**, and nothing else. -/
theorem counters_program (hplain : handler.RefusesPlainly) {body : Body α}
    (hbody : body.CountsNothing) (s : σ) :
    body.program.counters handler s =
      (body.endings handler s).flatMap fun ending => ending.counter?.toList := by
  induction body generalizing s with
  | done result => rfl
  | act action next ih =>
    rw [program, Program.counters_step, hbody.1, endings, ih _ (hbody.2 _)]
    rfl
  | operate operation lock next ih =>
    rw [program, Program.counters_bind, Lock.counters_program hplain, endings, ih _ (hbody _)]
    rfl
  | enclose key inner next ihinner ihnext =>
    rw [program, Program.counters_bind, counters_exclusively, endings, List.flatMap_append,
      ihnext _ (hbody.2 _), Lock.counters_acquire hplain, List.flatMap_cons]
    refine congrArg (_ ++ · ++ _) ?_
    cases (((Lock.fresh key).run handler s).1.acquire.run handler
      ((Lock.fresh key).run handler s).2).1 with
    | error e => rfl
    | ok done =>
      dsimp only
      rw [ihinner hbody.1, Lock.counters_release, List.flatMap_append, List.flatMap_singleton]

end Body

/-! ## The account -/

namespace Ending

variable {ending : Ending}

theorem counter?_eq_attempts_iff {outcome : Attempt} :
    ending.counter? = some (.attempts outcome) ↔
      ending.operation = .acquire ∧ Attempt.ofResult ending.result = outcome := by
  rcases ending with ⟨_ | _, _ | _⟩ <;> simp [counter?]

theorem counter?_eq_releases_iff : ending.counter? = some .releases ↔
    ending.operation = .release ∧ ending.result = .ok () := by
  rcases ending with ⟨_ | _, _ | _⟩ <;> simp [counter?]

theorem counter?_ne_operations {operation : Operation} {status : String} :
    ending.counter? ≠ some (.operations operation status) := by
  rcases ending with ⟨_ | _, _ | _⟩ <;> simp [counter?]

/-- Every attempt has one of three outcomes. -/
theorem countP_acquire (endings : List Ending) :
    endings.countP (fun ending => ending.operation = .acquire) =
      endings.countP (fun ending =>
        ending.operation = .acquire ∧ Attempt.ofResult ending.result = .acquired) +
      endings.countP (fun ending =>
        ending.operation = .acquire ∧ Attempt.ofResult ending.result = .conflict) +
      endings.countP fun ending =>
        ending.operation = .acquire ∧ Attempt.ofResult ending.result = .error := by
  induction endings with
  | nil => rfl
  | cons ending more ih =>
    simp only [List.countP_cons, ih]
    cases ending.operation <;> cases Attempt.ofResult ending.result <;> simp <;> omega

end Ending

/-- No error has the code of a success. -/
theorem StorageError.code_ne_ok (e : StorageError) : e.code ≠ "ok" := by
  cases e <;> simp [code]

namespace Exchange

variable {exchange : Exchange} {operation : Operation}

/-- A call is counted as a success if it ends in no error. -/
theorem counter_eq_ok_iff : exchange.counter = .operations operation "ok" ↔
    exchange.call.operation = operation ∧ exchange.error? = none := by
  rw [counter, Counter.ofCall, Counter.operations.injEq, error?]
  refine and_congr_right fun _ => ?_
  cases exchange.outcome with
  | ok reply => exact ⟨fun _ => rfl, fun _ => rfl⟩
  | error e => exact ⟨fun h => absurd h e.code_ne_ok, nofun⟩

/-- A call is counted under any other status if that is the code of the error that it ends in. -/
theorem counter_eq_code_iff {code : String} (hcode : code ≠ "ok") :
    exchange.counter = .operations operation code ↔
      exchange.call.operation = operation ∧ exchange.error?.map StorageError.code = some code := by
  rw [counter, Counter.ofCall, Counter.operations.injEq, error?]
  refine and_congr_right fun _ => ?_
  cases exchange.outcome with
  | ok reply => exact ⟨fun h => absurd h.symm hcode, nofun⟩
  | error e => exact Option.some_inj.symm

end Exchange

/-- Exchanges are no operations on locks. -/
theorem Exchange.count_counter_eq_zero (exchanges : List Exchange) {c : Counter}
    (h : ∀ operation status, .operations operation status ≠ c) :
    (exchanges.map Exchange.counter).count c = 0 := by
  rw [List.count_eq_zero, List.mem_map]
  rintro ⟨exchange, -, rfl⟩
  exact h _ _ rfl

/-- **The counters account for what has happened.** A body carries out any calls, operations on locks
and further sections, and counts nothing else. It runs behind a wrapper in front of a counting store.
The wrapper may fail any call with any error that is not a conflict, whether or not it passes it on.

The counters of attempts grow by the attempts that have ended so, those of sections included: with
the lock taken, with a conflict, or with another error. Together they grow by the attempts. The
counter of releases grows by the releases that have succeeded. The counters of an operation grow by
the calls of that operation that have got to the store, those made for locks included: with the status
`ok` by those that have succeeded there, and with any other status by those that have ended there in
an error of which it is the code. -/
theorem Body.counts_account (wrapper : Wrapper)
    (hplain : wrapper.FailsWith fun e => e.isConflict = false) (body : Body α)
    (hbody : body.CountsNothing) (s : Wrapper.State) :
    let after := (body.program.run wrapper.answer s).2
    let endings := body.endings wrapper.answer s
    let reached := body.program.reached wrapper s
    (∀ outcome, after.counter (.attempts outcome) = s.counter (.attempts outcome) +
      endings.countP fun ending =>
        ending.operation = .acquire ∧ Attempt.ofResult ending.result = outcome) ∧
    after.counter (.attempts .acquired) + after.counter (.attempts .conflict) +
        after.counter (.attempts .error) =
      s.counter (.attempts .acquired) + s.counter (.attempts .conflict) +
        s.counter (.attempts .error) + endings.countP (fun ending => ending.operation = .acquire) ∧
    after.counter .releases = s.counter .releases +
      endings.countP (fun ending => ending.operation = .release ∧ ending.result = .ok ()) ∧
    (∀ operation, after.counter (.operations operation "ok") =
      s.counter (.operations operation "ok") +
        reached.countP fun exchange =>
          exchange.call.operation = operation ∧ exchange.error? = none) ∧
    ∀ operation code, code ≠ "ok" → after.counter (.operations operation code) =
      s.counter (.operations operation code) +
        reached.countP fun exchange =>
          exchange.call.operation = operation ∧
            exchange.error?.map StorageError.code = some code := by
  intro after endings reached
  have hcounter (c : Counter) : after.counter c = s.counter c +
      endings.countP (fun ending => ending.counter? == some c) +
      (reached.map Exchange.counter).count c := by
    rw [← List.count_filterMap, List.filterMap_eq_flatMap_toList,
      ← counters_program (Wrapper.refusesPlainly hplain) hbody]
    exact Wrapper.counter_run body.program s c
  have hattempts (outcome : Attempt) : after.counter (.attempts outcome) =
      s.counter (.attempts outcome) + endings.countP fun ending =>
        ending.operation = .acquire ∧ Attempt.ofResult ending.result = outcome := by
    rw [hcounter, Exchange.count_counter_eq_zero reached (c := .attempts outcome) fun _ _ => nofun]
    simp only [beq_eq_decide, Ending.counter?_eq_attempts_iff, Nat.add_zero]
  have hoperations (operation : Operation) (status : String) :
      after.counter (.operations operation status) =
        s.counter (.operations operation status) +
          reached.countP fun exchange => exchange.counter = .operations operation status := by
    -- what ends is an operation on a lock, and not one of the store
    have hendings : endings.countP (fun ending =>
        ending.counter? == some (.operations operation status)) = 0 :=
      List.countP_eq_zero.mpr fun _ _ => by simp [Ending.counter?_ne_operations]
    rw [hcounter, hendings, Nat.add_zero, List.count, List.countP_map]
    simp only [Function.comp_def, beq_eq_decide]
  refine ⟨hattempts, ?_, ?_, fun operation => ?_, fun operation code hcode => ?_⟩
  · rw [hattempts, hattempts, hattempts, Ending.countP_acquire]
    omega
  · rw [hcounter, Exchange.count_counter_eq_zero reached (c := .releases) fun _ _ => nofun]
    simp only [beq_eq_decide, Ending.counter?_eq_releases_iff, Nat.add_zero]
  · rw [hoperations]
    simp only [Exchange.counter_eq_ok_iff]
  · rw [hoperations]
    simp only [Exchange.counter_eq_code_iff hcode]

/-! ## A section in a section on its key -/

/-- The first call goes through. After that deletions are carried out, but the wrapper fails them all
the same. -/
def Wrapper.deafened : Wrapper :=
  { (Oracle.undeletable Lock.outOfService).sparing 1 with passesOn _ _ := true }

/-- A release of a lock that nobody has taken, and then a section on a key in a section on that
key. -/
def strayAndNested : Body Nat :=
  .operate .release ⟨Key.ofString "b", .numbered 7, .never⟩ fun _ =>
    .enclose (Key.ofString "a") (.enclose (Key.ofString "a") (.done (.ok 1)) .done) .done

/-- The first release succeeds although there is nothing to delete: the release is counted, and the
deletion under the code of its error. Later the inner attempt is a conflict, and both its withdrawal
and the release of the outer section fail: no release is counted, but the deletions are, as
successes. -/
theorem counts_account_stray_and_nested :
    (Wrapper.deafened.FailsWith fun e => e.isConflict = false) ∧ strayAndNested.CountsNothing ∧
    let after := (strayAndNested.program.run Wrapper.deafened.answer
      { bench := { store := .unlimited, clock := .epoch } }).2
    after.counter (.attempts .acquired) = 1 ∧ after.counter (.attempts .conflict) = 1 ∧
      after.counter .releases = 1 ∧ after.counter (.operations .delete "NotFound") = 1 ∧
      after.counter (.operations .delete "ok") = 2 := by
  have hplain : Wrapper.deafened.FailsWith fun e => e.isConflict = false := by
    refine Oracle.FailsWith.sparing ?_ 1
    exact Oracle.failsWith_undeletable rfl
  have hbody : strayAndNested.CountsNothing :=
    fun _ => ⟨⟨trivial, fun _ => trivial⟩, fun _ => trivial⟩
  obtain ⟨hattempts, -, hreleases, hsucceeded, hfailed⟩ := Body.counts_account Wrapper.deafened
    hplain strayAndNested hbody { bench := { store := .unlimited, clock := .epoch } }
  refine ⟨hplain, hbody, ?_, ?_, ?_, ?_, ?_⟩
  · exact (hattempts .acquired).trans (by decide +kernel)
  · exact (hattempts .conflict).trans (by decide +kernel)
  · exact hreleases.trans (by decide +kernel)
  · exact (hfailed .delete "NotFound" (by decide)).trans (by decide +kernel)
  · exact (hsucceeded .delete).trans (by decide +kernel)

end ObjectStore

import ObjectStore.Lock.Exclusive
import ObjectStore.Proofs.Faults

/-! # Exclusive sections whose calls fail

An exclusive section draws a token, tries to take the lock, runs its body and gives the lock up. Any
storage call on the way can fail, those of the body among them, and the body can do whatever a
program can: use locks, hold exclusive sections of its own, or remove the proposal of the section
that it stands in.

* **`Oracle.entry`** — the attempt of a section to take its lock.
* **`outcomeOf`** — what a section comes to, by how its body and the release ended.
* **`Oracle.run_exclusively_of_ok`**, **`Oracle.run_exclusively_of_error`** — a section goes on to
  its body or ends, by how the attempt ended.
* **`counted`** — a body that counts its runs.
* **`exclusively_under_faults`** — what a section does, whatever its body is and whichever calls
  fail. -/

namespace ObjectStore

variable {α β γ σ τ : Type}

/-! ## Programs with a state of their own -/

namespace Program

/-- To run a program in front of one that has a state of its own leaves that state as it is. -/
theorem run_lift_bind (handler : Handler τ) (t : Program β) (f : β → StateT σ Program γ)
    (memory : σ) (s : τ) : (((monadLift t : StateT σ Program β) >>= f).run memory).run handler s =
      ((f (t.run handler s).1).run memory).run handler (t.run handler s).2 := by
  rw [StateT.run_bind, run_bind, StateT.run_monadLift, run_bind]
  rfl

/-- To run two programs in a row hands the states of the first to the second. -/
theorem run_stateful_bind (handler : Handler τ) (t : StateT σ Program β)
    (f : β → StateT σ Program γ) (memory : σ) (s : τ) : ((t >>= f).run memory).run handler s =
      ((f ((t.run memory).run handler s).1.1).run ((t.run memory).run handler s).1.2).run handler
        ((t.run memory).run handler s).2 := by
  rw [StateT.run_bind, run_bind]

end Program

/-! ## Giving a lock up -/

namespace Lock

variable {oracle : Oracle} {lock : Lock} {s : Oracle.State}

/-- A release whose deletion fails returns that error. -/
theorem run_release_of_outage (hfound : oracle.FailsWith fun e => e.isNotFound = false)
    {outage : Outage lock.deleteCall}
    (houtage : oracle.outage s.calls.length lock.deleteCall = some outage) :
    lock.release.run oracle.answer s =
      (.error outage.error, { s with calls := s.calls ++ [lock.deleteCall] }) := by
  have hask := Oracle.ask_of_some houtage
  rw [outage.reply_eq nofun] at hask
  refine Stage.release.run_under (.ended (.error outage.error)) hask ?_
  simp only [Stage.after, Proposals.withdrawn, hfound _ _ _ houtage]
  rfl

/-- A release whose deletion does not fail succeeds, whether or not there was a proposal. -/
theorem run_release_of_none (houtage : oracle.outage s.calls.length lock.deleteCall = none) :
    lock.release.run oracle.answer s = (.ok (), { s with
      store := (s.store.delete lock.ownKey).2
      calls := s.calls ++ [lock.deleteCall] }) :=
  Stage.release.run_under (.ended (.ok ())) (Oracle.ask_of_none houtage)
    (congrArg Course.ended (withdrawn_delete ..))

/-- A release makes one call, whether or not it fails. -/
theorem calls_run_release (hfound : oracle.FailsWith fun e => e.isNotFound = false) (lock : Lock)
    (s : Oracle.State) :
    (lock.release.run oracle.answer s).2.calls = s.calls ++ [lock.deleteCall] := by
  cases houtage : oracle.outage s.calls.length lock.deleteCall with
  | some outage => rw [run_release_of_outage hfound houtage]
  | none => rw [run_release_of_none houtage]

end Lock

/-! ## Sections -/

/-- What a section comes to: the body's error, else that of the release, else the body's value. -/
def outcomeOf : Result α → Result Unit → Result α
  | .error e, _ => .error e
  | .ok _, .error e => .error e
  | .ok value, .ok () => .ok value

namespace Oracle

/-- The lock of a section that begins in a state. -/
def sectionLock (oracle : Oracle) (key : Key) (s : State) : Lock :=
  ⟨key, oracle.token s.draws, .never⟩

/-- The attempt of a section to take its lock. -/
def entry (oracle : Oracle) (key : Key) (s : State) : Result Unit × State :=
  (oracle.sectionLock key s).acquire.run oracle.answer { s with draws := s.draws + 1 }

variable {oracle : Oracle} {key : Key} {s s' : State}

/-- Every section begins with the attempt to take its lock. -/
theorem run_fresh (oracle : Oracle) (key : Key) (s : State) : (Lock.fresh key).run oracle.answer s =
    (oracle.sectionLock key s, { s with draws := s.draws + 1 }) := rfl

/-- A section that does not get its lock ends with the error of the attempt. -/
theorem run_exclusively_of_error {e : StorageError} (hentry : oracle.entry key s = (.error e, s'))
    (body : StateT σ Program (Result α)) (memory : σ) :
    ((exclusively key body).run memory).run oracle.answer s = ((.error e, memory), s') := by
  rw [entry] at hentry
  rw [exclusively, Program.run_lift_bind, Program.run_lift_bind, run_fresh, hentry]
  rfl

/-- A section that gets its lock runs its body and gives the lock up. -/
theorem run_exclusively_of_ok (hentry : oracle.entry key s = (.ok (), s'))
    (body : StateT σ Program (Result α)) (memory : σ) :
    let inside := (body.run memory).run oracle.answer s'
    let released := (oracle.sectionLock key s).release.run oracle.answer inside.2
    ((exclusively key body).run memory).run oracle.answer s =
      ((outcomeOf inside.1.1 released.1, inside.1.2), released.2) := by
  intro inside released
  rw [entry] at hentry
  rw [exclusively, Program.run_lift_bind, Program.run_lift_bind, run_fresh, hentry]
  dsimp only
  rw [Program.run_stateful_bind, Program.run_lift_bind]
  -- the release's error is only told of if there is one of the body
  cases inside.1.1 <;> cases released.1 <;> rfl

end Oracle

/-! ## How often a body runs -/

/-- A body that counts its runs. -/
def counted (body : StateT σ Program (Result α)) : StateT (Nat × σ) Program (Result α) :=
  fun (runs, memory) => do
    let (result, memory) ← body.run memory
    return (result, runs + 1, memory)

theorem run_counted (handler : Program.Handler τ) (body : StateT σ Program (Result α)) (runs : Nat)
    (memory : σ) (s : τ) : ((counted body).run (runs, memory)).run handler s =
      ((((body.run memory).run handler s).1.1, runs + 1, ((body.run memory).run handler s).1.2),
        ((body.run memory).run handler s).2) :=
  Program.run_bind handler (body.run memory) _ s

/-! ## Bodies that are plain programs -/

/-- A body without a state of its own can be given one that it does nothing with. -/
theorem exclusively_monadLift (key : Key) (body : Program (Result α)) (memory : σ) :
    (exclusively key (monadLift body : StateT σ Program (Result α))).run memory =
      exclusively key body >>= fun result => .done (result, memory) := by
  simp only [exclusively, StateT.run_bind, StateT.run_monadLift, monadLift_self, bind_assoc,
    pure_bind]
  refine bind_congr fun lock => bind_congr fun outcome => ?_
  cases outcome with
  | error e => rfl
  | ok done =>
    simp only [StateT.run_bind, StateT.run_monadLift, monadLift_self, bind_assoc, pure_bind]
    refine bind_congr fun result => bind_congr fun released => ?_
    cases result <;> cases released <;> rfl

namespace Oracle

variable {oracle : Oracle} {key : Key} {s s' : State}

/-- How often a section runs its body. -/
def sectionRuns (oracle : Oracle) (key : Key) (body : Program (Result α)) (s : State) : Nat :=
  (((exclusively key (counted (monadLift body : StateT Unit Program (Result α)))).run (0, ())).run
    oracle.answer s).1.2.1

/-- A section with a plain body ends as it would if the body had a state of its own. -/
theorem run_exclusively_monadLift (handler : Program.Handler τ) (key : Key)
    (body : Program (Result α)) (memory : σ) (s : τ) :
    ((exclusively key (monadLift body : StateT σ Program (Result α))).run memory).run handler s =
      ((((exclusively key body).run handler s).1, memory),
        ((exclusively key body).run handler s).2) := by
  rw [exclusively_monadLift, Program.run_bind]
  rfl

/-- A section that does not get its lock does not run its body. -/
theorem plain_of_error {e : StorageError} (hentry : oracle.entry key s = (.error e, s'))
    (body : Program (Result α)) :
    (exclusively key body).run oracle.answer s = (.error e, s') ∧
      oracle.sectionRuns key body s = 0 := by
  have hended := run_exclusively_of_error hentry (monadLift body : StateT Unit Program _) ()
  rw [run_exclusively_monadLift] at hended
  refine ⟨Prod.ext (congrArg (·.1.1) hended) (congrArg (·.2) hended), ?_⟩
  rw [sectionRuns, run_exclusively_of_error hentry]

/-- A section that gets its lock runs its body once. -/
theorem plain_of_ok (hentry : oracle.entry key s = (.ok (), s')) (body : Program (Result α)) :
    let inside := body.run oracle.answer s'
    let released := (oracle.sectionLock key s).release.run oracle.answer inside.2
    (exclusively key body).run oracle.answer s = (outcomeOf inside.1 released.1, released.2) ∧
      oracle.sectionRuns key body s = 1 := by
  intro inside released
  have hended := run_exclusively_of_ok hentry (monadLift body : StateT Unit Program _) ()
  rw [run_exclusively_monadLift, StateT.run_monadLift, monadLift_self, Program.run_bind] at hended
  refine ⟨Prod.ext (congrArg (·.1.1) hended) (congrArg (·.2) hended), ?_⟩
  rw [sectionRuns, run_exclusively_of_ok hentry]
  simp only [run_counted]

end Oracle

/-! ## Any body and any failures -/

/-- **What an exclusive section does**, whatever its body is and whichever calls fail, as long as no
error that a call fails with says that an entry is absent.

If the section does not get its lock, the body does not run, and the section ends with the error of
the attempt. If it does get its lock, the body runs once, and then there is one more call, which
deletes the proposal of the section. The section comes to the body's error if there is one, else to
the error of that call if it fails, else to the body's value. Unless that call fails, the proposal
is gone. -/
theorem exclusively_under_faults (oracle : Oracle)
    (hfound : oracle.FailsWith fun e => e.isNotFound = false) (key : Key)
    (body : StateT σ Program (Result α)) (memory : σ) (s : Oracle.State) :
    let lock := oracle.sectionLock key s
    let entry := oracle.entry key s
    let ended := ((exclusively key (counted body)).run (0, memory)).run oracle.answer s
    ((exclusively key body).run memory).run oracle.answer s =
      ((ended.1.1, ended.1.2.2), ended.2) ∧
    (∀ e, entry.1 = .error e → ended = ((.error e, 0, memory), entry.2)) ∧
    (entry.1 = .ok () →
      let inside := (body.run memory).run oracle.answer entry.2
      let failure := oracle.outage inside.2.calls.length lock.deleteCall
      ended.1.2 = (1, inside.1.2) ∧
      ended.2.calls = inside.2.calls ++ [lock.deleteCall] ∧
      (∀ e, inside.1.1 = .error e → ended.1.1 = .error e) ∧
      (∀ value, inside.1.1 = .ok value →
        (∀ outage, failure = some outage → ended.1.1 = .error outage.error) ∧
        (failure = none → ended.1.1 = .ok value)) ∧
      (failure = none → ended.2.store.entries.find? lock.ownKey = none)) := by
  intro lock entry ended
  rcases hentry : oracle.entry key s with ⟨outcome, s'⟩
  cases outcome with
  | error e =>
    have hended : ended = ((.error e, 0, memory), s') :=
      Oracle.run_exclusively_of_error hentry (counted body) (0, memory)
    have hentry' : entry = (.error e, s') := hentry
    rw [Oracle.run_exclusively_of_error hentry body memory, hended, hentry']
    refine ⟨rfl, fun e' he => ?_, nofun⟩
    obtain rfl : e = e' := Except.error.inj he
    rfl
  | ok done =>
    have hended : ended = _ := Oracle.run_exclusively_of_ok hentry (counted body) (0, memory)
    have hentry' : entry = (.ok (), s') := hentry
    rw [Oracle.run_exclusively_of_ok hentry body memory]
    simp only [run_counted, Nat.zero_add] at hended
    rw [hended, hentry']
    refine ⟨rfl, nofun, fun _ => ?_⟩
    intro inside failure
    refine ⟨rfl, Lock.calls_run_release hfound lock inside.2, fun e he => ?_, ?_, fun hnone => ?_⟩
    -- the body's error goes first, however the release has ended
    · exact congrArg (outcomeOf · _) he
    · intro value hvalue
      refine ⟨fun outage houtage => ?_, fun hnone => ?_⟩
      · have hreleased := Lock.run_release_of_outage hfound houtage
        exact congrArg₂ outcomeOf hvalue (congrArg Prod.fst hreleased)
      · have hreleased := Lock.run_release_of_none hnone
        exact congrArg₂ outcomeOf hvalue (congrArg Prod.fst hreleased)
    · show (lock.release.run oracle.answer inside.2).2.store.entries.find? lock.ownKey = none
      rw [Lock.run_release_of_none hnone]
      exact MemoryStore.find?_delete ..

/-! ## A section inside of another -/

/-- A section on a key that stands in another section on that key. -/
def reentrant : StateT Unit Program (Result Nat) :=
  exclusively (Key.ofString "a") (pure (.ok 1))

/-- **The conflict of a section inside goes out unchanged.** No proposal can be withdrawn, neither
that of the section inside, which tells so, nor that of the section around it. -/
theorem exclusively_under_faults_of_reentrant :
    ((Oracle.undeletable Lock.outOfService).FailsWith fun e => e.isNotFound = false) ∧
    (((exclusively (Key.ofString "a") (counted reentrant)).run (0, ())).run
      (Oracle.undeletable Lock.outOfService).answer { store := .unlimited }).1 =
        (.error (.lockConflict (Key.ofString "a") (some Lock.outOfService)), 1, ()) := by
  have hfound : (Oracle.undeletable Lock.outOfService).FailsWith fun e => e.isNotFound = false :=
    Oracle.failsWith_undeletable rfl
  have henters : ((Oracle.undeletable Lock.outOfService).entry (Key.ofString "a")
      { store := .unlimited }).1 = .ok () := by
    decide +kernel
  have hinside : ((reentrant.run ()).run (Oracle.undeletable Lock.outOfService).answer
      ((Oracle.undeletable Lock.outOfService).entry (Key.ofString "a")
        { store := .unlimited }).2).1.1 =
          .error (.lockConflict (Key.ofString "a") (some Lock.outOfService)) := by
    decide +kernel
  obtain ⟨-, -, hends⟩ := exclusively_under_faults _ hfound (Key.ofString "a") reentrant ()
    { store := .unlimited }
  obtain ⟨hruns, -, herror, -⟩ := hends henters
  exact ⟨hfound, Prod.ext (herror _ hinside) hruns⟩

end ObjectStore

import ObjectStore.Proofs.Enclosure
import ObjectStore.Proofs.Sections

/-! # Exclusive sections inside of each other

A body of an exclusive section can hold further sections, and so can their bodies. Each of them
writes a proposal of its own and removes it. None of that touches the proposal of the section around
them, so no lock on its key can be taken inside, however deep.

* **`Program.Throughout`** — what is so all the while that a program runs.
* **`Lock.within_program`** — an operation on a lock writes nothing but the proposal of the lock.
* **`Body`** — a body with the sections that stand in it, and **`Body.program`** its program.
* **`Body.Spares`** — a body that leaves the proposal of a lock alone.
* **`Body.Reaches`** — which parts of a body are carried out, and from where.
* **`Body.throughout_program`** — a lock remains held all the while that such a body runs.
* **`exclusively_not_reentrant`** — what becomes of the attempts and sections in such a body. -/

namespace ObjectStore

variable {α β σ : Type}

/-! ## What is so all the while -/

namespace Program

variable {handler : Handler σ} {P : σ → Prop} {s : σ}

/-- A condition holds before and after every action of a program that runs with a handler. -/
def Throughout (handler : Handler σ) (P : σ → Prop) : Program β → σ → Prop
  | .done _, s => P s
  | .step action next, s => P s ∧
      (next (handler action s).1).Throughout handler P (handler action s).2

theorem Throughout.first {t : Program β} (h : t.Throughout handler P s) : P s := by
  cases t with
  | done result => exact h
  | step action next => exact h.1

theorem Throughout.last {t : Program β} (h : t.Throughout handler P s) : P (t.run handler s).2 := by
  induction t generalizing s with
  | done result => exact h
  | step action next ih => exact ih _ h.2

theorem Throughout.mono {Q : σ → Prop} (hPQ : ∀ s, P s → Q s) {t : Program β}
    (h : t.Throughout handler P s) : t.Throughout handler Q s := by
  induction t generalizing s with
  | done result => exact hPQ s h
  | step action next ih => exact ⟨hPQ s h.1, ih _ h.2⟩

/-- Programs that run in a row: the second one begins where the first one has ended. -/
theorem throughout_bind {t : Program α} {f : α → Program β} :
    (t >>= f).Throughout handler P s ↔ t.Throughout handler P s ∧
      (f (t.run handler s).1).Throughout handler P (t.run handler s).2 := by
  induction t generalizing s with
  | done result => exact ⟨fun h => ⟨h.first, h⟩, fun h => h.2⟩
  | step action next ih => simp only [step_bind, Throughout, run_step, ih, and_assoc]

/-- What actions of a kind preserve is so all the while that a program of that kind runs. -/
theorem Within.throughout {kind : Action → Prop}
    (hstep : ∀ action s, kind action → P s → P (handler action s).2) {t : Program β}
    (ht : t.Within kind) (h : P s) : t.Throughout handler P s := by
  induction t generalizing s with
  | done result => exact h
  | step action next ih => exact ⟨h, ih _ (ht.2 _) (hstep action s ht.1 h)⟩

end Program

/-! ## What an operation on a lock writes -/

namespace Lock

/-- Locks with different targets or tokens have different proposals. -/
theorem ownKey_ne {lock other : Lock} (h : lock.target = other.target → lock.token ≠ other.token) :
    other.ownKey ≠ lock.ownKey := by
  intro heq
  obtain ⟨htarget, htoken⟩ := Proposals.key_eq_key_iff.mp heq
  exact h htarget.symm htoken.symm

/-- Past what they tell and count, programs of locks do nothing but actions of stages. -/
theorem within_of_quieted {lock : Lock} {kind : Action → Prop}
    (hstage : ∀ stage : Stage, kind (stage.action lock)) (htell : ∀ notice, kind (.tell notice))
    (hcount : ∀ counter, kind (.count counter)) {t : Program (Result Unit)} {course : Course}
    (h : t.quieted = course.program lock) : t.Within kind := by
  induction t generalizing course with
  | done result => trivial
  | step action next ih =>
    -- an action that is not silent is that of the stage
    have hloud (hquiet : (Program.step action next).quieted = .step action next) :
        (Program.step action next).Within kind := by
      cases course with
      | ended result => cases hquiet.symm.trans h
      | stands stage =>
        obtain ⟨next', hprogram, hnext⟩ := stage.program_step lock
        have hafter : ∀ reply, ∃ course : Course, (next' reply).quieted = course.program lock :=
          fun reply => ⟨_, congrArg Prod.snd (hnext reply)⟩
        have hkind := hstage stage
        have hstep := (hquiet.symm.trans h).trans hprogram
        clear hprogram hnext
        generalize stage.action lock = action' at next' hafter hkind hstep
        cases hstep
        exact ⟨hkind, fun reply => (hafter reply).elim fun _ hcourse => ih reply hcourse⟩
    cases action with
    | tell notice => exact ⟨htell notice, fun _ => ih () h⟩
    | count counter => exact ⟨hcount counter, fun _ => ih () h⟩
    | call call => exact hloud rfl
    | now => exact hloud rfl
    | freshToken => exact hloud rfl

/-- **An operation on a lock writes nothing but the proposal of the lock.** -/
theorem within_program (operation : LockOperation) (lock : Lock) :
    (operation.program lock).Within fun action => ∀ k ∈ action.written, k = lock.ownKey := by
  have hstage : ∀ stage : Stage, ∀ k ∈ (stage.action lock).written, k = lock.ownKey :=
    fun _ _ hk => Stage.eq_key_of_mem_written hk
  have hbegins : (operation.program lock).quieted =
      (Course.stands (Contest.first operation)).program lock := by
    cases operation <;> rfl
  exact within_of_quieted hstage (fun _ => nofun) (fun _ => nofun) hbegins

end Lock

/-! ## Attempts none of whose calls fail -/

namespace Oracle.IsFair

variable {oracle : Oracle} {lock : Lock} {s s' : Oracle.State}

theorem failsWith (hfair : oracle.IsFair) (kind : StorageError → Prop) : oracle.FailsWith kind := by
  intro n call outage houtage
  rw [hfair] at houtage
  cases houtage

/-- The only obstacles are proposals that count. -/
theorem obstacle_eq_none_iff (hfair : oracle.IsFair) {entries : Entries} {now : Instant} {n : Nat}
    {names : List String} : lock.obstacle oracle entries now n names = none ↔
      ∀ name ∈ names, Proposals.counts lock.target entries now name = false := by
  induction names generalizing n with
  | nil => simp [Lock.obstacle]
  | cons other more ih =>
    rw [Lock.obstacle_cons, Lock.hinders, hfair, List.forall_mem_cons, ← @ih (n + 1)]
    cases Proposals.counts lock.target entries now other <;> simp

/-- An attempt that finds a proposal of a rival that counts is a conflict. -/
theorem run_acquire_of_rival (hfair : oracle.IsFair) (hlimit : s.store.limit = 0) {name : String}
    (hname : name ∈ lock.rivals s.store.entries)
    (hcounts : Proposals.counts lock.target s.store.entries (oracle.time s.readings) name = true) :
    (lock.acquire.run oracle.answer s).1 = .error (.lockConflict lock.target none) := by
  have hsaved := Lock.ask_save_of_unlimited (hfair _ lock.saveCall) hlimit
  cases hfirst : lock.obstacle oracle s.store.entries (oracle.time s.readings) (s.calls.length + 2)
      (lock.rivals s.store.entries) with
  | none =>
    have hfree := hfair.obstacle_eq_none_iff.mp hfirst name hname
    rw [hcounts] at hfree
    cases hfree
  | some found =>
    rw [Lock.run_acquire_of_obstacle (hfair.failsWith _) hsaved (hfair ..) hfirst, Lock.rejected,
      hfair, Lock.hindrance, hfair]

/-- An attempt that finds no proposal of a rival that counts succeeds. -/
theorem run_acquire_of_free (hfair : oracle.IsFair) (hlimit : s.store.limit = 0)
    (hfree : ∀ name ∈ lock.rivals s.store.entries,
      Proposals.counts lock.target s.store.entries (oracle.time s.readings) name = false) :
    lock.acquire.run oracle.answer s =
      (.ok (), lock.lookedAt s ((lock.rivals s.store.entries).map lock.loadCall)) :=
  Lock.run_acquire_of_clear (hfair.failsWith _)
    (Lock.ask_save_of_unlimited (hfair _ lock.saveCall) hlimit) (hfair ..)
    (hfair.obstacle_eq_none_iff.mpr hfree)

/-- What an attempt that has succeeded has done. -/
theorem eq_lookedAt_of_acquired (hfair : oracle.IsFair) (hlimit : s.store.limit = 0)
    (h : lock.acquire.run oracle.answer s = (.ok (), s')) :
    s' = lock.lookedAt s ((lock.rivals s.store.entries).map lock.loadCall) := by
  by_cases hfree : ∀ name ∈ lock.rivals s.store.entries,
      Proposals.counts lock.target s.store.entries (oracle.time s.readings) name = false
  · exact congrArg Prod.snd (h.symm.trans (hfair.run_acquire_of_free hlimit hfree))
  · push Not at hfree
    obtain ⟨name, hname, hcounts⟩ := hfree
    have hconflict := hfair.run_acquire_of_rival hlimit hname (Bool.not_eq_false _ ▸ hcounts)
    rw [h] at hconflict
    cases hconflict

/-- A section that gets its lock runs its body once, comes to what the body does, and removes its
proposal. -/
theorem run_exclusively_of_ok (hfair : oracle.IsFair) {key : Key}
    (hentry : oracle.entry key s = (.ok (), s')) (body : Program (Result α)) :
    let inside := body.run oracle.answer s'
    (exclusively key body).run oracle.answer s = (inside.1, { inside.2 with
        store := (inside.2.store.delete (oracle.sectionLock key s).ownKey).2
        calls := inside.2.calls ++ [(oracle.sectionLock key s).deleteCall] }) ∧
      oracle.sectionRuns key body s = 1 := by
  intro inside
  obtain ⟨hended, hruns⟩ := plain_of_ok hentry body
  rw [Lock.run_release_of_none (hfair ..)] at hended
  refine ⟨hended.trans (Prod.ext ?_ rfl), hruns⟩
  show outcomeOf inside.1 (.ok ()) = inside.1
  cases inside.1 <;> rfl

end Oracle.IsFair

/-! ## A lock that is held -/

/-- An action that draws a token. -/
def Action.Draws (token : Token) : (action : Action) → action.Reply → Prop
  | .freshToken, (drawn : Token) => drawn = token
  | _, _ => False

namespace Oracle

variable {oracle : Oracle} {outer lock : Lock} {key : Key} {s s' : State}

/-- The proposal of a lock stands in a store without limit, and the token is not drawn again. -/
structure Holds (oracle : Oracle) (outer : Lock) (s : State) : Prop where
  unlimited : s.store.limit = 0
  stays : s.store.entries.find? outer.ownKey = some []
  spent : ∀ n, s.draws ≤ n → oracle.token n ≠ outer.token

/-- A lock remains held if its proposal is not written. -/
theorem Holds.answer (h : oracle.Holds outer s) {action : Action}
    (hwritten : outer.ownKey ∉ action.written) : oracle.Holds outer (oracle.answer action s).2 where
  unlimited := (oracle.limit_answer action s).trans h.unlimited
  stays := (oracle.find?_answer action s hwritten).trans h.stays
  spent n hn := h.spent n ((oracle.le_draws_answer action s).trans hn)

/-- A lock remains held if no proposal of its target is written. -/
theorem Holds.act (h : oracle.Holds outer s) {action : Action}
    (hspares : ∀ k ∈ action.written, ¬ Proposals.IsProposal outer.target k) :
    oracle.Holds outer (oracle.answer action s).2 :=
  h.answer fun hmem => hspares _ hmem (Proposals.parent_key ..)

/-- No token that is drawn is that of a lock that is held. -/
theorem Holds.not_draws (h : oracle.Holds outer s) (action : Action) :
    ¬ action.Draws outer.token (oracle.answer action s).1 := by
  cases action with
  | freshToken => exact h.spent s.draws (Nat.le_refl _)
  | _ => exact id

/-- A lock remains held all the while that another one is operated on. -/
theorem Holds.throughout_program (h : oracle.Holds outer s) (operation : LockOperation)
    (hne : lock.target = outer.target → lock.token ≠ outer.token) :
    (operation.program lock).Throughout oracle.answer (oracle.Holds outer) s := by
  refine (Lock.within_program operation lock).throughout (fun action s hown hs => ?_) h
  exact hs.answer fun hmem => Lock.ownKey_ne hne (hown _ hmem)

/-- A lock remains held when a token is drawn. -/
theorem Holds.drawn (h : oracle.Holds outer s) :
    oracle.Holds outer { s with draws := s.draws + 1 } :=
  show oracle.Holds outer (oracle.answer .freshToken s).2 from h.answer nofun

/-- The lock of a section inside has another token than one that is held. -/
theorem Holds.sectionLock_token_ne (h : oracle.Holds outer s) (key : Key) :
    (oracle.sectionLock key s).token ≠ outer.token := h.spent s.draws (Nat.le_refl _)

/-- A lock remains held all the while that a section inside tries to take its lock. -/
theorem Holds.throughout_entry (h : oracle.Holds outer s) (key : Key) :
    (oracle.sectionLock key s).acquire.Throughout oracle.answer (oracle.Holds outer)
      { s with draws := s.draws + 1 } :=
  h.drawn.throughout_program .acquire fun _ => h.sectionLock_token_ne key

/-- A lock remains held all the while that a section runs whose body lets it be held. -/
theorem Holds.throughout_exclusively (h : oracle.Holds outer s) {body : Program (Result α)}
    (hbody : ∀ {s}, oracle.Holds outer s → body.Throughout oracle.answer (oracle.Holds outer) s) :
    (exclusively key body).Throughout oracle.answer (oracle.Holds outer) s := by
  have hfresh : (Lock.fresh key).Throughout oracle.answer (oracle.Holds outer) s := ⟨h, h.drawn⟩
  have hentry := h.throughout_entry key
  simp only [exclusively, monadLift_self]
  refine Program.throughout_bind.mpr ⟨hfresh, Program.throughout_bind.mpr ⟨hentry, ?_⟩⟩
  rw [run_fresh]
  have hopened := hentry.last
  rw [← entry] at hopened ⊢
  cases (oracle.entry key s).1 with
  | error e => exact hopened
  | ok done =>
    have hreleased := (hbody hopened).last.throughout_program .release fun _ =>
      h.sectionLock_token_ne key
    refine Program.throughout_bind.mpr ⟨hbody hopened, Program.throughout_bind.mpr ⟨hreleased, ?_⟩⟩
    -- the error of the release is told of if the body has failed as well
    split
    · exact hreleased.last
    · exact hreleased.last
    · exact hreleased.last
    · exact ⟨hreleased.last, hreleased.last⟩

/-- What is so all the while that a section runs is so all the while that its body runs. -/
theorem throughout_body {P : State → Prop} {body : Program (Result α)}
    (hentry : oracle.entry key s = (.ok (), s'))
    (h : (exclusively key body).Throughout oracle.answer P s) :
    body.Throughout oracle.answer P s' := by
  simp only [exclusively, monadLift_self] at h
  have hentered := (Program.throughout_bind.mp (Program.throughout_bind.mp h).2).2
  rw [run_fresh, ← entry, hentry] at hentered
  exact (Program.throughout_bind.mp hentered).1

/-- A lock is not taken while another one on its target is held. -/
theorem Holds.acquire_conflicts (h : oracle.Holds outer s) (hfair : oracle.IsFair)
    (htarget : lock.target = outer.target) (hne : lock.token ≠ outer.token) :
    (lock.acquire.run oracle.answer s).1 = .error (.lockConflict outer.target none) := by
  have hstays : s.store.entries.find? (Proposals.key lock.target outer.token.text) = some [] :=
    htarget ▸ h.stays
  have hrival : outer.token.text ∈ lock.rivals s.store.entries :=
    Lock.mem_rivals_iff.mpr ⟨outer.token, hne.symm, rfl, Option.isSome_of_eq_some hstays⟩
  have hcounts : Proposals.counts lock.target s.store.entries (oracle.time s.readings)
      outer.token.text = true := by
    rw [Proposals.counts, hstays]
    rfl
  rw [hfair.run_acquire_of_rival h.unlimited hrival hcounts, htarget]

/-- A section that gets its lock holds it, if no token is drawn twice. -/
theorem holds_of_entry (hfair : oracle.IsFair) (hdistinct : Function.Injective oracle.token)
    (hlimit : s.store.limit = 0) (hentry : oracle.entry key s = (.ok (), s')) :
    oracle.Holds (oracle.sectionLock key s) s' := by
  obtain rfl : s' = (oracle.sectionLock key s).lookedAt { s with draws := s.draws + 1 } _ :=
    hfair.eq_lookedAt_of_acquired hlimit hentry
  refine ⟨?_, Lock.find?_posted_self hlimit, fun n hn heq => ?_⟩
  · exact (MemoryStore.limit_put ..).trans hlimit
  · exact absurd (hdistinct heq) (Nat.ne_of_gt hn)

end Oracle

/-! ## Bodies -/

/-- A body of an exclusive section, with the locks and the further sections that it uses. -/
inductive Body : Type → Type 1 where
  /-- The body is finished. -/
  | done {α : Type} (result : Result α) : Body α
  /-- Do something. -/
  | act {α : Type} (action : Action) (next : action.Reply → Body α) : Body α
  /-- Try to take a lock, or give one up. -/
  | operate {α : Type} (operation : LockOperation) (lock : Lock) (next : Result Unit → Body α) :
      Body α
  /-- Hold a section on a key. -/
  | enclose {α β : Type} (key : Key) (inner : Body β) (next : Result β → Body α) : Body α

namespace Body

variable {oracle : Oracle} {outer : Lock} {s t : Oracle.State}

/-- The program of a body. -/
def program {α : Type} : Body α → Program (Result α)
  | .done result => .done result
  | .act action next => .step action fun reply => (next reply).program
  | .operate operation lock next =>
    operation.program lock >>= fun outcome => (next outcome).program
  | .enclose key inner next =>
    exclusively (m := Program) key inner.program >>= fun outcome => (next outcome).program

/-- A body leaves the proposal of a lock alone: its actions write no proposal of the lock's target,
and its locks on that target have other tokens. The sections in it are on any keys. Tokens that it
draws are other tokens. -/
def Spares (outer : Lock) {α : Type} : Body α → Prop
  | .done _ => True
  | .act action next => (∀ k ∈ action.written, ¬ Proposals.IsProposal outer.target k) ∧
      ∀ reply, ¬ action.Draws outer.token reply → (next reply).Spares outer
  | .operate _ lock next => (lock.target = outer.target → lock.token ≠ outer.token) ∧
      ∀ outcome, (next outcome).Spares outer
  | .enclose _ inner next => inner.Spares outer ∧ ∀ outcome, (next outcome).Spares outer

/-- A part of a body is carried out, from a state on, when the body runs. -/
inductive Reaches (oracle : Oracle) {β : Type} (part : Body β) (t : Oracle.State) :
    {α : Type} → Body α → Oracle.State → Prop where
  | here : Reaches oracle part t part t
  | act {α : Type} {action : Action} {next : action.Reply → Body α} {s : Oracle.State}
      (h : Reaches oracle part t (next (oracle.answer action s).1) (oracle.answer action s).2) :
      Reaches oracle part t (.act action next) s
  | operate {α : Type} {operation : LockOperation} {lock : Lock} {next : Result Unit → Body α}
      {s : Oracle.State}
      (h : Reaches oracle part t (next ((operation.program lock).run oracle.answer s).1)
        ((operation.program lock).run oracle.answer s).2) :
      Reaches oracle part t (.operate operation lock next) s
  | inside {α γ : Type} {key : Key} {inner : Body γ} {next : Result γ → Body α}
      {s opened : Oracle.State} (hentry : oracle.entry key s = (.ok (), opened))
      (h : Reaches oracle part t inner opened) : Reaches oracle part t (.enclose key inner next) s
  | after {α γ : Type} {key : Key} {inner : Body γ} {next : Result γ → Body α} {s : Oracle.State}
      (h : Reaches oracle part t (next ((exclusively key inner.program).run oracle.answer s).1)
        ((exclusively key inner.program).run oracle.answer s).2) :
      Reaches oracle part t (.enclose key inner next) s

/-- **A lock remains held all the while that a body runs which leaves its proposal alone.** -/
theorem throughout_program {body : Body α} (hspares : body.Spares outer)
    (h : oracle.Holds outer s) :
    body.program.Throughout oracle.answer (oracle.Holds outer) s := by
  induction body generalizing s with
  | done result => exact h
  | act action next ih =>
    exact ⟨h, ih _ (hspares.2 _ (h.not_draws action)) (h.act hspares.1)⟩
  | operate operation lock next ih =>
    have hlock := h.throughout_program operation hspares.1
    exact Program.throughout_bind.mpr ⟨hlock, ih _ (hspares.2 _) hlock.last⟩
  | enclose key inner next ihinner ihnext =>
    have hsection : (exclusively (m := Program) key inner.program).Throughout oracle.answer
        (oracle.Holds outer) s := h.throughout_exclusively fun hs => ihinner hspares.1 hs
    exact Program.throughout_bind.mpr ⟨hsection, ihnext _ (hspares.2 _) hsection.last⟩

/-- What is so all the while that a body runs is so all the while that a part of it is carried out.
So a lock that the body leaves alone is held then, and the part leaves it alone as well. -/
theorem Reaches.holds {part : Body β} {body : Body α} (hreach : Reaches oracle part t body s)
    (hspares : body.Spares outer)
    (h : body.program.Throughout oracle.answer (oracle.Holds outer) s) :
    part.Spares outer ∧ part.program.Throughout oracle.answer (oracle.Holds outer) t := by
  induction hreach with
  | here => exact ⟨hspares, h⟩
  | act hreach ih => exact ih (hspares.2 _ (h.1.not_draws _)) h.2
  | operate hreach ih => exact ih (hspares.2 _) (Program.throughout_bind.mp h).2
  | inside hentry hreach ih =>
    exact ih hspares.1 (Oracle.throughout_body hentry (Program.throughout_bind.mp h).1)
  | after hreach ih => exact ih (hspares.2 _) (Program.throughout_bind.mp h).2

end Body

/-! ## No section inside of a section on its key -/

/-- **Exclusive sections are not reentrant.** A section has got its lock in a store without limit,
no call fails and no token is drawn twice. Its body leaves the section's proposal alone, and may try
to take the lock with other tokens and hold further sections, on any keys and to any depth.

The body runs with the section's proposal in the store all the while, until the release removes it.
Whenever an attempt to take a lock on the key is carried out in the body, it is a conflict. Whenever
a section on the key is carried out in the body, it ends with a conflict and does not run its own
body. Whenever a section on a key without a proposal that counts is carried out, it runs its body,
and leaves no proposal. -/
theorem exclusively_not_reentrant (oracle : Oracle) (hfair : oracle.IsFair)
    (hdistinct : Function.Injective oracle.token) (key : Key) (body : Body α)
    (s opened : Oracle.State) (hlimit : s.store.limit = 0)
    (hentry : oracle.entry key s = (.ok (), opened))
    (hspares : body.Spares (oracle.sectionLock key s)) :
    let outer := oracle.sectionLock key s
    let inside := body.program.run oracle.answer opened
    (exclusively key body.program).run oracle.answer s = (inside.1, { inside.2 with
      store := (inside.2.store.delete outer.ownKey).2
      calls := inside.2.calls ++ [outer.deleteCall] }) ∧
    body.program.Throughout oracle.answer
      (fun t => t.store.entries.find? outer.ownKey = some []) opened ∧
    (∀ (γ : Type) (lock : Lock) (next : Result Unit → Body γ) (t : Oracle.State),
      (Body.operate .acquire lock next).Reaches oracle t body opened → lock.target = key →
        (lock.acquire.run oracle.answer t).1 = .error (.lockConflict key none)) ∧
    (∀ (β γ : Type) (inner : Body β) (next : Result β → Body γ) (t : Oracle.State),
      (Body.enclose key inner next).Reaches oracle t body opened →
        ((exclusively key inner.program).run oracle.answer t).1 = .error (.lockConflict key none) ∧
          oracle.sectionRuns key inner.program t = 0) ∧
    (∀ (β γ : Type) (other : Key) (inner : Body β) (next : Result β → Body γ) (t : Oracle.State),
      (Body.enclose other inner next).Reaches oracle t body opened →
        (∀ u : Token,
          Proposals.counts other t.store.entries (oracle.time t.readings) u.text = false) →
        oracle.sectionRuns other inner.program t = 1 ∧
          ((exclusively other inner.program).run oracle.answer t).2.store.entries.find?
            (oracle.sectionLock other t).ownKey = none) := by
  intro outer inside
  have hopened := Oracle.holds_of_entry hfair hdistinct hlimit hentry
  have hheld : body.program.Throughout oracle.answer (oracle.Holds outer) opened :=
    Body.throughout_program hspares hopened
  refine ⟨?_, ?_, ?_, ?_, ?_⟩
  · exact (hfair.run_exclusively_of_ok hentry body.program).1
  · exact hheld.mono fun _ => Oracle.Holds.stays
  · intro γ lock next t hreach htarget
    obtain ⟨hpart, ht⟩ := hreach.holds hspares hheld
    exact ht.first.acquire_conflicts hfair htarget (hpart.1 htarget)
  · intro β γ inner next t hreach
    have ht := (hreach.holds hspares hheld).2.first
    have htarget : (oracle.sectionLock key t).target = outer.target := rfl
    have hconflict := ht.drawn.acquire_conflicts hfair htarget (ht.sectionLock_token_ne key)
    rcases hinner : oracle.entry key t with ⟨outcome, t'⟩
    obtain rfl : outcome = .error (.lockConflict key none) :=
      (congrArg Prod.fst hinner).symm.trans hconflict
    obtain ⟨hended, hruns⟩ := Oracle.plain_of_error hinner inner.program
    exact ⟨congrArg Prod.fst hended, hruns⟩
  · intro β γ other inner next t hreach hfree
    have ht := (hreach.holds hspares hheld).2.first
    have hinner : oracle.entry other t = (.ok (), _) :=
      hfair.run_acquire_of_free ht.unlimited fun name hname => by
        obtain ⟨u, -, rfl, -⟩ := Lock.mem_rivals_iff.mp hname
        exact hfree u
    obtain ⟨hended, hruns⟩ := hfair.run_exclusively_of_ok hinner inner.program
    refine ⟨hruns, ?_⟩
    rw [hended]
    exact MemoryStore.find?_delete ..

/-! ## Two sections deep -/

/-- No call fails, tokens are numbered, and the clock always shows the beginning of 1970. -/
def Oracle.ordinary : Oracle := ⟨fun _ _ => none, .numbered, fun _ => .epoch⟩

/-- A section on a key in a section on the proposal root of that key. -/
def twoDeep : Body Nat :=
  .enclose (Proposals.root (Key.ofString "a")) (.enclose (Key.ofString "a") (.done (.ok 1)) .done)
    .done

/-- The state in which the section on the key has got its lock. -/
def openedOnce : Oracle.State :=
  (Oracle.ordinary.entry (Key.ofString "a") { store := .unlimited }).2

/-- The state in which the section on the proposal root has got its lock as well. -/
def openedTwice : Oracle.State :=
  (Oracle.ordinary.entry (Proposals.root (Key.ofString "a")) openedOnce).2

/-- Between the two sections on the key stands one on another key, and nothing of that helps. -/
theorem exclusively_not_reentrant_two_deep :
    Oracle.ordinary.IsFair ∧ Function.Injective Oracle.ordinary.token ∧
    MemoryStore.unlimited.limit = 0 ∧
    Oracle.ordinary.entry (Key.ofString "a") { store := .unlimited } = (.ok (), openedOnce) ∧
    twoDeep.Spares (Oracle.ordinary.sectionLock (Key.ofString "a") { store := .unlimited }) ∧
    ((exclusively (Key.ofString "a") (Body.done (.ok 1)).program).run Oracle.ordinary.answer
      openedTwice).1 = .error (.lockConflict (Key.ofString "a") none) ∧
    Oracle.ordinary.sectionRuns (Key.ofString "a") (Body.done (.ok 1)).program openedTwice = 0 := by
  have hfair : Oracle.ordinary.IsFair := fun _ _ => rfl
  have hentry : Oracle.ordinary.entry (Key.ofString "a") { store := .unlimited } =
      (.ok (), openedOnce) := Prod.ext (by decide +kernel) rfl
  have hinner : Oracle.ordinary.entry (Proposals.root (Key.ofString "a")) openedOnce =
      (.ok (), openedTwice) := Prod.ext (by decide +kernel) rfl
  have hspares : twoDeep.Spares
      (Oracle.ordinary.sectionLock (Key.ofString "a") { store := .unlimited }) :=
    ⟨⟨trivial, fun _ => trivial⟩, fun _ => trivial⟩
  have hreach : (Body.enclose (Key.ofString "a") (.done (.ok 1)) .done).Reaches Oracle.ordinary
      openedTwice twoDeep openedOnce := .inside hinner .here
  obtain ⟨-, -, -, hsections, -⟩ := exclusively_not_reentrant Oracle.ordinary hfair
    Contest.injective_numbered (Key.ofString "a") twoDeep { store := .unlimited } openedOnce rfl
    hentry hspares
  exact ⟨hfair, Contest.injective_numbered, rfl, hentry, hspares,
    hsections Nat Nat (.done (.ok 1)) .done openedTwice hreach⟩

end ObjectStore

import ObjectStore.Lock.Exclusive
import ObjectStore.Proofs.Contest

/-! # Exclusive sections among each other

Any number of parties each run a body of data calls while holding the lock on one key. Their
programs proceed in single steps in any order, and everything they do is put into a log.

* **`Site`** — the key, and the tokens and bodies of the parties.
* **`Site.Step`** — one step of the whole; `Site.Reachable` — the states that it can come to.
* **`Site.play`** — the state that a schedule of turns leads to (`Site.reaches_play`).
* **`Site.serialLog`** — what the log of the sections would be if the bodies ran one after
  another. -/

namespace ObjectStore

/-! ## Programs of one kind -/

namespace Program

variable {β σ : Type}

/-- A program all of whose actions are of one kind. -/
def Within (kind : Action → Prop) : Program β → Prop
  | .done _ => True
  | .step action next => kind action ∧ ∀ reply, (next reply).Within kind

/-- The result of a program that is finished. -/
def result? : Program β → Option β
  | .done result => some result
  | .step _ _ => none

theorem result?_eq_some_iff {t : Program β} {result : β} :
    t.result? = some result ↔ t = .done result := by
  cases t <;> simp [result?]

/-- What a program does when it runs with a handler. -/
def events (handler : Handler σ) : Program β → σ → List Event
  | .done _, _ => []
  | .step action next, s =>
    ⟨action, (handler action s).1⟩ ::
      (next (handler action s).1).events handler (handler action s).2

end Program

/-- A call other than a listing, on data keys only. -/
def Action.IsDataCall (data : Key → Bool) : Action → Prop
  | .call c => c.operation ≠ .list ∧ ∀ k ∈ c.keys, data k = true
  | _ => False

/-! ## Sites -/

/-- Parties that run bodies under the lock on one key. -/
structure Site (ι α : Type) where
  key : Key
  token : ι → Token
  /-- No two parties draw the same token. -/
  token_injective : Function.Injective token
  /-- The keys that the bodies work on. -/
  data : Key → Bool
  /-- No data key lies at or below the proposal root. -/
  data_apart : ∀ k, data k = true → (Proposals.root key).contains k = false
  body : ι → Program (Result α)
  /-- The bodies do nothing but data calls. -/
  body_within : ∀ i, (body i).Within (Action.IsDataCall data)

namespace Site

variable {ι α : Type} (site : Site ι α)

/-- The lock of a party. -/
def lock (i : ι) : Lock := ⟨site.key, site.token i, .never⟩

/-- The program of a party. -/
def program (i : ι) : Program (Result α) := exclusively (m := Program) site.key (site.body i)

/-- All parties at some time, with a log of what they have done, the latest last. -/
structure State (ι α : Type) where
  world : World
  /-- What is left to do of each party's program. -/
  rest : ι → Program (Result α)
  log : List (ι × Event)

/-- What a party comes to with the reply to its action: it goes on silently up to its next one. -/
def State.advance [DecidableEq ι] (s : State ι α) (i : ι) (event : Event) (t : Program (Result α))
    (world : World) : State ι α :=
  ⟨world, Function.update s.rest i t.quieted, s.log ++ (event :: t.asides).map (Prod.mk i)⟩

/-- Nobody has done anything yet. -/
def start (world : World) : State ι α := ⟨world, site.program, []⟩

/-- The calls that others may make: those that write neither data nor proposals. -/
def Spares (call : Call) : Prop :=
  ∀ k ∈ call.written, site.data k = false ∧ k.parent ≠ some (Proposals.root site.key)

/-- One step of all parties together. -/
inductive Step [DecidableEq ι] : State ι α → State ι α → Prop where
  /-- A party gets the reply to its next action. -/
  | act {s} {i : ι} {action : Action} {next : action.Reply → Program (Result α)}
      {reply : action.Reply} {world : World} (h : s.rest i = .step action next)
      (ha : Answered Weather.fair (site.token i) s.world action reply world) :
      Step s (s.advance i ⟨action, reply⟩ (next reply) world)
  /-- Time passes. -/
  | tick {s} (later : Instant) (h : s.world.clock ≤ later) :
      Step s { s with world := { s.world with clock := later } }
  /-- Somebody else uses the store. -/
  | other {s} (call : Call) (h : site.Spares call) :
      Step s { s with world := { s.world with store := (s.world.store.apply call).2 } }

/-- The states that all parties together can come to. -/
abbrev Reachable [DecidableEq ι] (world : World) : State ι α → Prop :=
  Relation.ReflTransGen site.Step (site.start world)

/-! ## Logs -/

/-- Whether an event belongs to a section: the lock is taken, data is used or the lock is given
up. -/
def concerns : Event → Bool
  | ⟨.call c, _⟩ => c.keys.all site.data
  | event => event.isGrant

/-- What the parties have done in their sections. -/
def sectionLog (log : List (ι × Event)) : List (ι × Event) :=
  log.filter fun entry => site.concerns entry.2

/-- The parties that have taken the lock, in the order in which they have. -/
def acquirers (log : List (ι × Event)) : List ι :=
  log.filterMap fun
    | (i, ⟨.tell (.lockAcquired _ _), _⟩) => some i
    | _ => none

/-! ## Serial runs -/

/-- The result of a body that runs alone, and the world after it. -/
def alone (i : ι) (world : World) : Result α × World :=
  (site.body i).run (World.serve (site.token i)) world

/-- The world once bodies have run one after another. -/
def after (order : List ι) (world : World) : World :=
  order.foldl (fun world i => (site.alone i world).2) world

/-- The log of a section that runs alone. -/
def soloLog (i : ι) (world : World) : List (ι × Event) :=
  ((site.lock i).acquired :: (site.body i).events (World.serve (site.token i)) world ++
    [(site.lock i).released]).map (Prod.mk i)

/-- The log of sections that run one after another. -/
def serialLog : List ι → World → List (ι × Event)
  | [], _ => []
  | i :: more, world => site.soloLog i world ++ serialLog more (site.alone i world).2

/-! ## Steps of a party's program -/

/-- What is left once the lock has been given up: the body's error goes first. -/
def finish (result : Result α) (released : Result Unit) : Program (Result α) :=
  match result, released with
  | .ok value, .ok () => .done (.ok value)
  | .ok _, .error e => .done (.error e)
  | .error e, .ok () => .done (.error e)
  | .error e, .error failure =>
    Program.tell (.releaseFailed site.key failure) >>= fun _ => .done (.error e)

/-- Give the lock up after the body. -/
def leave (i : ι) (result : Result α) : Program (Result α) :=
  (site.lock i).release >>= site.finish result

/-- Go on once the attempt to take the lock has ended. -/
def enter (i : ι) : Result Unit → Program (Result α)
  | .error e => .done (.error e)
  | .ok () => site.body i >>= site.leave i

/-- **A party draws its token, tries to take the lock, and in case it succeeds runs its body and
gives the lock up.** -/
theorem program_eq (i : ι) : ∃ next : Token → Program (Result α),
    site.program i = .step .freshToken next ∧
      next (site.token i) = (site.lock i).acquire >>= site.enter i := by
  refine ⟨_, rfl, ?_⟩
  refine congrArg ((site.lock i).acquire >>= ·) ?_
  funext outcome
  cases outcome with
  | error e => rfl
  | ok done =>
    refine congrArg (site.body i >>= ·) ?_
    funext result
    refine congrArg ((site.lock i).release >>= ·) ?_
    funext released
    cases result <;> cases released <;> rfl

/-! ## Schedules -/

/-- A party's turn: its next action is answered as it should be. A party that is done has none. -/
def turn [DecidableEq ι] (s : State ι α) (i : ι) : State ι α :=
  match s.rest i with
  | .done _ => s
  | .step action next =>
    if action.isAside then s
    else
      let (reply, world) := World.serve (site.token i) action s.world
      s.advance i ⟨action, reply⟩ (next reply) world

/-- What becomes of all parties as they take turns. -/
def play [DecidableEq ι] (s : State ι α) (schedule : List ι) : State ι α := schedule.foldl site.turn s

variable {site} [DecidableEq ι]

/-- A turn is a step, or nothing. -/
theorem reaches_turn (s : State ι α) (i : ι) :
    Relation.ReflTransGen site.Step s (site.turn s i) := by
  rw [turn]
  split
  · exact .refl
  · next action next hrest =>
    split
    · exact .refl
    · next haside =>
      have hserved := Answered.serve Weather.fair (site.token i) s.world (by simpa using haside)
      exact .single (.act hrest hserved)

/-- **Whatever turns the parties take, they come to a state that can be reached.** -/
theorem reaches_play (s : State ι α) (schedule : List ι) :
    Relation.ReflTransGen site.Step s (site.play s schedule) := by
  induction schedule generalizing s with
  | nil => exact .refl
  | cons i more ih => exact (reaches_turn s i).trans (ih (site.turn s i))

end Site

end ObjectStore

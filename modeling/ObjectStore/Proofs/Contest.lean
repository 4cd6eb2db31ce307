import Mathlib.Logic.Function.Basic
import Mathlib.Logic.Relation
import ObjectStore.Proofs.Attempt
import ObjectStore.Proofs.Frame

/-! # Contests for a target

Any number of parties, each with a lock of its own token on one target, take and give up their locks
on one store. They proceed in single steps in any order; a party that stops for ever is one that
takes no further step.

* **`Contest`** — the target, and the tokens and expirations of the parties.
* **`Party`** — what a party is doing, and which operations it has completed.
* **`Contest.Step`** — one step of the whole: a party calls an operation or gets the reply to its
  next action, time passes, or somebody else uses the store.
* **`Contest.StageStep`** — the same steps where the parties' programs are known by their stages;
  `Contest.exists_stages` says that every run is such a run. -/

namespace ObjectStore

/-! ## Parties -/

/-- A completed operation. -/
structure Completed where
  operation : LockOperation
  /-- Whether it got past writing a proposal. -/
  wrote : Bool
  result : Result Unit

/-- What a party is doing, where a `ρ` tells what is left to do of an operation. -/
inductive Activity (ρ : Type) where
  /-- No operation is in progress. -/
  | idle
  /-- An operation is in progress; `wrote` tells whether it has written a proposal yet. -/
  | busy (operation : LockOperation) (wrote : Bool) (rest : ρ)

instance {ρ : Type} (activity : Activity ρ) : Decidable (activity = .idle) :=
  match activity with
  | .idle => isTrue rfl
  | .busy _ _ _ => isFalse nofun

/-- A party to a contest. -/
structure Party (ρ : Type) where
  activity : Activity ρ
  /-- The operations completed so far, the latest first. -/
  history : List Completed

namespace Party

variable {ρ σ : Type}

/-- A party that has done nothing yet. -/
def newcomer : Party ρ := ⟨.idle, []⟩

/-- Describe what is left to do in another way. -/
def map (f : ρ → σ) (p : Party ρ) : Party σ :=
  match p.activity with
  | .idle => ⟨.idle, p.history⟩
  | .busy operation wrote rest => ⟨.busy operation wrote (f rest), p.history⟩

/-- A party with a program left to do: it goes on silently until it is done or needs a reply. -/
def goOn (history : List Completed) (operation : LockOperation) (wrote : Bool)
    (rest : Program (Result Unit)) : Party (Program (Result Unit)) :=
  match rest.quieted with
  | .done result => ⟨.idle, ⟨operation, wrote, result⟩ :: history⟩
  | rest => ⟨.busy operation wrote rest, history⟩

/-- A party whose operation has taken a course so far. -/
def follow (history : List Completed) (operation : LockOperation) (wrote : Bool) :
    Lock.Course → Party Lock.Stage
  | .stands stage => ⟨.busy operation wrote stage, history⟩
  | .ended result => ⟨.idle, ⟨operation, wrote, result⟩ :: history⟩

/-- Going on with a program whose course is known is following that course. -/
theorem goOn_eq_map_follow {lock : Lock} {rest : Program (Result Unit)} {course : Lock.Course}
    (h : rest.quieted = course.program lock) (history : List Completed)
    (operation : LockOperation) (wrote : Bool) :
    goOn history operation wrote rest =
      (follow history operation wrote course).map fun stage => stage.program lock := by
  rw [goOn, h]
  cases course with
  | ended result => rfl
  | stands stage =>
    obtain ⟨next, hprogram, -⟩ := stage.program_step lock
    simp only [Lock.Course.program, follow, map, hprogram]

end Party

/-- Whether an action has written an entry. -/
def Action.wrote : (action : Action) → action.Reply → Bool
  | .call (.save _ _), (reply : Result Unit) => reply.isOk
  | _, _ => false

/-! ## Contests -/

/-- Parties that contend for a target. -/
structure Contest (ι : Type) where
  target : Key
  token : ι → Token
  expiration : ι → Expiration
  /-- No two parties have the same token. -/
  token_injective : Function.Injective token

namespace Contest

variable {ι : Type} [DecidableEq ι] (contest : Contest ι) (weather : Weather)

/-- The lock of a party. -/
def lock (i : ι) : Lock := ⟨contest.target, contest.token i, contest.expiration i⟩

/-- The key of a party's proposal. -/
def key (i : ι) : Key := Proposals.key contest.target (contest.token i).text

/-- The payload of a party's proposal. -/
def payload (i : ι) : Bytes := Bytes.ofString (contest.expiration i).encode

/-- A contest at some time, where a `ρ` tells what is left to do of an operation. -/
structure State (ι ρ : Type) where
  world : World
  party : ι → Party ρ

/-- A contest where no party has done anything yet. -/
def start {ρ : Type} (world : World) : State ι ρ := ⟨world, fun _ => Party.newcomer⟩

/-- The calls that others may make: those that write no immediate child of the proposal root. -/
def Spares (call : Call) : Prop :=
  ∀ k ∈ call.written, k.parent ≠ some (Proposals.root contest.target)

/-- One step of a contest. -/
inductive Step : State ι (Program (Result Unit)) → State ι (Program (Result Unit)) → Prop where
  /-- An idle party calls an operation. -/
  | call {s} (i : ι) (operation : LockOperation) (h : (s.party i).activity = .idle) :
      Step s ⟨s.world, Function.update s.party i
        (.goOn (s.party i).history operation false (operation.program (contest.lock i)))⟩
  /-- A party gets the reply to its next action and goes on. -/
  | act {s} {i : ι} {operation : LockOperation} {wrote : Bool} {action : Action}
      {next : action.Reply → Program (Result Unit)} {reply : action.Reply} {world : World}
      (h : (s.party i).activity = .busy operation wrote (.step action next))
      (ha : Answered weather (contest.token i) s.world action reply world) :
      Step s ⟨world, Function.update s.party i
        (.goOn (s.party i).history operation (wrote || action.wrote reply) (next reply))⟩
  /-- Time passes. -/
  | tick {s} (later : Instant) (h : s.world.clock ≤ later) :
      Step s ⟨{ s.world with clock := later }, s.party⟩
  /-- Somebody else uses the store. -/
  | other {s} (call : Call) (h : contest.Spares call) :
      Step s ⟨{ s.world with store := (s.world.store.apply call).2 }, s.party⟩

/-- The states that a contest can come to. -/
abbrev Reachable (world : World) : State ι (Program (Result Unit)) → Prop :=
  Relation.ReflTransGen (contest.Step weather) (start world)

/-! ## Contests by stages -/

/-- The stage at which an operation begins. -/
def first : LockOperation → Lock.Stage
  | .acquire => .write
  | .release => .release

/-- The party with the program of each stage. -/
def programs (s : State ι Lock.Stage) : State ι (Program (Result Unit)) :=
  ⟨s.world, fun i => (s.party i).map fun stage => stage.program (contest.lock i)⟩

/-- One step of a contest where the stages of the parties are known. -/
inductive StageStep : State ι Lock.Stage → State ι Lock.Stage → Prop where
  /-- An idle party calls an operation. -/
  | call {s} (i : ι) (operation : LockOperation) (h : (s.party i).activity = .idle) :
      StageStep s ⟨s.world, Function.update s.party i
        (.follow (s.party i).history operation false (.stands (first operation)))⟩
  /-- A party gets the reply to its next action and takes its course. -/
  | act {s} {i : ι} {operation : LockOperation} {wrote : Bool} {stage : Lock.Stage}
      {reply : (stage.action (contest.lock i)).Reply} {world : World}
      (h : (s.party i).activity = .busy operation wrote stage)
      (ha : Answered weather (contest.token i) s.world (stage.action (contest.lock i)) reply
        world) :
      StageStep s ⟨world, Function.update s.party i
        (.follow (s.party i).history operation (wrote || Action.wrote _ reply)
          (stage.after (contest.lock i) reply))⟩
  /-- Time passes. -/
  | tick {s} (later : Instant) (h : s.world.clock ≤ later) :
      StageStep s ⟨{ s.world with clock := later }, s.party⟩
  /-- Somebody else uses the store. -/
  | other {s} (call : Call) (h : contest.Spares call) :
      StageStep s ⟨{ s.world with store := (s.world.store.apply call).2 }, s.party⟩

/-- The states that a contest by stages can come to. -/
abbrev StageReachable (world : World) : State ι Lock.Stage → Prop :=
  Relation.ReflTransGen (contest.StageStep weather) (start world)

variable {contest weather}

theorem programs_update (world : World) (s : State ι Lock.Stage) (i : ι) (p : Party Lock.Stage) :
    contest.programs ⟨world, Function.update s.party i p⟩ =
      ⟨world, Function.update (contest.programs s).party i
        (p.map fun stage => stage.program (contest.lock i))⟩ := by
  refine congrArg (State.mk world) ?_
  funext j
  show (Function.update s.party i p j).map _ = _
  by_cases h : j = i
  · subst h
    rw [Function.update_self, Function.update_self]
  · rw [Function.update_of_ne h, Function.update_of_ne h]
    rfl

omit [DecidableEq ι] in
/-- A party that is busy in a contest of programs is busy at a stage. -/
theorem exists_stage_of_busy {s : State ι Lock.Stage} {i : ι} {operation : LockOperation}
    {wrote : Bool} {rest : Program (Result Unit)}
    (h : ((contest.programs s).party i).activity = .busy operation wrote rest) :
    ∃ stage, (s.party i).activity = .busy operation wrote stage ∧
      stage.program (contest.lock i) = rest := by
  change ((s.party i).map _).activity = _ at h
  rw [Party.map] at h
  split at h
  · cases h
  · next operation' wrote' stage hactivity =>
    obtain ⟨rfl, rfl, rfl⟩ := (Activity.busy.injEq ..).mp h
    exact ⟨stage, hactivity, rfl⟩

omit [DecidableEq ι] in
theorem idle_of_programs {s : State ι Lock.Stage} {i : ι}
    (h : ((contest.programs s).party i).activity = .idle) : (s.party i).activity = .idle := by
  change ((s.party i).map _).activity = _ at h
  rw [Party.map] at h
  split at h
  · next hidle => exact hidle
  · cases h

omit [DecidableEq ι] in
theorem history_programs (s : State ι Lock.Stage) (i : ι) :
    ((contest.programs s).party i).history = (s.party i).history := by
  show ((s.party i).map _).history = _
  rw [Party.map]
  split <;> rfl

/-- **One step of a contest is one step by stages.** -/
theorem Step.exists_stages {s : State ι Lock.Stage} {t : State ι (Program (Result Unit))}
    (h : contest.Step weather (contest.programs s) t) :
    ∃ s', t = contest.programs s' ∧ contest.StageStep weather s s' := by
  cases h with
  | call i operation hidle =>
    -- both operations begin with a call, so there is nothing to tell before it
    have hquiet : (operation.program (contest.lock i)).quieted =
        (Lock.Course.stands (first operation)).program (contest.lock i) := by
      cases operation <;> rfl
    refine ⟨_, ?_, .call i operation (idle_of_programs hidle)⟩
    rw [Party.goOn_eq_map_follow hquiet, history_programs, programs_update]
    rfl
  | @act i operation wrote action next reply world hbusy ha =>
    obtain ⟨stage, hstage, hprogram⟩ := exists_stage_of_busy hbusy
    obtain ⟨next', hprogram', hafter⟩ := stage.program_step (contest.lock i)
    -- the action is the one of the stage
    rw [hprogram'] at hprogram
    cases hprogram
    refine ⟨_, ?_, .act hstage ha⟩
    have hquiet := congrArg Prod.snd (hafter reply)
    rw [Party.goOn_eq_map_follow hquiet, history_programs, programs_update]
  | tick later hlater => exact ⟨⟨_, s.party⟩, rfl, .tick later hlater⟩
  | other call hcall => exact ⟨⟨_, s.party⟩, rfl, .other call hcall⟩

/-- **Every run of a contest is a run by stages.** -/
theorem exists_stages {world : World} {t : State ι (Program (Result Unit))}
    (h : contest.Reachable weather world t) :
    ∃ s, t = contest.programs s ∧ contest.StageReachable weather world s := by
  induction h with
  | refl => exact ⟨start world, rfl, .refl⟩
  | tail _ hstep ih =>
    obtain ⟨s, rfl, hs⟩ := ih
    obtain ⟨s', rfl, hs'⟩ := hstep.exists_stages
    exact ⟨s', rfl, hs.tail hs'⟩

/-! ## Rougher weather -/

theorem StageStep.mono {rougher : Weather} (hw : weather.Milder rougher) {s t : State ι Lock.Stage}
    (h : contest.StageStep weather s t) : contest.StageStep rougher s t := by
  cases h with
  | call i operation hidle => exact .call i operation hidle
  | act hbusy ha => exact .act hbusy (ha.mono hw)
  | tick later hlater => exact .tick later hlater
  | other call hcall => exact .other call hcall

/-- What can happen in mild weather can happen in rougher weather. -/
theorem StageReachable.mono {rougher : Weather} (hw : weather.Milder rougher) {world : World}
    {s : State ι Lock.Stage} (h : contest.StageReachable weather world s) :
    contest.StageReachable rougher world s :=
  Relation.ReflTransGen.mono (fun _ _ => StageStep.mono hw) _ _ h

/-! ## Undisturbed operations -/

/-- The next action of a busy party may get any of its answers. -/
theorem Step.answered {i : ι} {history : List Completed} {operation : LockOperation} {wrote : Bool}
    {action : Action} {next : action.Reply → Program (Result Unit)} {reply : action.Reply}
    {world world' : World} (ha : Answered weather (contest.token i) world action reply world')
    (party : ι → Party (Program (Result Unit))) :
    contest.Step weather
      ⟨world, Function.update party i ⟨.busy operation wrote (.step action next), history⟩⟩
      ⟨world', Function.update party i
        (.goOn history operation (wrote || action.wrote reply) (next reply))⟩ := by
  have hself : Function.update party i ⟨.busy operation wrote (.step action next), history⟩ i =
      ⟨.busy operation wrote (.step action next), history⟩ := Function.update_self ..
  have hstep : contest.Step weather
      ⟨world, Function.update party i ⟨.busy operation wrote (.step action next), history⟩⟩ _ :=
    .act (congrArg Party.activity hself) ha
  simp only [Function.update_idem, hself] at hstep
  exact hstep

variable (contest weather) in
/-- **A party can always go on undisturbed.** If nobody else takes a step, an operation ends as its
program does when it runs alone. -/
theorem reaches_end (i : ι) (history : List Completed) (operation : LockOperation)
    (rest : Program (Result Unit)) (world : World) (party : ι → Party (Program (Result Unit)))
    (wrote : Bool) : ∃ wrote', Relation.ReflTransGen (contest.Step weather)
      ⟨world, Function.update party i (.goOn history operation wrote rest)⟩
      ⟨(rest.run (World.serve (contest.token i)) world).2, Function.update party i
        ⟨.idle, ⟨operation, wrote', (rest.run (World.serve (contest.token i)) world).1⟩ ::
          history⟩⟩ := by
  induction rest generalizing world wrote with
  | done result => exact ⟨wrote, .refl⟩
  | step action next ih =>
    -- what is told and counted is no step: there the rest is the same run
    have hact {wrote'} := ih (World.serve (contest.token i) action world).1
      (World.serve (contest.token i) action world).2 wrote'
    cases action with
    | tell n => exact hact
    | count c => exact hact
    | call c => exact hact.imp fun _ hrest => .head (.answered (.served c) party) hrest
    | now => exact hact.imp fun _ hrest => .head (.answered .clock party) hrest
    | freshToken => exact hact.imp fun _ hrest => .head (.answered .drawn party) hrest

variable (contest weather) in
/-- **An idle party can always carry out an operation undisturbed.** -/
theorem reaches_call_end {s : State ι (Program (Result Unit))} (i : ι) (operation : LockOperation)
    (h : (s.party i).activity = .idle) :
    ∃ wrote, Relation.ReflTransGen (contest.Step weather) s
      ⟨((operation.program (contest.lock i)).run (World.serve (contest.token i)) s.world).2,
        Function.update s.party i ⟨.idle, ⟨operation, wrote,
          ((operation.program (contest.lock i)).run (World.serve (contest.token i)) s.world).1⟩ ::
            (s.party i).history⟩⟩ := by
  obtain ⟨wrote, hend⟩ := contest.reaches_end weather i (s.party i).history operation
    (operation.program (contest.lock i)) s.world s.party false
  exact ⟨wrote, .head (.call i operation h) hend⟩

/-- No two generated tokens are the same. -/
theorem injective_numbered : Function.Injective Token.numbered :=
  fun _ _ h => Token.numbered_injective (congrArg Token.text h)

/-- The contest for a target of parties with generated tokens whose locks never expire. -/
def generated (target : Key) : Contest Nat where
  target := target
  token := Token.numbered
  expiration _ := .never
  token_injective := injective_numbered

end Contest

end ObjectStore

import ObjectStore.Workload.Session

/-! # Races

Several parties at work on one store. A party rests before each of its storage calls; at its turn it
makes exactly that call and goes on until the next. What a party does between two calls takes no turn.

* **`Contender`** — a party, at rest or finished.
* **`Race`** — the parties with their store.
* **`Race.turn`** — the turn of one party.
* **`Race.follow`** — turns by a schedule; **`Race.finish`** — turns in order until all have
  finished. -/

namespace ObjectStore

/-- A party that has come to rest. -/
inductive Contender where
  /-- It has nothing left to do. -/
  | finished
  /-- It is about to make a call, knows how its step goes on, and has further steps to do. -/
  | waiting (call : Call) (next : call.Outcome → Program (Result Answer × Notebook))
      (later : List Step)

/-- What a party did in a turn: its storage calls, the results of the steps it completed, and whether
it has finished. -/
structure Turn where
  calls : List CallRecord
  results : List (Result Answer)
  done : Bool

namespace Contender

/-- Whether the party has nothing left to do. -/
def isFinished : Contender → Bool
  | .finished => true
  | .waiting .. => false

/-- Let a party go on from inside a step until it rests, with the results of the steps it completes on
the way. -/
def proceed : (later : List Step) → Program (Result Answer × Notebook) → Bench →
    (List (Result Answer) × Contender) × Bench
  | later, program, bench =>
    match program.settle Bench.answer bench with
    | (.waiting call next, bench) => (([], .waiting call next later), bench)
    | (.finished (result, notebook), bench) =>
      match later with
      | [] => (([result], .finished), bench)
      | step :: later =>
        let ((results, contender), bench) := proceed later (step.program.run notebook) bench
        ((result :: results, contender), bench)

/-- Let a party begin its work. -/
def start : List Step → Bench → (List (Result Answer) × Contender) × Bench
  | [], bench => (([], .finished), bench)
  | step :: later, bench => proceed later (step.program.run {}) bench

/-- Let a party make its next call. -/
def turn : Contender → Bench → Option (List (Result Answer) × Contender) × Bench
  | .finished, bench => (none, bench)
  | .waiting call next later, bench =>
    let (outcome, bench) := bench.ask call
    let (after, bench) := proceed later (next outcome) bench
    (some after, bench)

end Contender

/-- Several parties at work on one store. -/
structure Race where
  bench : Bench
  contenders : List Contender

namespace Race

/-- The report of a turn. -/
def report (bench : Bench) (results : List (Result Answer)) (contender : Contender) : Turn :=
  { calls := bench.calls, results, done := contender.isFinished }

/-- Let the parties begin, in order. -/
def start (bench : Bench) : List (List Step) → List Turn × Race
  | [] => ([], ⟨bench, []⟩)
  | steps :: more =>
    let ((results, contender), bench) := Contender.start steps bench.fresh
    let first := report bench results contender
    let (turns, race) := start bench more
    (first :: turns, { race with contenders := contender :: race.contenders })

/-- The turn of one party; a finished one does nothing. -/
def turn (race : Race) (index : Nat) : Option Turn × Race :=
  match race.contenders[index]? with
  | none => (none, race)
  | some contender =>
    match contender.turn race.bench.fresh with
    | (none, bench) => (none, { race with bench })
    | (some (results, contender), bench) =>
      (some (report bench results contender),
        { bench, contenders := race.contenders.set index contender })

/-- The turns of a schedule. -/
def follow (race : Race) : List Nat → List (Nat × Option Turn) × Race
  | [] => ([], race)
  | index :: more =>
    let (turn, race) := race.turn index
    let (turns, race) := race.follow more
    ((index, turn) :: turns, race)

/-- The parties that have not finished, in order. -/
def unfinished (race : Race) : List Nat :=
  (List.range race.contenders.length).filter fun i =>
    match race.contenders[i]? with
    | some contender => !contender.isFinished
    | none => false

/-- Rounds of turns of the unfinished parties, in order, at most `rounds` of them. -/
def finish : (rounds : Nat) → Race → List (Nat × Option Turn) × Race
  | 0, race => ([], race)
  | rounds + 1, race =>
    match race.unfinished with
    | [] => ([], race)
    | indices =>
      let (turns, race) := race.follow indices
      let (later, race) := finish rounds race
      (turns ++ later, race)

mutual

/-- How many steps a step comprises, itself and those inside it. -/
def stepCount : Step → Nat
  | .exclusively _ body => stepCountAll body + 2
  | _ => 1

/-- How many steps some steps comprise. -/
def stepCountAll : List Step → Nat
  | [] => 0
  | step :: more => stepCount step + stepCountAll more

end

/-- Enough rounds for all the steps of a race: a step makes a few calls besides loading each key that
a listing shows, and no more keys are shown than there are at the start and steps that write one. -/
def enoughRounds (bench : Bench) (contenders : List (List Step)) : Nat :=
  let steps := stepCountAll contenders.flatten
  (steps + 1) * (bench.store.entries.toList.length + bench.phantoms.length + steps + 4)

/-- A whole race: the starts, the turns of the schedule and those after it, and the store at the
end. -/
def run (bench : Bench) (contenders : List (List Step)) (schedule : List Nat) :
    List Turn × List (Nat × Option Turn) × MemoryStore :=
  let (starts, race) := start bench contenders
  let (turns, race) := race.follow schedule
  let (later, race) := race.finish (enoughRounds bench contenders)
  (starts, turns ++ later, race.bench.store)

end Race

end ObjectStore

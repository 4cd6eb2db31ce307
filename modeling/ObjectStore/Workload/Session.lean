import ObjectStore.Workload.Bench
import ObjectStore.Workload.Step

/-! # Sessions

One party at work on a store under observation.

* **`Instruction`** — a step to do, or a change of what surrounds the store.
* **`Session.follow`** — follow one instruction and report it. -/

namespace ObjectStore

/-- On which way a step reaches the store. -/
inductive Route where
  /-- Past faults and phantoms, on another handle of the same store. -/
  | direct
  /-- Where calls are recorded and faults strike. -/
  | observed
  deriving DecidableEq, Repr

/-- What a session is told to do. -/
inductive Instruction where
  /-- Do a step. -/
  | step (route : Route) (step : Step)
  /-- Make a storage call through the blocking interface, where only the wording of errors counts. -/
  | block (call : Call)
  /-- From now on let a fault strike at a point, or none. -/
  | inject (point : FaultPoint) (fault : Option (StorageError × Option Nat))
  /-- From now on show these keys in listings. -/
  | pretend (keys : List Key)

/-- How an instruction ended. -/
inductive Reply where
  /-- A step was done or failed. -/
  | answered (result : Result Answer)
  /-- A call through the blocking interface was done or failed. -/
  | returned (result : Except Fault Answer)

/-- One party at work on a store. -/
structure Session where
  bench : Bench
  notebook : Notebook := {}

/-- What following an instruction brought about. -/
structure Report where
  reply : Reply
  calls : List CallRecord
  notices : List Notice
  counts : List Counter
  /-- The store afterwards. -/
  store : MemoryStore

namespace Session

/-- Run a step on a bench. -/
def runStep (handler : Program.Handler Bench) (step : Step) (session : Session) :
    Result Answer × Session :=
  let ((result, notebook), bench) := (step.program.run session.notebook).run handler session.bench
  (result, { bench, notebook })

/-- Follow an instruction, without a report. -/
def perform (session : Session) : Instruction → Reply × Session
  | .step .observed step =>
    let (result, session) := runStep Bench.answer step session
    (.answered result, session)
  | .step .direct step =>
    let (result, session) := runStep Bench.answerDirectly step session
    (.answered result, session)
  | .block call =>
    let (result, session) := runStep Bench.answer (.call call) session
    (.returned (result.mapError StorageError.toFault), session)
  | .inject point fault =>
    (.answered (.ok .done), { session with bench := session.bench.inject point fault })
  | .pretend keys =>
    (.answered (.ok .done), { session with bench := { session.bench with phantoms := keys } })

/-- Follow one instruction and report it. -/
def follow (session : Session) (instruction : Instruction) : Report × Session :=
  let (reply, session) := perform { session with bench := session.bench.fresh } instruction
  let bench := session.bench
  ({ reply, calls := bench.calls, notices := bench.notices, counts := bench.counts,
     store := bench.store }, session)

/-- Follow instructions one after another. -/
def followAll (session : Session) : List Instruction → List Report × Session
  | [] => ([], session)
  | instruction :: more =>
    let (report, session) := session.follow instruction
    let (reports, session) := session.followAll more
    (report :: reports, session)

end Session

end ObjectStore

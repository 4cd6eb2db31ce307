import ObjectStore.Program

/-! # A store under observation

* **`Bench`** — a store with the surroundings of a run: a clock that stands still, tokens to draw,
  faults that wait for a call, and a record of what happened.
* **`Bench.ask`** — a storage call: a waiting fault answers in place of the store, and otherwise the
  store does.
* **`Bench.answer`** and **`Bench.answerDirectly`** — the handlers of programs, the second one past
  the faults and the record of calls. -/

namespace ObjectStore

/-- Where a fault can strike. -/
inductive FaultPoint where
  /-- In place of an operation. -/
  | operation (operation : Operation)
  /-- In the content that a load returns. -/
  | loadedStream
  deriving DecidableEq, Repr

/-- A fault that waits for its next use. -/
structure Injection where
  point : FaultPoint
  error : StorageError
  /-- How often it is still used; without a number it never wears out. -/
  uses : Option Nat
  deriving DecidableEq, Repr

/-- A storage call that was made: the operation, the keys, and the text of how it ended. -/
structure CallRecord where
  operation : Operation
  keys : List Key
  status : String
  deriving DecidableEq, Repr

/-- A store under observation. -/
structure Bench where
  store : MemoryStore
  clock : Instant
  /-- Texts that no token is drawn with, because they may turn up otherwise. -/
  taken : List String := []
  /-- The number from which on tokens are drawn. -/
  nextToken : Nat := 0
  /-- At most one fault for each point. -/
  faults : List Injection := []
  /-- Keys that listings show although the store does not hold them. -/
  phantoms : List Key := []
  calls : List CallRecord := []
  notices : List Notice := []
  counts : List Counter := []

namespace Bench

/-- Put a fault in place of any other at its point, or just remove that one. -/
def inject (bench : Bench) (point : FaultPoint) (fault : Option (StorageError × Option Nat)) :
    Bench :=
  let others := bench.faults.filter fun i => i.point ≠ point
  match fault with
  | some (error, uses) => { bench with faults := ⟨point, error, uses⟩ :: others }
  | none => { bench with faults := others }

/-- Use the fault at a point, if one waits there. -/
def strike (bench : Bench) (point : FaultPoint) : Option StorageError × Bench :=
  match bench.faults.find? fun i => i.point = point with
  | none => (none, bench)
  | some injection =>
    match injection.uses with
    | none => (some injection.error, bench)
    | some 0 => (none, bench)
    | some (uses + 1) =>
      (some injection.error, bench.inject point (some (injection.error, some uses)))

/-- The chunk that arrives before a loaded stream fails. -/
def partialChunk : Bytes := Bytes.ofString "partial"

/-- What becomes of a reply of the store on its way: listings show the phantoms below their base, and
loaded content may fail as it is read. -/
def disturb (bench : Bench) : (call : Call) → call.Outcome → call.Outcome × Bench
  | .list base, .ok keys =>
    match bench.phantoms.filter base.contains with
    | [] => (.ok keys, bench)
    | shown => (.ok (Key.sorted (keys ++ shown)), bench)
  | .load _, .ok content =>
    match bench.strike .loadedStream with
    | (none, bench) => (.ok content, bench)
    | (some e, bench) =>
      (.ok (.ofStream [.ok partialChunk, .error e.toFault] content.size), bench)
  | _, outcome => (outcome, bench)

/-- Let the store carry out a call, counting it. -/
def reach (bench : Bench) (call : Call) : call.Outcome × Bench :=
  let (outcome, store) := bench.store.apply call
  (outcome, { bench with store, counts := bench.counts ++ [Counter.ofCall call outcome] })

/-- Make a storage call: a waiting fault answers it, or else the store. -/
def ask (bench : Bench) (call : Call) : call.Outcome × Bench :=
  let (outcome, bench) : call.Outcome × Bench :=
    match bench.strike (.operation call.operation) with
    | (some e, bench) => (.error e, bench)
    | (none, bench) =>
      let (outcome, bench) := bench.reach call
      bench.disturb call outcome
  (outcome, { bench with
    calls := bench.calls ++ [⟨call.operation, call.keys, statusText outcome⟩] })

/-- Answer the actions of a program. -/
def answer : Program.Handler Bench
  | .call call, bench => bench.ask call
  | .now, bench => (bench.clock, bench)
  | .freshToken, bench =>
    let number := Token.firstFree bench.taken bench.nextToken
    (Token.numbered number, { bench with nextToken := number + 1 })
  | .tell notice, bench => ((), { bench with notices := bench.notices ++ [notice] })
  | .count counter, bench => ((), { bench with counts := bench.counts ++ [counter] })

/-- Answer the actions of a program past the faults and the record of calls. -/
def answerDirectly : Program.Handler Bench
  | .call call, bench => bench.reach call
  | action, bench => answer action bench

/-- Forget what has been recorded so far. -/
def fresh (bench : Bench) : Bench := { bench with calls := [], notices := [], counts := [] }

end Bench

end ObjectStore

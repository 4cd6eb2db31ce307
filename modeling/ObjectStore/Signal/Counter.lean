import ObjectStore.Storage.Call

/-! # Counters

* **`Counter`** — what is counted: storage operations by their kind and outcome, lock attempts by
  their outcome, and releases.
* **`Counter.sample`** — the counter's name as it is exposed, labels included.
* **`Counter.exposition`** — the head of the exposition: what each family of counters is about. -/

namespace ObjectStore

/-- How an attempt to take a lock ended. -/
inductive Attempt where
  | acquired | conflict | error
  deriving DecidableEq, Repr

/-- The label of an attempt's outcome. -/
def Attempt.label : Attempt → String
  | .acquired => "acquired"
  | .conflict => "conflict"
  | .error => "error"

/-- One thing that is counted. -/
inductive Counter where
  /-- Operations of one kind that a store carried out with one status. -/
  | operations (operation : Operation) (status : String)
  /-- Lock attempts with one outcome. -/
  | attempts (outcome : Attempt)
  /-- Releases of locks. -/
  | releases
  deriving DecidableEq, Repr

namespace Counter

/-- The family name of the counters of storage operations. -/
def operationsName : String := "asto_storage_operations_total"

/-- The family name of the counters of lock attempts. -/
def attemptsName : String := "asto_lock_attempts_total"

/-- The name of the counter of releases. -/
def releasesName : String := "asto_lock_releases_total"

/-- The counter that a storage call with a given outcome belongs to. -/
def ofCall (call : Call) (outcome : call.Outcome) : Counter :=
  .operations call.operation (statusText outcome)

/-- A label in its exposed form. -/
def label (name value : String) : String := name ++ "=\"" ++ value ++ "\""

/-- The exposed name of a counter with its labels. -/
def sample : Counter → String
  | .operations operation status =>
    operationsName ++ "\x7b" ++ label "operation" operation.name ++ "," ++ label "status" status ++
      "\x7d"
  | .attempts outcome => attemptsName ++ "\x7b" ++ label "outcome" outcome.label ++ "\x7d"
  | .releases => releasesName

/-- The families of counters with what they are about, by name. -/
def families : List (String × String) :=
  [(attemptsName, "Total lock acquisition attempts by outcome"),
    (releasesName, "Total lock releases"),
    (operationsName, "Total storage operations by type")]

/-- The head of the exposition: first what the families are about, then their type. -/
def exposition : List String :=
  families.map (fun f => s!"# HELP {f.1} {f.2}") ++ families.map fun f => s!"# TYPE {f.1} counter"

/-- How often each counter occurs in a list, in the order of first occurrence. -/
def tally (counts : List Counter) : List (Counter × Nat) :=
  counts.eraseDups.map fun c => (c, counts.count c)

end Counter

end ObjectStore

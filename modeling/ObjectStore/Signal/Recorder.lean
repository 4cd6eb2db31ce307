import ObjectStore.Signal.Counter

/-! # The recorder of counters

Counting has no effect until a recorder is installed.

* **`Recorder.install`** — install a recorder once; later installations keep it.
* **`Recorder.record`** — count something, if there is a recorder.
* **`Recorder.render`** — the exposition of what has been counted, if there is a recorder. -/

namespace ObjectStore

/-- What has been counted, in order. -/
structure Recorder where
  counts : List Counter := []
  deriving DecidableEq, Repr

namespace Recorder

/-- The recorder that counts from now on: the one there is, or else a new one. -/
def install (current : Option Recorder) : Recorder := current.getD {}

/-- Count something. -/
def record (current : Option Recorder) (counter : Counter) : Option Recorder :=
  current.map fun r => { r with counts := r.counts ++ [counter] }

/-- The lines that expose the counters: what the families are about, then each counter with its
value. -/
def render (current : Option Recorder) : Option (List String) :=
  current.map fun r =>
    Counter.exposition ++ (Counter.tally r.counts).map fun (c, n) => s!"{c.sample} {n}"

@[simp] theorem install_some (r : Recorder) : install (some r) = r := rfl

@[simp] theorem render_none : render none = none := rfl

end Recorder

end ObjectStore

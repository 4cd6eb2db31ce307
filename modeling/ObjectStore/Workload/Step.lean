import ObjectStore.Lock.Exclusive

/-! # Steps of work

What a party does with a store, step by step, and what each step answers.

* **`Step`** — a storage call, something with a lock, or an exclusive section of further steps.
* **`Answer`** — what a successful step returns.
* **`Step.program`** — the program of a step. It keeps a **`Notebook`**: the locks the party has made
  and the answers inside the section that is open. -/

namespace ObjectStore

/-- One step of a party's work. -/
inductive Step where
  /-- Make a storage call; loaded content is drained. -/
  | call (call : Call)
  /-- Make a lock and keep it under a name; without a token it gets a fresh one and never expires. -/
  | lock (name : String) (target : Key) (token : Option String) (expiration : Expiration)
  /-- Try to take a lock that was made before. -/
  | acquire (name : String)
  /-- Give up a lock that was made before. -/
  | release (name : String)
  /-- Ask where a proposal would be kept. -/
  | locate (target : Key) (token : String)
  /-- Write a proposal. -/
  | create (target : Key) (token : String) (expiration : Expiration)
  /-- Ask for the tokens that have a proposal. -/
  | tokens (target : Key)
  /-- Ask whether a token's proposal is the only active one. -/
  | check (target : Key) (token : String)
  /-- Remove a proposal. -/
  | withdraw (target : Key) (token : String)
  /-- Do further steps while holding a lock on a key. -/
  | exclusively (key : Key) (body : List Step)

/-- What a successful step returns. -/
inductive Answer where
  /-- Nothing. -/
  | done
  | flag (b : Bool)
  | number (n : Nat)
  | keys (keys : List Key)
  | tokens (tokens : List String)
  /-- A loaded value with the size its content declared. -/
  | value (size : Option Nat) (bytes : Bytes)
  /-- A lock that was made. -/
  | lock (lock : Lock)
  /-- A proposal's target, the root it stands below and its key. -/
  | location (target root key : Key)
  /-- The answers inside an exclusive section, up to its end or its first error, and how the section
  ended: with the number of its steps or with an error. -/
  | exclusive (answers : List Answer) (outcome : Result Nat)

/-- What a party remembers between its steps. -/
structure Notebook where
  /-- The locks it has made, the latest first. -/
  locks : List (String × Lock) := []
  /-- The answers so far inside the section that is open. -/
  answers : List Answer := []
  deriving Inhabited

/-- Programs that keep a notebook. -/
abbrev Work : Type → Type := StateT Notebook Program

namespace Step

/-- The answer of a storage call. -/
def answerOf : (call : Call) → call.Outcome → Result Answer
  | .save _ _, outcome => outcome.map fun _ => .done
  | .load _, .ok content => content.drain.map (.value content.size)
  | .load _, .error e => .error e
  | .has _, outcome => outcome.map .flag
  | .list _, outcome => outcome.map .keys
  | .delete _, outcome => outcome.map fun _ => .done
  | .size _, outcome => outcome.map .number
  | .move _ _, outcome => outcome.map fun _ => .done

/-- Keep a lock under a name. -/
def keepLock (name : String) (made : Lock) : Work (Result Answer) := do
  modify fun book => { book with locks := (name, made) :: book.locks }
  return .ok (.lock made)

/-- Do something with the lock of a name. -/
def withLock (name : String) (use : Lock → Program (Result Unit)) : Work (Result Answer) := do
  match (← get).locks.lookup name with
  | some held => return (← use held).map fun _ => .done
  | none => return .error (.invalidKey s!"no lock is named {name}")

/-- Replace the answers of the open section and return those it had. -/
def swapAnswers (answers : List Answer) : Work (List Answer) :=
  modifyGet fun book => (book.answers, { book with answers })

mutual

/-- The program of a step. -/
def program : Step → Work (Result Answer)
  | .call c => do return answerOf c (← Program.ask c)
  | .lock name target none _ => do keepLock name (← Lock.fresh target)
  | .lock name target (some token) expiration =>
    match Lock.withToken target token expiration with
    | .ok made => keepLock name made
    | .error e => return .error e
  | .acquire name => withLock name Lock.acquire
  | .release name => withLock name Lock.release
  | .locate target token =>
    return .ok (.location target (Proposals.root target) (Proposals.key target token))
  | .create target token expiration => do
    return (← Proposals.create target token expiration).map fun _ => .done
  | .tokens target => do return (← Proposals.tokens target).map .tokens
  | .check target token => do return (← Proposals.checkSingle target token).map fun _ => .done
  | .withdraw target token => do return (← Proposals.withdraw target token).map fun _ => .done
  | .exclusively key body => do
    let outside ← swapAnswers []
    let outcome ← ObjectStore.exclusively key (bodyProgram body 0)
    let inside ← swapAnswers outside
    return .ok (.exclusive inside outcome)

/-- The program of a section's steps after `count` others: the first error ends it, and otherwise it
returns the number of steps. -/
def bodyProgram : List Step → (count : Nat) → Work (Result Nat)
  | [], count => return .ok count
  | step :: more, count => do
    match ← step.program with
    | .ok answer =>
      modify fun book => { book with answers := book.answers ++ [answer] }
      bodyProgram more (count + 1)
    | .error e => return .error e

end

end Step

end ObjectStore

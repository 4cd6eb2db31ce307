import ObjectStore.Proofs.Undisturbed

/-! # Programs that run alone

What befalls a program that runs alone is settled beforehand: which of its storage calls fail,
which tokens it draws and what the clock shows whenever it looks. The calls are told apart by how
many come before them, so any choice of them can fail, each with its own error.

* **`Call.failure`** — the error that the reply to a call ends in, if it does.
* **`Outage`** — a reply that ends in an error, in place of the store's.
* **`Oracle`** — what befalls a program; **`Oracle.answer`** is the handler of a program that runs
  alone, and **`Oracle.State`** the state with the calls made so far.
* **`Oracle.find?_answer`** — no action changes an entry but those that it writes. -/

namespace ObjectStore

/-! ## Outages -/

/-- The error that the reply to a call ends in, once a loaded content has been read to its end. -/
def Call.failure (call : Call) : call.Outcome → Option StorageError
  | .error e => some e
  | .ok reply =>
    match call, reply with
    | .load _, content =>
      match content.drain with
      | .ok _ => none
      | .error e => some e
    | _, _ => none

/-- A reply to a call that ends in an error and that the store has no part in. -/
structure Outage (call : Call) where
  reply : call.Outcome
  error : StorageError
  fails : call.failure reply = some error

namespace Outage

/-- A call that is refused. -/
def refused (call : Call) (error : StorageError) : Outage call := ⟨.error error, error, rfl⟩

/-- Apart from loads, a call that fails returns its error. -/
theorem reply_eq {call : Call} (outage : Outage call) (h : call.operation ≠ .load) :
    outage.reply = .error outage.error := by
  obtain ⟨reply, error, hfails⟩ := outage
  cases reply with
  | error e => exact congrArg Except.error (Option.some_inj.mp hfails)
  | ok value =>
    cases call with
    | load key => exact absurd rfl h
    | _ => cases hfails

/-- A load that fails, or whose content breaks off, gives no payload but an error. -/
theorem payloadOf_reply {key : Key} (outage : Outage (.load key))
    (h : outage.error.isNotFound = false) :
    Proposals.payloadOf outage.reply = .error outage.error := by
  obtain ⟨reply, error, hfails⟩ := outage
  cases reply with
  | error e =>
    obtain rfl : e = error := Option.some_inj.mp hfails
    rw [Proposals.payloadOf, h]
    rfl
  | ok content =>
    rw [Call.failure] at hfails
    rw [Proposals.payloadOf]
    cases hdrain : content.drain with
    | ok value => rw [hdrain] at hfails; cases hfails
    | error e =>
      rw [hdrain] at hfails
      exact congrArg Except.error (Option.some_inj.mp hfails)

end Outage

/-! ## Oracles -/

/-- What befalls a program that runs alone. -/
structure Oracle where
  /-- How a storage call fails, if it does, by the number of the calls before it. -/
  outage : Nat → (call : Call) → Option (Outage call)
  /-- The tokens in the order in which they are drawn. -/
  token : Nat → Token
  /-- What the clock shows, time after time. -/
  time : Nat → Instant

namespace Oracle

/-- Where a program that runs alone has come to. -/
structure State where
  store : MemoryStore
  /-- The storage calls made so far, in order. -/
  calls : List Call := []
  /-- How many tokens have been drawn. -/
  draws : Nat := 0
  /-- How often the clock has been read. -/
  readings : Nat := 0

/-- Make a storage call: it fails, or the store carries it out. -/
def ask (oracle : Oracle) (call : Call) (s : State) : call.Outcome × State :=
  match oracle.outage s.calls.length call with
  | some outage => (outage.reply, { s with calls := s.calls ++ [call] })
  | none => ((s.store.apply call).1,
      { s with store := (s.store.apply call).2, calls := s.calls ++ [call] })

/-- Answer the actions of a program that runs alone. -/
def answer (oracle : Oracle) : Program.Handler State
  | .call call, s => oracle.ask call s
  | .now, s => (oracle.time s.readings, { s with readings := s.readings + 1 })
  | .freshToken, s => (oracle.token s.draws, { s with draws := s.draws + 1 })
  | .tell _, s => ((), s)
  | .count _, s => ((), s)

/-- No storage call fails. -/
def IsFair (oracle : Oracle) : Prop := ∀ n call, oracle.outage n call = none

/-- All errors that calls fail with are such. -/
def FailsWith (oracle : Oracle) (kind : StorageError → Prop) : Prop :=
  ∀ n call outage, oracle.outage n call = some outage → kind outage.error

/-- Every deletion is refused with the same error, all other calls are carried out. -/
def undeletable (failure : StorageError) : Oracle where
  outage
    | _, .delete key => some (.refused (.delete key) failure)
    | _, _ => none
  token := .numbered
  time _ := .epoch

theorem failsWith_undeletable {kind : StorageError → Prop} {failure : StorageError}
    (h : kind failure) : (undeletable failure).FailsWith kind := by
  intro n call outage houtage
  cases call <;> cases houtage
  exact h

variable {oracle : Oracle} {s : State} {call : Call}

/-- As another oracle, but the first few storage calls do not fail. -/
def sparing (oracle : Oracle) (first : Nat) : Oracle where
  outage n call := if n < first then none else oracle.outage n call
  token := oracle.token
  time := oracle.time

theorem FailsWith.sparing {kind : StorageError → Prop} (h : oracle.FailsWith kind) (first : Nat) :
    (oracle.sparing first).FailsWith kind :=
  fun n call outage houtage => h n call outage (Option.ite_none_left_eq_some.mp houtage).2

theorem isSilent_answer (oracle : Oracle) : oracle.answer.IsSilent :=
  ⟨fun _ _ => rfl, fun _ _ => rfl⟩

theorem ask_of_some {outage : Outage call} (h : oracle.outage s.calls.length call = some outage) :
    oracle.ask call s = (outage.reply, { s with calls := s.calls ++ [call] }) := by
  rw [ask, h]

theorem ask_of_none (h : oracle.outage s.calls.length call = none) :
    oracle.ask call s = ((s.store.apply call).1,
      { s with store := (s.store.apply call).2, calls := s.calls ++ [call] }) := by
  rw [ask, h]

/-- No action changes an entry but those that it writes. -/
theorem find?_answer (oracle : Oracle) (action : Action) (s : State) {k : Key}
    (hk : k ∉ action.written) :
    (oracle.answer action s).2.store.entries.find? k = s.store.entries.find? k := by
  cases action with
  | call call =>
    show (oracle.ask call s).2.store.entries.find? k = _
    rw [ask]
    split
    · rfl
    · exact MemoryStore.find?_apply_of_notMem hk
  | now => rfl
  | freshToken => rfl
  | tell notice => rfl
  | count counter => rfl

/-- No action changes the limit of the store. -/
theorem limit_answer (oracle : Oracle) (action : Action) (s : State) :
    (oracle.answer action s).2.store.limit = s.store.limit := by
  cases action with
  | call call =>
    show (oracle.ask call s).2.store.limit = _
    rw [ask]
    split
    · rfl
    · exact MemoryStore.limit_apply ..
  | now => rfl
  | freshToken => rfl
  | tell notice => rfl
  | count counter => rfl

/-- Tokens are drawn one after another. -/
theorem le_draws_answer (oracle : Oracle) (action : Action) (s : State) :
    s.draws ≤ (oracle.answer action s).2.draws := by
  cases action with
  | call call =>
    show s.draws ≤ (oracle.ask call s).2.draws
    rw [ask]
    split <;> exact Nat.le_refl _
  | now => exact Nat.le_refl _
  | freshToken => exact Nat.le_succ _
  | tell notice => exact Nat.le_refl _
  | count counter => exact Nat.le_refl _

end Oracle

end ObjectStore

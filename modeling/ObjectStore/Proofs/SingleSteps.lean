import ObjectStore.Program
import ObjectStore.Proofs.Frame

/-! # Programs in single steps

A program that runs among others makes one storage call, one reading of the clock or one drawing of
a token at a time. What it tells and counts in between concerns nobody else.

* **`Program.quieted`** — a program past what it tells and counts, up to its next such action;
  **`Program.asides`** — what it tells and counts until then.
* **`Program.Handler.IsSilent`** — what programs tell and count is nothing to a handler.
* **`World`** — a store and a clock, shared by everybody.
* **`Mishap`** — how a storage call goes wrong without an effect on the store.
* **`Answered`** — the replies that an action can get in a world, and the world after it; entries
  that it does not write stay (`Answered.find?_of_notMem`).
* **`World.serve`** — the handler of a program that runs alone. -/

namespace ObjectStore

/-- Something that has been done, with the reply to it. -/
abbrev Event : Type := (action : Action) × action.Reply

/-- Whether an action only tells or counts something. -/
def Action.isAside : Action → Bool
  | .tell _ => true
  | .count _ => true
  | _ => false

namespace Program

variable {α β : Type}

/-! ## Silence -/

/-- A program past what it tells and counts. -/
def quieted : Program α → Program α
  | .done a => .done a
  | .step (.tell _) next => (next ()).quieted
  | .step (.count _) next => (next ()).quieted
  | .step (.call c) next => .step (.call c) next
  | .step .now next => .step .now next
  | .step .freshToken next => .step .freshToken next

/-- What a program tells and counts before its next other action. -/
def asides : Program α → List Event
  | .step (.tell n) next => ⟨.tell n, ()⟩ :: (next ()).asides
  | .step (.count c) next => ⟨.count c, ()⟩ :: (next ()).asides
  | .step (.call _) _ => []
  | .step .now _ => []
  | .step .freshToken _ => []
  | .done _ => []

/-- What a program tells and counts before another one does not matter to it. -/
theorem quieted_quieted_bind (t : Program α) (f : α → Program β) :
    (t.quieted >>= f).quieted = (t >>= f).quieted := by
  induction t with
  | done a => rfl
  | step action next ih =>
    cases action with
    | tell n => exact ih ()
    | count c => exact ih ()
    | call c => rfl
    | now => rfl
    | freshToken => rfl

/-- A program in front of another one tells and counts its part first. -/
theorem asides_bind (t : Program α) (f : α → Program β) :
    (t >>= f).asides = t.asides ++ (t.quieted >>= f).asides := by
  induction t with
  | done a => rfl
  | step action next ih =>
    cases action with
    | tell n => exact congrArg (List.cons _) (ih ())
    | count c => exact congrArg (List.cons _) (ih ())
    | call c => rfl
    | now => rfl
    | freshToken => rfl

end Program

/-! ## Silent handlers -/

namespace Program

variable {α σ : Type}

/-- What programs tell and count is nothing to a handler. -/
structure Handler.IsSilent (handler : Handler σ) : Prop where
  tell : ∀ notice s, (handler (.tell notice) s).2 = s
  count : ∀ counter s, (handler (.count counter) s).2 = s

/-- A program runs as it does past what it tells and counts. -/
theorem run_quieted {handler : Handler σ} (h : handler.IsSilent) (t : Program α) (s : σ) :
    t.quieted.run handler s = t.run handler s := by
  induction t with
  | done a => rfl
  | step action next ih =>
    cases action with
    | tell n => rw [run_step, h.tell]; exact ih ()
    | count c => rw [run_step, h.count]; exact ih ()
    | call c => rfl
    | now => rfl
    | freshToken => rfl

end Program

/-! ## The world -/

/-- What everybody shares. -/
structure World where
  store : MemoryStore
  clock : Instant

/-- How a storage call goes wrong without an effect on the store. -/
inductive Mishap where
  /-- The call fails. -/
  | refused (error : StorageError)
  /-- A load succeeds, but the content breaks off as it is read. -/
  | broken (fault : Fault)

/-- What a call returns when it goes wrong. -/
def Mishap.reply : Mishap → (call : Call) → call.Outcome
  | .refused e, _ => .error e
  | .broken fault, .load _ => .ok (.ofStream [.error fault] none)
  | .broken fault, _ => .error (.backend fault)

/-- The mishaps that can befall a call in a store. -/
abbrev Weather : Type := MemoryStore → Call → Mishap → Prop

/-- No call ever goes wrong. -/
def Weather.fair : Weather := fun _ _ _ => False

/-- Any call may go wrong in any way, but no load says that a present key is absent. -/
def Weather.rough : Weather := fun store call mishap =>
  ∀ key e, call = .load key → mishap = .refused e → (store.entries.find? key).isSome = true →
    e.isNotFound = false

/-- Weather in which everything that can go wrong goes wrong in another as well. -/
def Weather.Milder (weather rougher : Weather) : Prop :=
  ∀ store call mishap, weather store call mishap → rougher store call mishap

/-- As rough as it gets, but no deletion goes wrong. -/
def Weather.clean : Weather := fun store call mishap =>
  Weather.rough store call mishap ∧ ∀ key, call ≠ .delete key

theorem Weather.fair_milder (weather : Weather) : Weather.fair.Milder weather :=
  fun _ _ _ h => h.elim

theorem Weather.clean_milder : Weather.clean.Milder Weather.rough :=
  fun _ _ _ h => h.1

/-- The replies to an action in a world, with the world afterwards: the store carries out a call, or
the call goes wrong. -/
inductive Answered (weather : Weather) (draw : Token) (world : World) :
    (action : Action) → action.Reply → World → Prop where
  /-- The store carries out a call. -/
  | served (call : Call) : Answered weather draw world (.call call) (world.store.apply call).1
      { world with store := (world.store.apply call).2 }
  /-- A call goes wrong. -/
  | failed (call : Call) (mishap : Mishap) (h : weather world.store call mishap) :
      Answered weather draw world (.call call) (mishap.reply call) world
  /-- The clock is read. -/
  | clock : Answered weather draw world .now world.clock world
  /-- A token is drawn. -/
  | drawn : Answered weather draw world .freshToken draw world

/-- Rougher weather allows more answers. -/
theorem Answered.mono {weather rougher : Weather} {draw : Token} {world world' : World}
    {action : Action} {reply : action.Reply} (hw : weather.Milder rougher)
    (h : Answered weather draw world action reply world') :
    Answered rougher draw world action reply world' := by
  cases h with
  | served call => exact .served call
  | failed call mishap hm => exact .failed call mishap (hw _ _ _ hm)
  | clock => exact .clock
  | drawn => exact .drawn

/-- The keys whose entries an action may change. -/
def Action.written : Action → List Key
  | .call c => c.written
  | _ => []

namespace Answered

variable {weather : Weather} {draw : Token} {world world' : World} {action : Action}
  {reply : action.Reply}

/-- An action changes no entry but those under the keys it writes. -/
theorem find?_of_notMem (h : Answered weather draw world action reply world') {k : Key}
    (hk : k ∉ action.written) : world'.store.entries.find? k = world.store.entries.find? k := by
  cases h with
  | served call => exact MemoryStore.find?_apply_of_notMem hk
  | failed call mishap hm => rfl
  | clock => rfl
  | drawn => rfl

/-- An action that writes none of some keys does not matter to them. -/
theorem agree (h : Answered weather draw world action reply world') {data : Key → Prop}
    {b : MemoryStore} (hwritten : ∀ k ∈ action.written, ¬ data k)
    (hagree : world.store.Agree data b) : world'.store.Agree data b := by
  cases h with
  | served call => exact hagree.apply_left hwritten
  | failed call mishap hm => exact hagree
  | clock => exact hagree
  | drawn => exact hagree

/-- No action takes time. -/
theorem clock_eq (h : Answered weather draw world action reply world') :
    world'.clock = world.clock := by
  cases h <;> rfl

/-- No action changes the limit of the store. -/
theorem limit_eq (h : Answered weather draw world action reply world') :
    world'.store.limit = world.store.limit := by
  cases h with
  | served call => exact MemoryStore.limit_apply ..
  | failed call mishap hm => rfl
  | clock => rfl
  | drawn => rfl

/-- A call that returns an error has no effect. -/
theorem eq_of_error {call : Call} {e : StorageError}
    (h : Answered weather draw world (.call call) (.error e) world') : world' = world := by
  -- the reply has to be a variable for the cases of its answer
  generalize hreply : (Except.error e : call.Outcome) = reply at h
  cases h with
  | served =>
    rw [MemoryStore.apply_eq_of_error hreply.symm]
  | failed _ mishap hm => rfl

/-- What has been saved stands under its key. -/
theorem find?_of_saved {key : Key} {content : Content} {value : Bytes}
    (hd : content.drain = .ok value)
    (h : Answered weather draw world (.call (.save key content)) (.ok ()) world') :
    world'.store.entries.find? key = some value := by
  generalize hreply : (Except.ok () : Result Unit) = reply at h
  cases h with
  | served => exact MemoryStore.find?_save hd hreply.symm
  | failed _ mishap hm => cases mishap <;> cases hreply

end Answered

/-! ## Running alone -/

namespace World

/-- Everything is answered as it should be; `draw` is the token that is drawn. -/
def serve (draw : Token) : Program.Handler World
  | .call c, world => ((world.store.apply c).1, { world with store := (world.store.apply c).2 })
  | .now, world => (world.clock, world)
  | .freshToken, world => (draw, world)
  | .tell _, world => ((), world)
  | .count _, world => ((), world)

/-- What a program tells and counts is nothing to the world. -/
theorem isSilent_serve (draw : Token) : (serve draw).IsSilent := ⟨fun _ _ => rfl, fun _ _ => rfl⟩

end World

/-- A call may be answered as it should be in any weather. -/
theorem Answered.of_serve {weather : Weather} {draw : Token} {world world' : World} {call : Call}
    {reply : call.Outcome} (h : World.serve draw (.call call) world = (reply, world')) :
    Answered weather draw world (.call call) reply world' := by
  obtain ⟨rfl, rfl⟩ := Prod.mk.inj h
  exact .served call

/-- Any action that is not told or counted may be answered as it should be in any weather. -/
theorem Answered.serve (weather : Weather) (draw : Token) (world : World) {action : Action}
    (h : action.isAside = false) : Answered weather draw world action
      (World.serve draw action world).1 (World.serve draw action world).2 := by
  cases action with
  | call c => exact .served c
  | now => exact .clock
  | freshToken => exact .drawn
  | tell notice => cases h
  | count counter => cases h

/-- In fair weather every action is answered as it should be. -/
theorem Answered.eq_serve {draw : Token} {world world' : World} {action : Action}
    {reply : action.Reply} (h : Answered Weather.fair draw world action reply world') :
    reply = (World.serve draw action world).1 ∧ world' = (World.serve draw action world).2 := by
  cases h with
  | served call => exact ⟨rfl, rfl⟩
  | failed call mishap hm => exact hm.elim
  | clock => exact ⟨rfl, rfl⟩
  | drawn => exact ⟨rfl, rfl⟩

end ObjectStore

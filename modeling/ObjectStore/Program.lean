import ObjectStore.Signal.Counter
import ObjectStore.Signal.Notice
import ObjectStore.Storage.Memory

/-! # Programs

A program works on a store. It is a tree of actions, each with a continuation for every reply: it
says what is asked and in which order, and leaves it open who answers, so that one program can run
alone, against faults, or interleaved with others.

* **`Action`** — what a program can do: a storage call, read the clock, draw a token, tell or count.
* **`Program`** — a finished program, or an action and what follows on each reply.
* **`Program.run`** — run a program to its end with a handler that answers its actions.
* **`Program.settle`** — run a program up to its next storage call. -/

namespace ObjectStore

/-- What a program can do. -/
inductive Action where
  /-- Ask the store. -/
  | call (call : Call)
  /-- Read the clock. -/
  | now
  /-- Draw a token that nobody else has. -/
  | freshToken
  /-- Tell something. -/
  | tell (notice : Notice)
  /-- Count something. -/
  | count (counter : Counter)

/-- What an action returns. -/
abbrev Action.Reply : Action → Type
  | .call c => c.Outcome
  | .now => Instant
  | .freshToken => Token
  | .tell _ => Unit
  | .count _ => Unit

/-- A program that works on a store. -/
inductive Program (α : Type) : Type where
  /-- The program is finished. -/
  | done (result : α)
  /-- The program does something and goes on with the reply. -/
  | step (action : Action) (next : action.Reply → Program α)

namespace Program

/-- Run one program, then another that depends on its result. -/
def bind {α β : Type} : Program α → (α → Program β) → Program β
  | .done a, f => f a
  | .step action next, f => .step action fun reply => (next reply).bind f

instance : Monad Program where
  pure := .done
  bind := bind

/-- The program that does one thing. -/
def perform (action : Action) : Program action.Reply := .step action .done

/-- Ask the store. -/
def ask (call : Call) : Program call.Outcome := perform (.call call)

/-- Read the clock. -/
def now : Program Instant := perform .now

/-- Draw a fresh token. -/
def freshToken : Program Token := perform .freshToken

/-- Tell something. -/
def tell (notice : Notice) : Program Unit := perform (.tell notice)

/-- Count something. -/
def count (counter : Counter) : Program Unit := perform (.count counter)

@[simp] theorem pure_eq_done {α : Type} (a : α) : (pure a : Program α) = .done a := rfl

@[simp] theorem done_bind {α β : Type} (a : α) (f : α → Program β) : (Program.done a >>= f) = f a := rfl

@[simp] theorem step_bind {α β : Type} (action : Action) (next : action.Reply → Program α)
    (f : α → Program β) : (Program.step action next >>= f) = .step action fun r => next r >>= f := rfl

@[simp] theorem bind_done {α : Type} (t : Program α) : (t >>= Program.done) = t := by
  induction t with
  | done a => rfl
  | step action next ih => rw [step_bind]; congr 1; funext r; exact ih r

theorem bind_bind {α β γ : Type} (t : Program α) (f : α → Program β) (g : β → Program γ) :
    ((t >>= f) >>= g) = t >>= fun a => f a >>= g := by
  induction t with
  | done a => rfl
  | step action next ih => simp only [step_bind]; congr 1; funext r; exact ih r

instance : LawfulMonad Program :=
  LawfulMonad.mk' Program bind_done (fun _ _ => rfl) bind_bind

/-! ## Running -/

/-- Something that answers actions and changes its state with each. -/
abbrev Handler (σ : Type) : Type := (action : Action) → σ → action.Reply × σ

/-- Run a program to its end. -/
def run {σ α : Type} (handler : Handler σ) : Program α → σ → α × σ
  | .done a, s => (a, s)
  | .step action next, s =>
    let (reply, s) := handler action s
    (next reply).run handler s

@[simp] theorem run_done {σ α : Type} (handler : Handler σ) (a : α) (s : σ) :
    (Program.done a).run handler s = (a, s) := rfl

@[simp] theorem run_step {σ α : Type} (handler : Handler σ) (action : Action)
    (next : action.Reply → Program α) (s : σ) :
    (Program.step action next).run handler s =
      (next (handler action s).1).run handler (handler action s).2 := rfl

/-- Running two programs in a row hands the state of the first to the second. -/
theorem run_bind {σ α β : Type} (handler : Handler σ) (t : Program α) (f : α → Program β) (s : σ) :
    (t >>= f).run handler s = (f (t.run handler s).1).run handler (t.run handler s).2 := by
  induction t generalizing s with
  | done a => rfl
  | step action next ih => simp only [step_bind, run_step]; exact ih _ _

/-- A program that has come to rest: finished, or about to make a storage call. -/
inductive Rest (α : Type) : Type where
  /-- The program is finished. -/
  | finished (result : α)
  /-- The program is about to make this call. -/
  | waiting (call : Call) (next : call.Outcome → Program α)

/-- Run a program until it is finished or about to make a storage call. -/
def settle {σ α : Type} (handler : Handler σ) : Program α → σ → Rest α × σ
  | .done a, s => (.finished a, s)
  | .step (.call call) next, s => (.waiting call next, s)
  | .step .now next, s => let (r, s) := handler .now s; (next r).settle handler s
  | .step .freshToken next, s => let (r, s) := handler .freshToken s; (next r).settle handler s
  | .step (.tell n) next, s => let (r, s) := handler (.tell n) s; (next r).settle handler s
  | .step (.count c) next, s => let (r, s) := handler (.count c) s; (next r).settle handler s

end Program

end ObjectStore

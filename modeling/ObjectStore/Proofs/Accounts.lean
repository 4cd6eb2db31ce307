import ObjectStore.Proofs.Contest
import ObjectStore.Proofs.Sections
import ObjectStore.Proofs.Undisturbed

/-! # Sections seen as a serial run

The parties of a site are parties of a contest for its key. What they have done in their sections so
far is accounted for as the beginning of a serial run of their bodies.

* **`Lock.Stage.IsFair`** — where an attempt stands that has met with nothing worse than a conflict.
* **`Site.Progress`** — how far a party is, as a party of the contest and by its program.
* **`Site.Account`** — what the log and the data are, seen as a serial run; it goes on as a party
  takes the lock (`Account.enter`), makes a call of its body (`Account.act`) and gives the lock up
  (`Account.leave`). -/

namespace ObjectStore

open Lock (Stage Course)

/-! ## Fair weather -/

namespace Lock.Stage

variable {lock : Lock} {stage : Stage} {world world' : World}

/-- A stage of an attempt that has met with nothing worse than a conflict. -/
def IsFair (lock : Lock) : Stage → Prop
  | .withdraw failure => failure = .lockConflict lock.target none
  | .release => False
  | _ => True

/-- A course of an attempt that has met with nothing worse than a conflict. -/
def IsFairCourse (lock : Lock) : Course → Prop
  | .stands stage => stage.IsFair lock
  | .ended result => result = .ok () ∨ result = .error (.lockConflict lock.target none)

theorem isFair_lookAt (lock : Lock) (now : Instant) (names : List String) :
    IsFairCourse lock (lock.lookAt now names) := by
  rcases lock.lookAt_cases now names with ⟨hended, -⟩ | ⟨other, more, hstands, -⟩
  · rw [hended]
    exact .inl rfl
  · rw [hstands]
    trivial

/-- In fair weather an attempt on a store without limit meets with nothing worse than a conflict. -/
theorem isFair_after (lock : Lock) {reply : (stage.action lock).Reply} (hstage : stage.IsFair lock)
    (hlimit : world.store.limit = 0)
    (h : Answered Weather.fair lock.token world (stage.action lock) reply world') :
    IsFairCourse lock (stage.after lock reply) := by
  obtain ⟨rfl, -⟩ := h.eq_serve
  cases stage with
  | write =>
    rw [serve_write hlimit]
    trivial
  | read => trivial
  | list now => exact isFair_lookAt lock now _
  | load now other more =>
    simp only [after, action, World.serve, payloadOf_load]
    cases world.store.entries.find? (Proposals.key lock.target other) with
    | none => exact isFair_lookAt lock now more
    | some payload =>
      show IsFairCourse lock (lock.afterPayload now more payload)
      rw [afterPayload]
      split
      · exact rfl
      · exact isFair_lookAt lock now more
  | withdraw failure =>
    -- a deletion served by the store always counts as done
    obtain rfl : failure = .lockConflict lock.target none := hstage
    simp only [after, action, World.serve, withdrawn_delete]
    exact .inr rfl
  | release => exact hstage.elim

end Lock.Stage

/-! ## Programs past their asides -/

namespace Program

variable {α β : Type}

theorem hushed_bind {t : Program α} {told : List Event} {rest : Program α}
    (h : t.hushed = (told, rest)) (f : α → Program β) :
    (t >>= f).hushed = (told ++ (rest >>= f).hushed.1, (rest >>= f).hushed.2) := by
  obtain ⟨rfl, rfl⟩ := Prod.mk.inj h
  rw [hushed, asides_bind, List.filter_append, ← quieted_quieted_bind]
  rfl

/-- A program of data calls tells nothing. -/
theorem Within.hushed_bind {data : Key → Bool} {t : Program α}
    (h : t.Within (Action.IsDataCall data)) {f : α → Program β}
    (hf : ∀ a, (f a).hushed = ([], f a)) : (t >>= f).hushed = ([], t >>= f) := by
  cases t with
  | done a => exact hf a
  | step action next =>
    cases action with
    | call c => rfl
    | now => exact h.1.elim
    | freshToken => exact h.1.elim
    | tell n => exact h.1.elim
    | count c => exact h.1.elim

end Program

/-- The program of a stage begins with an action that is answered. -/
theorem Lock.Stage.hushed_program_bind {β : Type} (stage : Stage) (lock : Lock)
    (f : Result Unit → Program β) :
    (stage.program lock >>= f).hushed = ([], stage.program lock >>= f) := by
  obtain ⟨next, hprogram, -⟩ := stage.program_step lock
  rw [hprogram]
  cases stage <;> rfl

namespace Site

variable {ι α : Type} {site : Site ι α} {world start : World} {order : List ι} {i j : ι}

/-! ## Logs -/

theorem acquirers_append (log more : List (ι × Event)) :
    acquirers (log ++ more) = acquirers log ++ acquirers more :=
  List.filterMap_append

theorem sectionLog_append (log more : List (ι × Event)) :
    site.sectionLog (log ++ more) = site.sectionLog log ++ site.sectionLog more :=
  List.filter_append ..

theorem sectionLog_singleton (i : ι) (event : Event) :
    site.sectionLog [(i, event)] = if site.concerns event then [(i, event)] else [] :=
  List.filter_cons

/-- Whoever takes the lock is in the log of the sections. -/
theorem acquirers_sectionLog (site : Site ι α) (log : List (ι × Event)) :
    acquirers (site.sectionLog log) = acquirers log := by
  induction log with
  | nil => rfl
  | cons entry log ih =>
    obtain ⟨i, action, reply⟩ := entry
    -- of one entry: only what tells that the lock is taken matters
    have hone : acquirers (site.sectionLog [(i, ⟨action, reply⟩)]) =
        acquirers [(i, ⟨action, reply⟩)] := by
      cases action with
      | call c =>
        rw [sectionLog_singleton]
        split <;> rfl
      | now => rfl
      | freshToken => rfl
      | tell n => cases n <;> rfl
      | count c => rfl
    calc acquirers (site.sectionLog ([(i, ⟨action, reply⟩)] ++ log))
        = acquirers (site.sectionLog [(i, ⟨action, reply⟩)]) ++
            acquirers (site.sectionLog log) := by rw [sectionLog_append, acquirers_append]
      _ = acquirers [(i, ⟨action, reply⟩)] ++ acquirers log := by rw [hone, ih]
      _ = acquirers ([(i, ⟨action, reply⟩)] ++ log) := (acquirers_append ..).symm

/-- Of what a program tells and counts, the grants belong to sections. -/
theorem sectionLog_asides {β : Type} (i : ι) (t : Program β) :
    site.sectionLog (t.asides.map (Prod.mk i)) = t.hushed.1.map (Prod.mk i) := by
  induction t with
  | done a => rfl
  | step action next ih =>
    cases action with
    | call c => rfl
    | now => rfl
    | freshToken => rfl
    | count c => exact ih ()
    | tell n =>
      cases n with
      | lockAcquired target token => exact congrArg (List.cons _) (ih ())
      | lockReleased target token => exact congrArg (List.cons _) (ih ())
      | _ => exact ih ()

/-- What one step adds to the log of the sections. -/
theorem sectionLog_step (log : List (ι × Event)) (i : ι) (event : Event)
    {t rest : Program (Result α)} {told : List Event} (ht : t.hushed = (told, rest)) :
    site.sectionLog (log ++ (event :: t.asides).map (Prod.mk i)) =
      site.sectionLog log ++
        ((if site.concerns event then [event] else []) ++ told).map (Prod.mk i) := by
  rw [sectionLog_append, List.map_cons, ← List.singleton_append, sectionLog_append,
    sectionLog_asides, sectionLog_singleton, ht]
  split <;> rfl

/-! ## Keys -/

/-- Nothing at or below the proposal root is data. -/
theorem data_eq_false {k : Key} (h : (Proposals.root site.key).contains k = true) :
    site.data k = false := by
  by_contra hdata
  rw [site.data_apart k (Bool.not_eq_false _ ▸ hdata)] at h
  cases h

theorem data_proposal (site : Site ι α) (name : String) :
    site.data (Proposals.key site.key name) = false := by
  refine data_eq_false (Key.contains_iff.mpr ?_)
  rw [Proposals.key, Key.pieces_text_child]
  exact List.prefix_append ..

/-- No action of a lock operation uses data. -/
theorem concerns_action (stage : Stage) (i : ι) (reply : (stage.action (site.lock i)).Reply) :
    site.concerns ⟨stage.action (site.lock i), reply⟩ = false := by
  -- all calls go to the proposal root or just below it
  have hkey := data_proposal site
  have hroot : site.data (Proposals.root site.key) = false :=
    data_eq_false (Key.contains_iff.mpr List.prefix_rfl)
  cases stage with
  | write => exact congrArg (· && true) (hkey (site.token i).text)
  | read => rfl
  | list now => exact congrArg (· && true) hroot
  | load now other more => exact congrArg (· && true) (hkey other)
  | withdraw failure => exact congrArg (· && true) (hkey (site.token i).text)
  | release => exact congrArg (· && true) (hkey (site.token i).text)

/-- No action of a lock operation changes data. -/
theorem agree_action {stage : Stage} {reply : (stage.action (site.lock i)).Reply}
    {world world' : World} {b : MemoryStore}
    (h : Answered Weather.fair (site.token i) world (stage.action (site.lock i)) reply world')
    (hagree : world.store.Agree (site.data · = true) b) :
    world'.store.Agree (site.data · = true) b := by
  refine h.agree (fun k hk => ?_) hagree
  rw [Stage.eq_key_of_mem_written hk, lock, data_proposal]
  exact Bool.false_ne_true

/-! ## Serial runs -/

theorem after_concat (order : List ι) (i : ι) (world : World) :
    site.after (order ++ [i]) world = (site.alone i (site.after order world)).2 := by
  rw [after, List.foldl_append]
  rfl

theorem serialLog_concat (order : List ι) (i : ι) (world : World) :
    site.serialLog (order ++ [i]) world =
      site.serialLog order world ++ site.soloLog i (site.after order world) := by
  induction order generalizing world with
  | nil => exact List.append_nil _
  | cons j order ih =>
    show site.soloLog j world ++ site.serialLog (order ++ [i]) _ = _
    rw [ih, ← List.append_assoc]
    rfl

/-! ## Progress -/

/-- The contest for the key of a site. -/
def contest (site : Site ι α) : Contest ι where
  target := site.key
  token := site.token
  expiration _ := .never
  token_injective := site.token_injective

/-- A party of the contest that has a part of its body left to do: once nothing is left of it, the
party has called for a release. -/
def partyInside (wrote : Bool) : Program (Result α) → Party Stage
  | .done _ => ⟨.busy .release false .release, [⟨.acquire, wrote, .ok ()⟩]⟩
  | .step _ _ => ⟨.idle, [⟨.acquire, wrote, .ok ()⟩]⟩

/-- How far a party is, given who has taken the lock so far: as a party of the contest, by what is
left of its program, and by what is left of its body while it is in its section. -/
inductive Progress (site : Site ι α) (start : World) (order : List ι) (i : ι) :
    Party Stage → Program (Result α) → Option (Program (Result α)) → Prop where
  /-- The party has not drawn its token. -/
  | fresh (h : i ∉ order) : Progress site start order i .newcomer (site.program i) none
  /-- The party tries to take the lock. -/
  | attempting {wrote : Bool} {stage : Stage} (h : i ∉ order)
      (hstage : stage.IsFair (site.lock i)) :
      Progress site start order i ⟨.busy .acquire wrote stage, []⟩
        (stage.program (site.lock i) >>= site.enter i) none
  /-- The party has not got the lock. -/
  | refused {wrote : Bool} (h : i ∉ order) :
      Progress site start order i
        ⟨.idle, [⟨.acquire, wrote, .error (.lockConflict site.key none)⟩]⟩
        (.done (.error (.lockConflict site.key none))) none
  /-- The party is in its section. -/
  | inside {wrote : Bool} {t : Program (Result α)} (h : i ∈ order)
      (ht : t.Within (Action.IsDataCall site.data)) :
      Progress site start order i (partyInside wrote t) (t >>= site.leave i) (some t)
  /-- The party has left its section. -/
  | finished {wrote : Bool} {before later : List ι} (h : order = before ++ i :: later) :
      Progress site start order i
        ⟨.idle, [⟨.release, false, .ok ()⟩, ⟨.acquire, wrote, .ok ()⟩]⟩
        (.done (site.alone i (site.after before start)).1) none

namespace Progress

variable {p : Party Stage} {rest : Program (Result α)} {left : Option (Program (Result α))}

/-- Nothing changes for a party when another one takes the lock. -/
theorem concat (h : Progress site start order i p rest left) (hij : i ≠ j) :
    Progress site start (order ++ [j]) i p rest left := by
  have hnotMem : i ∉ order → i ∉ order ++ [j] := by
    intro hi
    simp [hi, hij]
  cases h with
  | fresh h => exact .fresh (hnotMem h)
  | attempting h hstage => exact .attempting (hnotMem h) hstage
  | refused h => exact .refused (hnotMem h)
  | inside h ht => exact .inside (List.mem_append_left _ h) ht
  | @finished wrote before later h =>
    have hconcat : order ++ [j] = before ++ i :: (later ++ [j]) := by
      rw [h, List.append_assoc, List.cons_append]
    exact .finished hconcat

theorem append {new : List ι} (h : Progress site start order i p rest left)
    (hnew : new = [] ∨ new = [j]) (hij : i ≠ j) :
    Progress site start (order ++ new) i p rest left := by
  rcases hnew with rfl | rfl
  · rwa [List.append_nil]
  · exact h.concat hij

/-- A party with a part of its body left to do has taken the lock. -/
theorem of_some {t : Program (Result α)} (h : Progress site start order i p rest (some t)) :
    i ∈ order ∧ ∃ wrote, p = partyInside wrote t := by
  cases h with
  | inside hmem ht => exact ⟨hmem, _, rfl⟩

/-- The result of a party that is done is that of its body in the serial run if it has taken the
lock, and a conflict otherwise; in either case it is in no section. -/
theorem of_done {result : Result α} (h : Progress site start order i p rest left)
    (hrest : rest = .done result) :
    left = none ∧
      ((∃ before later, order = before ++ i :: later ∧
        result = (site.alone i (site.after before start)).1) ∨
      (i ∉ order ∧ result = .error (.lockConflict site.key none))) := by
  cases h with
  | fresh hfresh =>
    obtain ⟨next, hprogram, -⟩ := site.program_eq i
    rw [hprogram] at hrest
    cases hrest
  | @attempting wrote stage hfresh hstage =>
    obtain ⟨next, hprogram, -⟩ := stage.program_step (site.lock i)
    rw [hprogram] at hrest
    cases hrest
  | refused hfresh =>
    cases hrest
    exact ⟨rfl, .inr ⟨hfresh, rfl⟩⟩
  | @inside wrote t hmem hwithin =>
    cases t with
    | done value =>
      obtain ⟨next, hprogram, -⟩ := Stage.release.program_step (site.lock i)
      change (Stage.release.program (site.lock i) >>= site.finish value) = _ at hrest
      rw [hprogram] at hrest
      cases hrest
    | step action next => cases hrest
  | finished horder =>
    cases hrest
    exact ⟨rfl, .inl ⟨_, _, horder, rfl⟩⟩

end Progress

/-! ## Accounts -/

/-- What the log of the sections and the data in a store are, seen as a serial run in some order,
with the party that is in its section, if any, and what is left of its body. -/
inductive Account (site : Site ι α) (start : World) (order : List ι) (log : List (ι × Event))
    (store : MemoryStore) : Option (ι × Program (Result α)) → Prop where
  /-- Nobody is in a section: the serial run is over. -/
  | free (hlog : log = site.serialLog order start)
      (hagree : store.Agree (site.data · = true) (site.after order start).store) :
      Account site start order log store none
  /-- The last party is in its section: there the serial run has come as far as it. -/
  | taken {before : List ι} {i : ι} {t : Program (Result α)} {past : List Event} {world : World}
      (horder : order = before ++ [i])
      (hlog : log =
        site.serialLog before start ++ ((site.lock i).acquired :: past).map (Prod.mk i))
      (hevents : (site.body i).events (World.serve (site.token i)) (site.after before start) =
        past ++ t.events (World.serve (site.token i)) world)
      (hrun : site.alone i (site.after before start) = t.run (World.serve (site.token i)) world)
      (hagree : store.Agree (site.data · = true) world.store) :
      Account site start order log store (some (i, t))

namespace Account

variable {log : List (ι × Event)} {store store' : MemoryStore}
  {occupant : Option (ι × Program (Result α))}

/-- Only what the data in the store agrees with matters. -/
theorem of_agree (h : Account site start order log store occupant)
    (hstore : ∀ {b}, store.Agree (site.data · = true) b → store'.Agree (site.data · = true) b) :
    Account site start order log store' occupant := by
  cases h with
  | free hlog hagree => exact .free hlog (hstore hagree)
  | taken horder hlog hevents hrun hagree => exact .taken horder hlog hevents hrun (hstore hagree)

theorem limit (h : Account site start order log store occupant) : store.limit = 0 := by
  cases h with
  | free hlog hagree => exact hagree.left
  | taken horder hlog hevents hrun hagree => exact hagree.left

/-- While the last party is in its section, the log of the serial run goes on with what is left of
its body and ends with its release. -/
theorem serialLog_eq {before : List ι} {t : Program (Result α)} {past : List Event} {world : World}
    (horder : order = before ++ [i])
    (hlog : log = site.serialLog before start ++ ((site.lock i).acquired :: past).map (Prod.mk i))
    (hevents : (site.body i).events (World.serve (site.token i)) (site.after before start) =
      past ++ t.events (World.serve (site.token i)) world) :
    site.serialLog order start = log ++
      (t.events (World.serve (site.token i)) world ++ [(site.lock i).released]).map
        (Prod.mk i) := by
  rw [horder, hlog, serialLog_concat, soloLog, hevents, List.append_assoc, ← List.map_append]
  simp

/-- The log is the beginning of the log of the serial run. -/
theorem log_begins (h : Account site start order log store occupant) :
    log <+: site.serialLog order start := by
  cases h with
  | free hlog hagree => exact hlog ▸ List.prefix_rfl
  | @taken before i t past world horder hlog hevents hrun hagree =>
    exact ⟨_, (serialLog_eq horder hlog hevents).symm⟩

/-- The next party takes the lock. -/
theorem enter (h : Account site start order log store none) (i : ι) :
    Account site start (order ++ [i]) (log ++ [(site.lock i).acquired].map (Prod.mk i)) store
      (some (i, site.body i)) := by
  cases h with
  | free hlog hagree =>
    rw [hlog]
    exact .taken rfl rfl rfl rfl hagree

/-- The body goes on by one call. -/
theorem act {call : Call} {next : call.Outcome → Program (Result α)}
    (h : Account site start order log store (some (i, .step (.call call) next)))
    (hcall : (Action.call call).IsDataCall site.data) :
    Account site start order
      (log ++ [(⟨.call call, (store.apply call).1⟩ : Event)].map (Prod.mk i)) (store.apply call).2
      (some (i, next (store.apply call).1)) := by
  cases h with
  | @taken before i t past world horder hlog hevents hrun hagree =>
    obtain ⟨hreply, hagree'⟩ := hagree.apply hcall.1 hcall.2
    -- the call gets the same reply as in the serial run
    have hpast : (site.body i).events (World.serve (site.token i)) (site.after before start) =
        (past ++ [⟨.call call, (world.store.apply call).1⟩]) ++
          (next (world.store.apply call).1).events (World.serve (site.token i))
            { world with store := (world.store.apply call).2 } := by
      rw [hevents, List.append_assoc]
      rfl
    rw [hreply]
    refine .taken horder ?_ hpast hrun hagree'
    rw [hlog, List.append_assoc, ← List.map_append]
    rfl

/-- The party gives the lock up. -/
theorem leave {result : Result α}
    (h : Account site start order log store (some (i, .done result)))
    (hstore : ∀ {b}, store.Agree (site.data · = true) b → store'.Agree (site.data · = true) b) :
    Account site start order (log ++ [(site.lock i).released].map (Prod.mk i)) store' none ∧
      ∃ before, order = before ++ [i] ∧ result = (site.alone i (site.after before start)).1 := by
  cases h with
  | @taken before i t past world horder hlog hevents hrun hagree =>
    refine ⟨.free ?_ ?_, before, horder, by rw [hrun]; rfl⟩
    · exact (serialLog_eq horder hlog hevents).symm
    · rw [horder, after_concat, hrun]
      exact hstore hagree

end Account

/-- What is left of a party's body, if it is the one in its section. -/
def residual [DecidableEq ι] (occupant : Option (ι × Program (Result α))) (i : ι) :
    Option (Program (Result α)) :=
  occupant.bind fun (j, t) => if j = i then some t else none

@[simp] theorem residual_self [DecidableEq ι] (i : ι) (t : Program (Result α)) :
    residual (some (i, t)) i = some t := if_pos rfl

theorem residual_of_ne [DecidableEq ι] (h : j ≠ i) (t : Program (Result α)) :
    residual (some (i, t)) j = none := if_neg h.symm

theorem eq_of_residual [DecidableEq ι] {occupant : Option (ι × Program (Result α))}
    {t : Program (Result α)} (h : residual occupant i = some t) : occupant = some (i, t) := by
  obtain ⟨⟨j, t'⟩, rfl, hsome⟩ := Option.bind_eq_some_iff.mp h
  obtain ⟨rfl, ht⟩ := Option.ite_none_right_eq_some.mp hsome
  rw [Option.some.inj ht]

end Site

end ObjectStore

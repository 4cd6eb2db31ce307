import ObjectStore.Proofs.Attempt
import ObjectStore.Proofs.Registry

/-! # Lock operations alone

What an operation does if nobody else takes a step and no call goes wrong.

* **`Lock.run_acquire_of_free`** — an attempt succeeds if no proposal of another token counts.
* **`Lock.run_acquire_of_rival`** — otherwise it fails with a conflict, and leaves no proposal.
* **`Lock.run_release`** — a release removes the proposal of the lock's token. -/

namespace ObjectStore

namespace Lock

variable {lock : Lock} {draw : Token} {world : World}

/-- With a silent handler, the program of a stage does the stage's action and goes on where the reply
leads. -/
theorem Stage.run_program_silent {σ : Type} {handler : Program.Handler σ} (h : handler.IsSilent)
    (stage : Stage) (course : Course) {reply : (stage.action lock).Reply} {s s' : σ}
    (hanswer : handler (stage.action lock) s = (reply, s'))
    (hafter : stage.after lock reply = course) :
    (stage.program lock).run handler s = (course.program lock).run handler s' := by
  obtain ⟨next, hprogram, hnext⟩ := stage.program_step lock
  have hquiet : (next reply).quieted = course.program lock :=
    hafter ▸ congrArg Prod.snd (hnext reply)
  rw [hprogram, Program.run_step, hanswer, ← hquiet, Program.run_quieted h]

/-- Run alone, the program of a stage does the stage's action and goes on where the reply leads. -/
theorem Stage.run_program (stage : Stage) (course : Course) {reply : (stage.action lock).Reply}
    {world' : World} (hserve : World.serve draw (stage.action lock) world = (reply, world'))
    (hafter : stage.after lock reply = course) :
    (stage.program lock).run (World.serve draw) world =
      (course.program lock).run (World.serve draw) world' :=
  stage.run_program_silent (World.isSilent_serve draw) course hserve hafter

/-- A deletion served by the store always counts as done. -/
theorem withdrawn_delete (store : MemoryStore) (key : Key) :
    Proposals.withdrawn (store.apply (.delete key)).1 = .ok () := by
  cases hreply : (store.delete key).1 with
  | ok done => exact congrArg Proposals.withdrawn hreply
  | error e =>
    rw [show (store.apply (.delete key)).1 = .error e from hreply, Proposals.withdrawn,
      if_pos (MemoryStore.isNotFound_of_delete hreply)]

/-- **A release removes the proposal**, and succeeds whether or not there was one. -/
theorem run_release (lock : Lock) (draw : Token) (world : World) :
    lock.release.run (World.serve draw) world = (.ok (), { world with
      store := (world.store.delete (Proposals.key lock.target lock.token.text)).2 }) :=
  Stage.run_program .release (.ended (.ok ())) rfl (congrArg Course.ended (withdrawn_delete ..))

/-- A withdrawal after a conflict removes the proposal and ends with the conflict. -/
theorem run_withdraw (lock : Lock) (draw : Token) (world : World) (blocked : Key)
    (rollback : Option StorageError) :
    ((Stage.withdraw (.lockConflict blocked rollback)).program lock).run (World.serve draw) world =
      (.error (.lockConflict blocked none), { world with
        store := (world.store.delete (Proposals.key lock.target lock.token.text)).2 }) := by
  refine Stage.run_program _ (.ended (.error (.lockConflict blocked none))) rfl ?_
  simp only [Stage.after, withdrawn_delete, afterWithdrawal]

/-! ## Looking at proposals -/

/-- What a proposal loaded from a store is worth. -/
theorem payloadOf_load (store : MemoryStore) (key : Key) :
    Proposals.payloadOf (store.apply (.load key)).1 = .ok (store.entries.find? key) := by
  rw [MemoryStore.apply_load]
  cases store.entries.find? key with
  | none => rfl
  | some value => simp [Proposals.payloadOf, Except.map]

/-- Whether the proposal of a name counts against a lock. -/
def Rivals (lock : Lock) (entries : Entries) (now : Instant) (name : String) : Prop :=
  name ≠ lock.token.text ∧ ∃ value, entries.find? (Proposals.key lock.target name) = some value ∧
    Proposals.payloadIsActive value now = true

theorem rivals_iff {entries : Entries} {now : Instant} {name : String} :
    lock.Rivals entries now name ↔
      name ≠ lock.token.text ∧ Proposals.counts lock.target entries now name = true := by
  rw [Rivals, Proposals.counts, Option.any_eq_true]

/-- Where an attempt stands once it has loaded a proposal. -/
theorem after_load_eq (lock : Lock) (store : MemoryStore) (now : Instant) (other : String)
    (more : List String) : (Stage.load now other more).after lock
        (store.apply (.load (Proposals.key lock.target other))).1 =
      if Proposals.counts lock.target store.entries now other then
        .stands (.withdraw (.lockConflict lock.target none))
      else lock.lookAt now more := by
  simp only [Stage.after, payloadOf_load]
  cases hfind : store.entries.find? (Proposals.key lock.target other) with
  | none => simp [Proposals.counts, hfind]
  | some value => simp only [Proposals.counts, hfind, Option.any_some]; rfl

/-- A rival's proposal ends the attempt. -/
theorem run_load_of_rival {now : Instant} {other : String} (more : List String)
    (h : lock.Rivals world.store.entries now other) :
    ((Stage.load now other more).program lock).run (World.serve draw) world =
      (.error (.lockConflict lock.target none), { world with
        store := (world.store.delete (Proposals.key lock.target lock.token.text)).2 }) := by
  rw [← run_withdraw lock draw world lock.target none]
  refine Stage.run_program _ (.stands (.withdraw (.lockConflict lock.target none))) rfl ?_
  exact (after_load_eq ..).trans (if_pos (rivals_iff.mp h).2)

/-- A proposal of another that does not count is passed over. -/
theorem run_load_of_not_rival {now : Instant} {other : String} (more : List String)
    (hother : other ≠ lock.token.text) (h : ¬ lock.Rivals world.store.entries now other) :
    ((Stage.load now other more).program lock).run (World.serve draw) world =
      ((lock.lookAt now more).program lock).run (World.serve draw) world := by
  refine Stage.run_program _ _ rfl ?_
  exact (after_load_eq ..).trans (if_neg fun hcounts => h (rivals_iff.mpr ⟨hother, hcounts⟩))

/-- An attempt that finds no rival succeeds. -/
theorem run_lookAt_of_free {now : Instant} {names : List String}
    (h : ∀ name ∈ names, ¬ lock.Rivals world.store.entries now name) :
    ((lock.lookAt now names).program lock).run (World.serve draw) world = (.ok (), world) := by
  induction names with
  | nil => rfl
  | cons other more ih =>
    have hmore := ih fun name hname => h name (List.mem_cons_of_mem _ hname)
    rw [lookAt]
    split
    · exact hmore
    · next hother =>
      exact (run_load_of_not_rival more hother (h other List.mem_cons_self)).trans hmore

/-- An attempt that finds a rival fails. -/
theorem run_lookAt_of_rival {now : Instant} {names : List String}
    (h : ∃ name ∈ names, lock.Rivals world.store.entries now name) :
    ((lock.lookAt now names).program lock).run (World.serve draw) world =
      (.error (.lockConflict lock.target none), { world with
        store := (world.store.delete (Proposals.key lock.target lock.token.text)).2 }) := by
  induction names with
  | nil => simp at h
  | cons other more ih =>
    simp only [List.mem_cons, exists_eq_or_imp] at h
    rw [lookAt]
    split
    · next hown => exact ih (h.resolve_left fun hrival => hrival.1 hown)
    · next hother =>
      -- the first rival ends the attempt; names before it are passed over
      by_cases hrival : lock.Rivals world.store.entries now other
      · exact run_load_of_rival more hrival
      · exact (run_load_of_not_rival more hother hrival).trans (ih (h.resolve_left hrival))

/-! ## Attempts -/

/-- The store once a lock's proposal has been written. -/
def posted (lock : Lock) (store : MemoryStore) : MemoryStore :=
  (store.put (Proposals.key lock.target lock.token.text)
    (Bytes.ofString lock.expiration.encode)).2

theorem find?_posted_self {store : MemoryStore} (hlimit : store.limit = 0) :
    (lock.posted store).entries.find? (Proposals.key lock.target lock.token.text) =
      some (Bytes.ofString lock.expiration.encode) :=
  MemoryStore.find?_put_of_ok (MemoryStore.put_of_unlimited hlimit ..)

theorem find?_posted_of_ne (lock : Lock) {k : Key}
    (h : k ≠ Proposals.key lock.target lock.token.text) (store : MemoryStore) :
    (lock.posted store).entries.find? k = store.entries.find? k :=
  MemoryStore.find?_put_of_ne h _

/-- Writing one's own proposal changes nothing about the others. -/
theorem rivals_posted_iff {store : MemoryStore} {now : Instant} {other : Token} :
    lock.Rivals (lock.posted store).entries now other.text ↔
      lock.Rivals store.entries now other.text := by
  refine and_congr_right fun hname => ?_
  have hother : other ≠ lock.token := fun h => hname (congrArg Token.text h)
  rw [find?_posted_of_ne lock (Proposals.key_ne hother)]

/-- A store without limit takes the proposal. -/
theorem serve_write (hlimit : world.store.limit = 0) :
    World.serve draw (Stage.write.action lock) world =
      (.ok (), { world with store := lock.posted world.store }) := by
  show ((world.store.save _ _).1, { world with store := (world.store.save _ _).2 }) = _
  rw [MemoryStore.save_of_drain (Content.drain_ofBytes _), MemoryStore.put_of_unlimited hlimit]
  rfl

/-- In a store without limit an attempt writes its proposal and looks at all that are registered. -/
theorem run_acquire (hlimit : world.store.limit = 0) :
    lock.acquire.run (World.serve draw) world =
      ((lock.lookAt world.clock (Proposals.registered lock.target
        (lock.posted world.store).entries)).program lock).run (World.serve draw)
          { world with store := lock.posted world.store } :=
  calc lock.acquire.run (World.serve draw) world
      = (Stage.read.program lock).run (World.serve draw)
          { world with store := lock.posted world.store } :=
        Stage.run_program .write (.stands .read) (serve_write hlimit) rfl
    _ = ((Stage.list world.clock).program lock).run (World.serve draw)
          { world with store := lock.posted world.store } :=
        Stage.run_program .read (.stands (.list world.clock)) rfl rfl
    _ = _ := Stage.run_program (.list world.clock) _ rfl rfl

/-- **An attempt succeeds if no proposal of another token counts.** -/
theorem run_acquire_of_free (lock : Lock) (draw : Token) (world : World)
    (hlimit : world.store.limit = 0)
    (h : ∀ other : Token, ¬ lock.Rivals world.store.entries world.clock other.text) :
    lock.acquire.run (World.serve draw) world =
      (.ok (), { world with store := lock.posted world.store }) := by
  rw [run_acquire hlimit]
  refine run_lookAt_of_free fun name hname => ?_
  obtain ⟨other, rfl, -⟩ := Proposals.mem_registered_iff.mp hname
  exact mt rivals_posted_iff.mp (h other)

/-- **An attempt fails if the proposal of another token counts**, and its own is withdrawn. -/
theorem run_acquire_of_rival (lock : Lock) (draw : Token) (world : World) {other : Token}
    (hlimit : world.store.limit = 0)
    (h : lock.Rivals world.store.entries world.clock other.text) :
    lock.acquire.run (World.serve draw) world =
      (.error (.lockConflict lock.target none), { world with
        store := ((lock.posted world.store).delete
          (Proposals.key lock.target lock.token.text)).2 }) := by
  rw [run_acquire hlimit]
  obtain ⟨-, value, hfind, -⟩ := rivals_posted_iff.mpr h
  have hregistered := Proposals.token_mem_registered_iff.mpr (Option.isSome_of_eq_some hfind)
  exact run_lookAt_of_rival ⟨other.text, hregistered, rivals_posted_iff.mpr h⟩

end Lock

end ObjectStore

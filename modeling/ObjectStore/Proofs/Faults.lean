import Mathlib.Data.List.Find
import ObjectStore.Proofs.Oracle
import ObjectStore.Proofs.Subtrees
import ObjectStore.Proofs.Verdicts

/-! # Attempts whose calls fail

An attempt to take a lock makes its calls one after another: it writes its proposal, lists all of
them, loads those of other tokens in order, and withdraws its own if it has to. Any of the calls can
fail. How the attempt ends depends on the first failure and on the first proposal that counts,
whichever comes first, and on whether the withdrawal fails as well.

* **`Lock.others`** — the other tokens, in the order in which their proposals are loaded.
* **`Lock.obstacle`** — the first of them that ends the look: its load fails or its proposal counts.
* **`Lock.rejected`** — how an attempt ends that withdraws its proposal.
* **`Lock.GivesUp`** — an attempt has withdrawn its proposal, or failed to, and ends with an error.
* **`Lock.acquire_under_faults`** — how an attempt ends, whichever of its calls fail. -/

namespace ObjectStore

namespace MemoryStore

/-- To delete what has been written is to delete what was there before. -/
theorem delete_put {store : MemoryStore} {key : Key} {value : Bytes}
    (h : (store.put key value).1 = .ok ()) :
    ((store.put key value).2.delete key).2 = (store.delete key).2 := by
  have hroom : (store.put key value).2 = { store with
      entries := store.entries.insert key value
      total := store.total - store.lengthAt key + value.length } := by
    simp only [put] at h ⊢
    split at h
    · cases h
    · next hroom => rw [if_neg hroom]
  have herase : (store.entries.insert key value).erase key = store.entries.erase key := by
    refine Entries.ext_find? fun k => ?_
    by_cases hk : k = key
    · rw [hk, Entries.find?_erase_self, Entries.find?_erase_self]
    · rw [Entries.find?_erase_of_ne _ hk, Entries.find?_insert_of_ne _ hk,
        Entries.find?_erase_of_ne _ hk]
  have hfind : (store.put key value).2.entries.find? key = some value := find?_put_of_ok h
  rw [delete_of_some hfind, hroom]
  simp only [herase, Nat.add_sub_cancel]
  cases hold : store.entries.find? key with
  | some old =>
    rw [delete_of_some hold, lengthAt, hold]
  | none =>
    -- nothing was there, so nothing is missing
    have hsame : store.entries.erase key = store.entries := by
      refine Entries.ext_find? fun k => ?_
      by_cases hk : k = key
      · rw [hk, Entries.find?_erase_self, hold]
      · exact Entries.find?_erase_of_ne _ hk
    rw [delete_of_none hold, lengthAt, hold, hsame]
    rfl

end MemoryStore

namespace Lock

variable {oracle : Oracle} {lock : Lock} {s : Oracle.State}

/-! ## The calls of an attempt -/

/-- The key of a lock's own proposal. -/
def ownKey (lock : Lock) : Key := Proposals.key lock.target lock.token.text

/-- The call that writes the proposal. -/
def saveCall (lock : Lock) : Call :=
  .save lock.ownKey (.ofBytes (Bytes.ofString lock.expiration.encode))

/-- The call that lists the proposals. -/
def listCall (lock : Lock) : Call := .list (Proposals.root lock.target)

/-- The call that loads the proposal of a name. -/
def loadCall (lock : Lock) (name : String) : Call := .load (Proposals.key lock.target name)

/-- The call that removes the proposal. -/
def deleteCall (lock : Lock) : Call := .delete lock.ownKey

/-- The names but one's own, in order. -/
def others (lock : Lock) (names : List String) : List String :=
  names.filter fun name => name ≠ lock.token.text

/-- The registered names but one's own, in order. -/
def rivals (lock : Lock) (entries : Entries) : List String :=
  lock.others (Proposals.registered lock.target entries)

/-- Whether the look at the proposal of a name ends the attempt: the load, which has the number
`n`, fails, or the proposal counts. -/
def hinders (oracle : Oracle) (lock : Lock) (entries : Entries) (now : Instant) (n : Nat)
    (name : String) : Bool :=
  (oracle.outage n (lock.loadCall name)).isSome || Proposals.counts lock.target entries now name

/-- The error of an attempt that the proposal of a name has ended, by how the withdrawal failed:
that of the load, or else a conflict. -/
def hindrance (oracle : Oracle) (lock : Lock) (n : Nat) (name : String)
    (rollback : Option StorageError) : StorageError :=
  match oracle.outage n (lock.loadCall name) with
  | some outage => afterWithdrawal rollback outage.error
  | none => .lockConflict lock.target rollback

/-- The first of some names whose proposal ends the attempt, with its place among them. The loads
have the numbers from `n` on. -/
def obstacle (oracle : Oracle) (lock : Lock) (entries : Entries) (now : Instant) (n : Nat)
    (names : List String) : Option (String × Nat) :=
  names.zipIdx.find? fun entry => lock.hinders oracle entries now (n + entry.2) entry.1

/-- How an attempt ends that fails after some calls: it withdraws its proposal. The error may take
in that of the withdrawal. -/
def rejected (oracle : Oracle) (lock : Lock) (s : Oracle.State)
    (error : Option StorageError → StorageError) : Result Unit × Oracle.State :=
  match oracle.outage s.calls.length lock.deleteCall with
  | some outage => (.error (error (some outage.error)),
      { s with calls := s.calls ++ [lock.deleteCall] })
  | none => (.error (error none),
      { s with store := (s.store.delete lock.ownKey).2, calls := s.calls ++ [lock.deleteCall] })

/-! ## Stage by stage -/

/-- The program of a stage does the stage's action and goes on where the reply leads. -/
theorem Stage.run_under (stage : Stage) (course : Course) {reply : (stage.action lock).Reply}
    {s' : Oracle.State} (hanswer : oracle.answer (stage.action lock) s = (reply, s'))
    (hafter : stage.after lock reply = course) :
    (stage.program lock).run oracle.answer s = (course.program lock).run oracle.answer s' :=
  stage.run_program_silent oracle.isSilent_answer course hanswer hafter

/-- A withdrawal ends the attempt. -/
theorem run_rejected (hplain : oracle.FailsWith fun e => e.isNotFound = false)
    (failure : StorageError) :
    ((Stage.withdraw failure).program lock).run oracle.answer s =
      lock.rejected oracle s fun rollback => afterWithdrawal rollback failure := by
  rw [rejected]
  cases houtage : oracle.outage s.calls.length lock.deleteCall with
  | some outage =>
    have hask := Oracle.ask_of_some houtage
    rw [outage.reply_eq nofun] at hask
    refine Stage.run_under _ (.ended (.error (afterWithdrawal (some outage.error) failure))) hask ?_
    simp only [Stage.after, Proposals.withdrawn, hplain _ _ _ houtage]
    rfl
  | none =>
    refine Stage.run_under _ (.ended (.error (afterWithdrawal none failure)))
      (Oracle.ask_of_none houtage) ?_
    simp only [Stage.after, withdrawn_delete]

/-- A load that fails ends the attempt. -/
theorem run_load_of_outage (hplain : oracle.FailsWith fun e => e.isNotFound = false) {now : Instant}
    {other : String} (more : List String) {outage : Outage (lock.loadCall other)}
    (houtage : oracle.outage s.calls.length (lock.loadCall other) = some outage) :
    ((Stage.load now other more).program lock).run oracle.answer s =
      lock.rejected oracle { s with calls := s.calls ++ [lock.loadCall other] }
        fun rollback => afterWithdrawal rollback outage.error := by
  rw [← run_rejected hplain]
  refine Stage.run_under _ (.stands (.withdraw outage.error)) (Oracle.ask_of_some houtage) ?_
  simp only [Stage.after, outage.payloadOf_reply (hplain _ _ _ houtage)]

theorem hindrance_of_some {n : Nat} {name : String} {outage : Outage (lock.loadCall name)}
    (houtage : oracle.outage n (lock.loadCall name) = some outage) :
    lock.hindrance oracle n name = fun rollback => afterWithdrawal rollback outage.error := by
  funext rollback
  rw [hindrance, houtage]

theorem hindrance_of_none {n : Nat} {name : String}
    (houtage : oracle.outage n (lock.loadCall name) = none) :
    lock.hindrance oracle n name = fun rollback => .lockConflict lock.target rollback := by
  funext rollback
  rw [hindrance, houtage]

/-- **The look at a proposal** ends the attempt, or it goes on with the further names. -/
theorem run_load (hplain : oracle.FailsWith fun e => e.isNotFound = false) (now : Instant)
    (other : String) (more : List String) :
    ((Stage.load now other more).program lock).run oracle.answer s =
      if lock.hinders oracle s.store.entries now s.calls.length other then
        lock.rejected oracle { s with calls := s.calls ++ [lock.loadCall other] }
          (lock.hindrance oracle s.calls.length other)
      else
        ((lock.lookAt now more).program lock).run oracle.answer
          { s with calls := s.calls ++ [lock.loadCall other] } := by
  cases houtage : oracle.outage s.calls.length (lock.loadCall other) with
  | some outage =>
    rw [run_load_of_outage hplain more houtage, hinders, houtage, hindrance_of_some houtage]
    rfl
  | none =>
    -- the error of a withdrawal goes into the conflict
    have hconflict : lock.hindrance oracle s.calls.length other =
        fun rollback => afterWithdrawal rollback (.lockConflict lock.target none) :=
      hindrance_of_none houtage
    have hrun := (Stage.load now other more).run_under _ (Oracle.ask_of_none houtage)
      (after_load_eq lock s.store now other more)
    rw [hrun, hinders, houtage, Option.isSome_none, Bool.false_or, hconflict,
      ← run_rejected hplain]
    split <;> rfl

/-- An error that is no conflict has no room for that of the withdrawal. -/
theorem afterWithdrawal_of_not_conflict {e : StorageError} (h : e.isConflict = false) :
    (fun rollback => afterWithdrawal rollback e) = fun _ => e := by
  funext rollback
  cases e with
  | lockConflict target failure => cases h
  | _ => rfl

/-! ## The look at proposals -/

/-- The first of more names is an obstacle, or it is passed over. -/
theorem obstacle_cons (oracle : Oracle) (lock : Lock) (entries : Entries) (now : Instant) (n : Nat)
    (other : String) (more : List String) : lock.obstacle oracle entries now n (other :: more) =
      if lock.hinders oracle entries now n other then some (other, 0)
      else (lock.obstacle oracle entries now (n + 1) more).map fun entry =>
        (entry.1, entry.2 + 1) := by
  rw [obstacle, List.zipIdx_cons, List.find?_cons, Nat.add_zero]
  cases lock.hinders oracle entries now n other with
  | true => rfl
  | false =>
    -- the places of the further names are counted from one
    rw [List.zipIdx_succ, List.find?_map]
    refine congrArg (Option.map _) (congrArg (List.find? · _) ?_)
    funext entry
    exact congrArg (lock.hinders oracle entries now · entry.1) (by simp only; omega)

/-- **The look at proposals** ends at the first obstacle. Without one the attempt succeeds. -/
theorem run_lookAt (hplain : oracle.FailsWith fun e => e.isNotFound = false) (now : Instant)
    (names : List String) :
    ((lock.lookAt now names).program lock).run oracle.answer s =
      match lock.obstacle oracle s.store.entries now s.calls.length (lock.others names) with
      | some (name, place) =>
        lock.rejected oracle
          { s with calls := s.calls ++ ((lock.others names).take (place + 1)).map lock.loadCall }
          (lock.hindrance oracle (s.calls.length + place) name)
      | none => (.ok (), { s with calls := s.calls ++ (lock.others names).map lock.loadCall }) := by
  induction names generalizing s with
  | nil =>
    show _ = (Except.ok (), { s with calls := s.calls ++ [] })
    rw [List.append_nil]
    rfl
  | cons other more ih =>
    rw [lookAt]
    split
    -- one's own name is skipped without a call
    · next hown => rw [ih, others, others, List.filter_cons_of_neg (by simpa using hown)]
    · next hother =>
      have hothers : lock.others (other :: more) = other :: lock.others more :=
        List.filter_cons_of_pos (by simpa using hother)
      rw [hothers, obstacle_cons]
      refine (run_load hplain now other more).trans ?_
      split
      · rfl
      · rw [ih, List.length_append, List.length_singleton]
        cases lock.obstacle oracle s.store.entries now (s.calls.length + 1) (lock.others more) with
        | none => simp
        | some found => simp [Nat.add_assoc, Nat.add_comm 1]

/-! ## The attempt -/

theorem pairwise_rivals (lock : Lock) (entries : Entries) :
    (lock.rivals entries).Pairwise (· < ·) :=
  (Proposals.pairwise_registered lock.target entries).filter _

/-- The names of rivals are those of other tokens. -/
theorem mem_rivals_iff {entries : Entries} {name : String} : name ∈ lock.rivals entries ↔
    ∃ other : Token, other ≠ lock.token ∧ name = other.text ∧
      (entries.find? (Proposals.key lock.target other.text)).isSome = true := by
  simp only [rivals, others, List.mem_filter, Proposals.mem_registered_iff, decide_eq_true_eq]
  constructor
  · rintro ⟨⟨other, rfl, hsome⟩, hown⟩
    exact ⟨other, fun heq => hown (congrArg Token.text heq), rfl, hsome⟩
  · rintro ⟨other, hne, rfl, hsome⟩
    exact ⟨⟨other, rfl, hsome⟩, fun htext => hne (Token.ext htext)⟩

/-- Writing one's own proposal does not change who the rivals are. -/
theorem rivals_posted (lock : Lock) (store : MemoryStore) :
    lock.rivals (lock.posted store).entries = lock.rivals store.entries := by
  refine List.Pairwise.eq_of_mem_iff (lock.pairwise_rivals _) (lock.pairwise_rivals _) ?_
  intro name
  rw [mem_rivals_iff, mem_rivals_iff]
  refine exists_congr fun other => and_congr_right fun hne => ?_
  rw [find?_posted_of_ne lock (Proposals.key_ne hne)]

/-- Writing one's own proposal does not change which of the rivals ends the attempt. -/
theorem obstacle_posted (oracle : Oracle) (lock : Lock) (store : MemoryStore) (now : Instant)
    (n : Nat) : lock.obstacle oracle (lock.posted store).entries now n (lock.rivals store.entries) =
      lock.obstacle oracle store.entries now n (lock.rivals store.entries) := by
  refine List.find?_congr fun entry hentry => ?_
  obtain ⟨other, hne, hother, -⟩ := mem_rivals_iff.mp (List.fst_mem_of_mem_zipIdx hentry)
  rw [hinders, hinders, Proposals.counts, Proposals.counts, hother,
    find?_posted_of_ne lock (Proposals.key_ne hne)]

/-- A save that is refused changes nothing. -/
theorem ask_save_of_error {e : StorageError} (h : (oracle.ask lock.saveCall s).1 = .error e) :
    (oracle.ask lock.saveCall s).2 = { s with calls := s.calls ++ [lock.saveCall] } := by
  cases houtage : oracle.outage s.calls.length lock.saveCall with
  | some outage => rw [Oracle.ask_of_some houtage]
  | none =>
    rw [Oracle.ask_of_none houtage] at h ⊢
    rw [MemoryStore.apply_eq_of_error h]

/-- A save that is carried out writes the proposal. -/
theorem ask_save_of_ok (h : (oracle.ask lock.saveCall s).1 = .ok ()) :
    (oracle.ask lock.saveCall s).2 =
        { s with store := lock.posted s.store, calls := s.calls ++ [lock.saveCall] } ∧
      (s.store.put lock.ownKey (Bytes.ofString lock.expiration.encode)).1 = .ok () := by
  have hput : s.store.apply lock.saveCall =
      s.store.put lock.ownKey (Bytes.ofString lock.expiration.encode) :=
    MemoryStore.save_of_drain (Content.drain_ofBytes _)
  cases houtage : oracle.outage s.calls.length lock.saveCall with
  | some outage =>
    rw [Oracle.ask_of_some houtage, outage.reply_eq nofun] at h
    cases h
  | none =>
    rw [Oracle.ask_of_none houtage] at h ⊢
    rw [hput] at h ⊢
    exact ⟨rfl, h⟩

/-- A store without limit takes the proposal. -/
theorem ask_save_of_unlimited (houtage : oracle.outage s.calls.length lock.saveCall = none)
    (hlimit : s.store.limit = 0) : (oracle.ask lock.saveCall s).1 = .ok () := by
  rw [Oracle.ask_of_none houtage]
  show (s.store.save _ _).1 = _
  rw [MemoryStore.save_of_drain (Content.drain_ofBytes _)]
  exact MemoryStore.put_of_unlimited hlimit ..

/-- The state once the proposal has been written, the clock read and some further calls made. -/
def lookedAt (lock : Lock) (s : Oracle.State) (calls : List Call) : Oracle.State :=
  { s with
    store := lock.posted s.store
    calls := s.calls ++ lock.saveCall :: lock.listCall :: calls
    readings := s.readings + 1 }

theorem length_calls_lookedAt (lock : Lock) (s : Oracle.State) (calls : List Call) :
    (lock.lookedAt s calls).calls.length = s.calls.length + 2 + calls.length := by
  simp only [lookedAt, List.length_append, List.length_cons]
  omega

/-- An attempt that has written its proposal goes on to list them all. -/
theorem run_acquire_of_saved (h : (oracle.ask lock.saveCall s).1 = .ok ()) :
    lock.acquire.run oracle.answer s =
      ((Stage.list (oracle.time s.readings)).program lock).run oracle.answer
        { s with
          store := lock.posted s.store
          calls := s.calls ++ [lock.saveCall]
          readings := s.readings + 1 } :=
  calc lock.acquire.run oracle.answer s
      = (Stage.read.program lock).run oracle.answer
          { s with store := lock.posted s.store, calls := s.calls ++ [lock.saveCall] } :=
        Stage.write.run_under (.stands .read) (Prod.ext h (ask_save_of_ok h).1) rfl
    _ = _ := Stage.read.run_under (.stands (.list (oracle.time s.readings))) rfl rfl

/-- An attempt has written its proposal, listed the proposals and looked at those of some names, and
now ends with an error that may take in the error of the withdrawal. The withdrawal is its last
call: unless it fails, the store is as at the start without the proposal of the lock. -/
structure GivesUp (oracle : Oracle) (lock : Lock) (s : Oracle.State) (looked : List String)
    (error : Option StorageError → StorageError) (ended : Result Unit × Oracle.State) : Prop where
  calls : ended.2.calls = s.calls ++ lock.saveCall :: lock.listCall ::
    (looked.map lock.loadCall ++ [lock.deleteCall])
  withdrawn : oracle.outage (s.calls.length + 2 + looked.length) lock.deleteCall = none →
    ended.1 = .error (error none) ∧ ended.2.store = (s.store.delete lock.ownKey).2
  stays : ∀ outage,
    oracle.outage (s.calls.length + 2 + looked.length) lock.deleteCall = some outage →
      ended.1 = .error (error (some outage.error)) ∧ ended.2.store = lock.posted s.store

theorem givesUp_rejected (oracle : Oracle) (lock : Lock) (s : Oracle.State)
    (hput : (s.store.put lock.ownKey (Bytes.ofString lock.expiration.encode)).1 = .ok ())
    (looked : List String) (error : Option StorageError → StorageError) :
    lock.GivesUp oracle s looked error
      (lock.rejected oracle (lock.lookedAt s (looked.map lock.loadCall)) error) := by
  have hlength : (lock.lookedAt s (looked.map lock.loadCall)).calls.length =
      s.calls.length + 2 + looked.length := by
    rw [length_calls_lookedAt, List.length_map]
  rw [rejected]
  cases houtage : oracle.outage (lock.lookedAt s (looked.map lock.loadCall)).calls.length
      lock.deleteCall with
  | some outage =>
    rw [hlength] at houtage
    refine ⟨List.append_assoc .., fun hnone => ?_, fun outage' hsome => ?_⟩
    · cases houtage.symm.trans hnone
    · obtain rfl : outage = outage' := Option.some_inj.mp (houtage.symm.trans hsome)
      exact ⟨rfl, rfl⟩
  | none =>
    rw [hlength] at houtage
    refine ⟨List.append_assoc .., fun _ => ⟨rfl, MemoryStore.delete_put hput⟩, ?_⟩
    intro outage hsome
    cases houtage.symm.trans hsome

/-- An attempt that cannot list the proposals gives up. -/
theorem run_acquire_of_unlisted (hplain : oracle.FailsWith fun e => e.isNotFound = false)
    (hsaved : (oracle.ask lock.saveCall s).1 = .ok ()) {outage : Outage lock.listCall}
    (houtage : oracle.outage (s.calls.length + 1) lock.listCall = some outage) :
    lock.acquire.run oracle.answer s =
      lock.rejected oracle (lock.lookedAt s []) fun rollback =>
        afterWithdrawal rollback outage.error := by
  have hlist : oracle.outage (s.calls ++ [lock.saveCall]).length lock.listCall = some outage := by
    rw [List.length_append]
    exact houtage
  have hask := Oracle.ask_of_some (s := { s with
    store := lock.posted s.store
    calls := s.calls ++ [lock.saveCall]
    readings := s.readings + 1 }) hlist
  rw [outage.reply_eq nofun] at hask
  rw [run_acquire_of_saved hsaved, ← run_rejected hplain]
  refine ((Stage.list _).run_under (.stands (.withdraw outage.error)) hask rfl).trans ?_
  simp only [lookedAt, List.append_assoc]
  rfl

/-- An attempt that has listed the proposals looks at those of its rivals. -/
theorem run_acquire_of_listed (hplain : oracle.FailsWith fun e => e.isNotFound = false)
    (hsaved : (oracle.ask lock.saveCall s).1 = .ok ())
    (hlist : oracle.outage (s.calls.length + 1) lock.listCall = none) :
    lock.acquire.run oracle.answer s =
      match lock.obstacle oracle s.store.entries (oracle.time s.readings) (s.calls.length + 2)
          (lock.rivals s.store.entries) with
      | some (name, place) =>
        lock.rejected oracle
          (lock.lookedAt s (((lock.rivals s.store.entries).take (place + 1)).map lock.loadCall))
          (lock.hindrance oracle (s.calls.length + 2 + place) name)
      | none => (.ok (), lock.lookedAt s ((lock.rivals s.store.entries).map lock.loadCall)) := by
  have hlist' : oracle.outage (s.calls ++ [lock.saveCall]).length lock.listCall = none := by
    rw [List.length_append]
    exact hlist
  have hask := Oracle.ask_of_none (s := { s with
    store := lock.posted s.store
    calls := s.calls ++ [lock.saveCall]
    readings := s.readings + 1 }) hlist'
  have hlooked : lock.acquire.run oracle.answer s =
      ((lock.lookAt (oracle.time s.readings) (Proposals.registered lock.target
        (lock.posted s.store).entries)).program lock).run oracle.answer (lock.lookedAt s []) := by
    rw [run_acquire_of_saved hsaved]
    refine ((Stage.list _).run_under _ hask rfl).trans ?_
    simp only [lookedAt, List.append_assoc]
    rfl
  have hnames : lock.others (Proposals.registered lock.target (lock.posted s.store).entries) =
      lock.rivals s.store.entries := lock.rivals_posted s.store
  have hstore : (lock.lookedAt s []).store = lock.posted s.store := rfl
  rw [hlooked, run_lookAt hplain, hnames, length_calls_lookedAt, List.length_nil, Nat.add_zero,
    hstore, obstacle_posted]
  have hcalls : ∀ calls, { lock.lookedAt s [] with calls := (lock.lookedAt s []).calls ++ calls } =
      lock.lookedAt s calls := by
    intro calls
    simp only [lookedAt, List.append_assoc]
    rfl
  cases lock.obstacle oracle s.store.entries (oracle.time s.readings) (s.calls.length + 2)
      (lock.rivals s.store.entries) with
  | none => exact congrArg (Prod.mk _) (hcalls _)
  | some found => exact congrArg (lock.rejected oracle · _) (hcalls _)

/-- An attempt that meets with an obstacle gives up. -/
theorem run_acquire_of_obstacle (hplain : oracle.FailsWith fun e => e.isNotFound = false)
    (hsaved : (oracle.ask lock.saveCall s).1 = .ok ())
    (hlist : oracle.outage (s.calls.length + 1) lock.listCall = none) {name : String} {place : Nat}
    (hfirst : lock.obstacle oracle s.store.entries (oracle.time s.readings) (s.calls.length + 2)
      (lock.rivals s.store.entries) = some (name, place)) :
    lock.acquire.run oracle.answer s = lock.rejected oracle
      (lock.lookedAt s (((lock.rivals s.store.entries).take (place + 1)).map lock.loadCall))
      (lock.hindrance oracle (s.calls.length + 2 + place) name) := by
  rw [run_acquire_of_listed hplain hsaved hlist, hfirst]

/-- An attempt that meets with no obstacle succeeds. -/
theorem run_acquire_of_clear (hplain : oracle.FailsWith fun e => e.isNotFound = false)
    (hsaved : (oracle.ask lock.saveCall s).1 = .ok ())
    (hlist : oracle.outage (s.calls.length + 1) lock.listCall = none)
    (hfirst : lock.obstacle oracle s.store.entries (oracle.time s.readings) (s.calls.length + 2)
      (lock.rivals s.store.entries) = none) :
    lock.acquire.run oracle.answer s =
      (.ok (), lock.lookedAt s ((lock.rivals s.store.entries).map lock.loadCall)) := by
  rw [run_acquire_of_listed hplain hsaved hlist, hfirst]

/-- **How an attempt ends, whichever of its calls fail.** No error passes for an answer of the store
or of a lock.

If the proposal cannot be written, the attempt returns that error and has done nothing. Otherwise,
if the proposals cannot be listed, it gives up with that error. Otherwise it looks at the proposals
of its rivals in ascending order, up to the first obstacle: if that is a load that fails, it gives
up with its error, and if it is a proposal that counts, with a conflict that takes in the error of
the withdrawal. If there is no obstacle it succeeds, and its proposal stays. -/
theorem acquire_under_faults (oracle : Oracle) (lock : Lock) (s : Oracle.State)
    (hplain : oracle.FailsWith fun e => e.isNotFound = false ∧ e.isConflict = false) :
    let n := s.calls.length
    let saved := (oracle.ask lock.saveCall s).1
    let rivals := lock.rivals s.store.entries
    let first := lock.obstacle oracle s.store.entries (oracle.time s.readings) (n + 2) rivals
    let ended := lock.acquire.run oracle.answer s
    rivals.Pairwise (· < ·) ∧
    (∀ e, saved = .error e →
      ended.1 = .error e ∧ ended.2.store = s.store ∧ ended.2.calls = s.calls ++ [lock.saveCall]) ∧
    (saved = .ok () →
      (∀ outage, oracle.outage (n + 1) lock.listCall = some outage →
        lock.GivesUp oracle s [] (fun _ => outage.error) ended) ∧
      (oracle.outage (n + 1) lock.listCall = none →
        (∀ name place, first = some (name, place) →
          (∀ outage, oracle.outage (n + 2 + place) (lock.loadCall name) = some outage →
            lock.GivesUp oracle s (rivals.take (place + 1)) (fun _ => outage.error) ended) ∧
          (oracle.outage (n + 2 + place) (lock.loadCall name) = none →
            lock.GivesUp oracle s (rivals.take (place + 1))
              (fun rollback => .lockConflict lock.target rollback) ended)) ∧
        (first = none → ended.1 = .ok () ∧ ended.2.store = lock.posted s.store ∧
          ended.2.calls = s.calls ++ lock.saveCall :: lock.listCall ::
            rivals.map lock.loadCall))) := by
  intro n saved rivals first ended
  have hfound : oracle.FailsWith fun e => e.isNotFound = false :=
    fun n call outage houtage => (hplain n call outage houtage).1
  refine ⟨lock.pairwise_rivals s.store.entries, ?_, ?_⟩
  · intro e hsaved
    have hended : ended = (.error e, { s with calls := s.calls ++ [lock.saveCall] }) :=
      Stage.write.run_under (.ended (.error e)) (Prod.ext hsaved (ask_save_of_error hsaved)) rfl
    rw [hended]
    exact ⟨rfl, rfl, rfl⟩
  · intro hsaved
    have hput := (ask_save_of_ok hsaved).2
    refine ⟨fun outage houtage => ?_, fun hlist => ?_⟩
    · have hended : ended = _ := run_acquire_of_unlisted hfound hsaved houtage
      rw [hended, afterWithdrawal_of_not_conflict (hplain _ _ _ houtage).2]
      exact givesUp_rejected oracle lock s hput [] _
    refine ⟨fun name place hfirst => ?_, fun hfirst => ?_⟩
    · have hended : ended = _ := run_acquire_of_obstacle hfound hsaved hlist hfirst
      rw [hended]
      refine ⟨fun outage houtage => ?_, fun houtage => ?_⟩
      · rw [hindrance_of_some houtage, afterWithdrawal_of_not_conflict (hplain _ _ _ houtage).2]
        exact givesUp_rejected oracle lock s hput _ _
      · rw [hindrance_of_none houtage]
        exact givesUp_rejected oracle lock s hput _ _
    · have hended : ended = _ := run_acquire_of_clear hfound hsaved hlist hfirst
      rw [hended]
      exact ⟨rfl, rfl, rfl⟩

/-! ## A withdrawal that fails -/

/-- The backend is down. -/
def outOfService : StorageError := .backend { cause := "out of service" }

/-- The first two tokens each hold the lock on a target, the third one attempts to take it. -/
def latecomer : Lock := ⟨Key.ofString "a", .numbered 2, .never⟩

/-- Where the attempt begins. -/
def occupied : Oracle.State where
  store := { latecomer with token := .numbered 1 }.posted
    ({ latecomer with token := .numbered 0 }.posted .unlimited)

/-- **Both failures are told of** when an attempt meets with a proposal that counts and then cannot
withdraw its own, which stays. The second of the proposals is not looked at any more. -/
theorem acquire_under_faults_of_undeletable :
    ((Oracle.undeletable outOfService).FailsWith fun e =>
      e.isNotFound = false ∧ e.isConflict = false) ∧
    (latecomer.acquire.run (Oracle.undeletable outOfService).answer occupied).1 =
      .error (.lockConflict (Key.ofString "a") (some outOfService)) ∧
    (latecomer.acquire.run (Oracle.undeletable outOfService).answer occupied).2.store =
      latecomer.posted occupied.store ∧
    (latecomer.acquire.run (Oracle.undeletable outOfService).answer occupied).2.calls =
      [latecomer.saveCall, latecomer.listCall, latecomer.loadCall (Token.numbered 0).text,
        latecomer.deleteCall] := by
  have hplain : (Oracle.undeletable outOfService).FailsWith fun e =>
      e.isNotFound = false ∧ e.isConflict = false := Oracle.failsWith_undeletable ⟨rfl, rfl⟩
  have hfirst : latecomer.obstacle (.undeletable outOfService) occupied.store.entries .epoch 2
      (latecomer.rivals occupied.store.entries) = some ((Token.numbered 0).text, 0) := by
    decide +kernel
  have hlooked : (latecomer.rivals occupied.store.entries).take 1 = [(Token.numbered 0).text] := by
    decide +kernel
  obtain ⟨-, -, hsaved⟩ :=
    acquire_under_faults (.undeletable outOfService) latecomer occupied hplain
  obtain ⟨-, hlisted⟩ := hsaved (ask_save_of_unlimited rfl rfl)
  have hgivesUp := ((hlisted rfl).1 _ _ hfirst).2 rfl
  rw [hlooked] at hgivesUp
  obtain ⟨hresult, hstore⟩ := hgivesUp.stays _ rfl
  exact ⟨hplain, hresult, hstore, hgivesUp.calls⟩

end Lock

end ObjectStore

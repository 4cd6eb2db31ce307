import ObjectStore.Proofs.Faults
import ObjectStore.Proofs.Placement

/-! # The calls of a lock, whoever answers them

Whoever answers the storage calls of a program may answer as he likes: with errors of any kind, with
listings in any order, of keys that stand anywhere and of keys that come twice, with contents of any
kind and contents that break off. What calls a lock makes, and in which order, is settled all the
same.

* **`Exchange`** — a storage call with its outcome.
* **`Program.exchanges`** — the exchanges of a run, whatever the handler.
* **`Program.Transcript`** — the exchanges that a program can have, with the result it then comes
  to; every run has one of them (`Program.transcript_run`).
* **`Lock.Stage.exists_of_transcript`** — what a lock operation has exchanged at one stage and has
  left to exchange.
* **`Lock.keysToLoad`** — what an attempt has to load, by what it was told when it listed.
* **`Lock.calls_in_order`** — which calls an attempt and a release make, whoever answers them. -/

namespace ObjectStore

variable {α σ : Type}

/-! ## Exchanges -/

/-- A storage call with its outcome. -/
structure Exchange where
  call : Call
  outcome : call.Outcome

/-- The exchanges of a single action: a storage call is one, and nothing else is. -/
def Action.exchanges : (action : Action) → action.Reply → List Exchange
  | .call c, outcome => [⟨c, outcome⟩]
  | .now, _ => []
  | .freshToken, _ => []
  | .tell _, _ => []
  | .count _, _ => []

namespace Program

/-- The storage calls of a run with their outcomes, in order. -/
def exchanges (handler : Handler σ) : Program α → σ → List Exchange
  | .done _, _ => []
  | .step action next, s =>
    action.exchanges (handler action s).1 ++
      (next (handler action s).1).exchanges handler (handler action s).2

/-- The exchanges that a program can have, and the result that it comes to with them. -/
inductive Transcript : Program α → List Exchange → α → Prop where
  /-- A program that is finished has no exchange left. -/
  | done (a : α) : Transcript (.done a) [] a
  /-- An action may get any reply. -/
  | step (action : Action) (next : action.Reply → Program α) (reply : action.Reply)
      {later : List Exchange} {a : α} (h : Transcript (next reply) later a) :
      Transcript (.step action next) (action.exchanges reply ++ later) a

/-- **Every run comes to an end** with exchanges that the program can have. -/
theorem transcript_run (handler : Handler σ) (t : Program α) (s : σ) :
    t.Transcript (t.exchanges handler s) (t.run handler s).1 := by
  induction t generalizing s with
  | done a => exact .done a
  | step action next ih => exact .step action next _ (ih _ _)

variable {t : Program α} {all : List Exchange} {a b : α}

/-- What a program tells and counts is no exchange. -/
theorem Transcript.quieted (h : t.Transcript all a) : t.quieted.Transcript all a := by
  induction h with
  | done a => exact .done a
  | step action next reply h ih =>
    cases action with
    | tell notice => exact ih
    | count counter => exact ih
    | call call => exact .step (.call call) next reply h
    | now => exact .step .now next reply h
    | freshToken => exact .step .freshToken next reply h

theorem exists_of_transcript_step {action : Action} {next : action.Reply → Program α}
    (h : (Program.step action next).Transcript all a) :
    ∃ reply later, all = action.exchanges reply ++ later ∧ (next reply).Transcript later a := by
  cases h with
  | step action next reply h => exact ⟨reply, _, rfl, h⟩

theorem eq_of_transcript_done (h : (Program.done b).Transcript all a) : all = [] ∧ a = b := by
  cases h with
  | done b => exact ⟨rfl, rfl⟩

/-- The exchanges of two programs in a row are those of the first and those of the second. -/
theorem exists_of_transcript_bind {β : Type} {f : α → Program β} {b : β}
    (h : (t >>= f).Transcript all b) :
    ∃ a first second, all = first ++ second ∧ t.Transcript first a ∧ (f a).Transcript second b := by
  induction t generalizing all with
  | done a => exact ⟨a, [], all, rfl, .done a, h⟩
  | step action next ih =>
    rw [step_bind] at h
    obtain ⟨reply, later, rfl, hlater⟩ := exists_of_transcript_step h
    obtain ⟨a, first, second, rfl, hfirst, hsecond⟩ := ih reply hlater
    exact ⟨a, action.exchanges reply ++ first, second, (List.append_assoc ..).symm,
      .step action next reply hfirst, hsecond⟩

end Program

namespace Lock

variable {lock : Lock} {all : List Exchange} {result : Result Unit}

/-! ## Stage by stage -/

/-- **A lock operation makes the call of its stage, if there is one, and goes on where the reply
leads**, whoever replies. -/
theorem Stage.exists_of_transcript (stage : Stage)
    (h : (stage.program lock).Transcript all result) :
    ∃ reply later, all = (stage.action lock).exchanges reply ++ later ∧
      ((stage.after lock reply).program lock).Transcript later result := by
  obtain ⟨next, hprogram, hnext⟩ := stage.program_step lock
  rw [hprogram] at h
  obtain ⟨reply, later, rfl, hlater⟩ := Program.exists_of_transcript_step h
  have hquiet : (next reply).quieted = (stage.after lock reply).program lock :=
    congrArg Prod.snd (hnext reply)
  exact ⟨reply, later, rfl, hquiet ▸ hlater.quieted⟩

/-- A release is a single deletion. -/
theorem exists_of_transcript_release (h : lock.release.Transcript all result) :
    ∃ outcome : Result Unit, all = [⟨lock.deleteCall, outcome⟩] := by
  obtain ⟨outcome, later, rfl, hlater⟩ := Stage.release.exists_of_transcript h
  obtain ⟨rfl, -⟩ := Program.eq_of_transcript_done hlater
  exact ⟨outcome, rfl⟩

/-- A withdrawal is a single deletion, and the attempt has failed. -/
theorem exists_of_transcript_withdraw {failure : StorageError}
    (h : ((Stage.withdraw failure).program lock).Transcript all result) :
    ∃ outcome : Result Unit, all = [⟨lock.deleteCall, outcome⟩] ∧ result ≠ .ok () := by
  obtain ⟨outcome, later, rfl, hlater⟩ := (Stage.withdraw failure).exists_of_transcript h
  simp only [Stage.after] at hlater
  cases hwithdrawn : Proposals.withdrawn outcome with
  | ok done =>
    rw [hwithdrawn] at hlater
    obtain ⟨rfl, rfl⟩ := Program.eq_of_transcript_done hlater
    exact ⟨outcome, rfl, fun hok => by cases hok⟩
  | error e =>
    rw [hwithdrawn] at hlater
    obtain ⟨rfl, rfl⟩ := Program.eq_of_transcript_done hlater
    exact ⟨outcome, rfl, fun hok => by cases hok⟩

/-! ## The look at proposals -/

/-- The load of a key with its outcome. -/
def loading (load : Key × Result Content) : Exchange := ⟨.load load.1, load.2⟩

/-- The deletion of one's own proposal with its outcome. -/
def withdrawing (lock : Lock) (outcome : Result Unit) : Exchange := ⟨lock.deleteCall, outcome⟩

/-- The exchanges of an attempt that has some keys to load: it loads the first of them, in order. Then
it deletes its own proposal if it fails; if it does not fail it has loaded them all. -/
def LooksAt (lock : Lock) (keys : List Key) (all : List Exchange) (result : Result Unit) : Prop :=
  ∃ (loads : List (Key × Result Content)) (withdrawal : Option (Result Unit)),
    all = loads.map loading ++ (withdrawal.map lock.withdrawing).toList ∧
    loads.map Prod.fst <+: keys ∧
    (withdrawal.isSome = true ↔ result ≠ .ok ()) ∧
    (result = .ok () → loads.map Prod.fst = keys)

/-- An attempt may fail at once, whatever it has to load. -/
theorem looksAt_of_withdraw (keys : List Key) {failure : StorageError}
    (h : ((Stage.withdraw failure).program lock).Transcript all result) :
    lock.LooksAt keys all result := by
  obtain ⟨outcome, rfl, hfails⟩ := exists_of_transcript_withdraw h
  exact ⟨[], some outcome, rfl, List.nil_prefix, iff_of_true rfl hfails,
    fun hok => absurd hok hfails⟩

/-- A load comes before the others. -/
theorem LooksAt.cons {keys : List Key} (h : lock.LooksAt keys all result) (key : Key)
    (outcome : Result Content) :
    lock.LooksAt (key :: keys) (loading (key, outcome) :: all) result := by
  obtain ⟨loads, withdrawal, rfl, hprefix, hwithdrawal, hall⟩ := h
  exact ⟨(key, outcome) :: loads, withdrawal, rfl, (List.prefix_cons_inj key).mpr hprefix,
    hwithdrawal, fun hok => congrArg (List.cons key) (hall hok)⟩

/-- **An attempt that looks at names** loads the proposals of others among them, one after another. -/
theorem looksAt_of_lookAt {now : Instant} {names : List String}
    (h : ((lock.lookAt now names).program lock).Transcript all result) :
    lock.LooksAt ((lock.others names).map (Proposals.key lock.target)) all result := by
  induction names generalizing all with
  | nil =>
    obtain ⟨rfl, rfl⟩ := Program.eq_of_transcript_done h
    exact ⟨[], none, rfl, List.nil_prefix, by simp, fun _ => rfl⟩
  | cons other more ih =>
    rw [lookAt] at h
    split at h
    -- one's own name is skipped without a call
    · next hown =>
      rw [others, List.filter_cons_of_neg (by simpa using hown)]
      exact ih h
    · next hother =>
      rw [others, List.filter_cons_of_pos (by simpa using hother), List.map_cons]
      obtain ⟨outcome, later, rfl, hlater⟩ :=
        (Stage.load now other more).exists_of_transcript h
      refine LooksAt.cons ?_ _ outcome
      rcases Stage.after_load_cases lock now other more outcome with ⟨e, hafter⟩ | hafter
      · rw [hafter] at hlater
        exact looksAt_of_withdraw _ hlater
      · rw [hafter] at hlater
        exact ih hlater

/-- What an attempt has to load, by what it was told when it listed: the immediate children of the
proposal root but its own proposal, each as often as it was listed. -/
def keysToLoad (lock : Lock) : Result (List Key) → List Key
  | .ok keys => keys.filter fun k => k.parent = some (Proposals.root lock.target) ∧ k ≠ lock.ownKey
  | .error _ => []

/-- The names to look at are those of the keys to load. -/
theorem map_key_others (lock : Lock) (keys : List Key) :
    (lock.others (Proposals.childNames (Proposals.root lock.target) keys)).map
      (Proposals.key lock.target) = lock.keysToLoad (.ok keys) := by
  have hnames : ∀ name ∈ Proposals.childNames (Proposals.root lock.target) keys,
      (name ≠ lock.token.text ↔ Proposals.key lock.target name ≠ lock.ownKey) := by
    intro name hname
    obtain ⟨k, -, hparent, hk⟩ := Proposals.mem_childNames_iff.mp hname
    obtain ⟨t, rfl⟩ := Proposals.exists_token hparent
    rw [Proposals.name_key, Option.some_inj] at hk
    rw [← hk, ownKey]
    exact not_congr ⟨fun h => h ▸ rfl, fun h => congrArg Token.text (Proposals.key_injective h)⟩
  have hkeys := List.filter_map (f := Proposals.key lock.target)
    (l := Proposals.childNames (Proposals.root lock.target) keys)
    (p := fun k => decide (k ≠ lock.ownKey))
  have hothers : lock.others (Proposals.childNames (Proposals.root lock.target) keys) =
      (Proposals.childNames (Proposals.root lock.target) keys).filter
        ((fun k => decide (k ≠ lock.ownKey)) ∘ Proposals.key lock.target) :=
    List.filter_congr fun name hname => decide_eq_decide.mpr (hnames name hname)
  rw [hothers, ← hkeys, Proposals.map_key_childNames, List.filter_filter, keysToLoad]
  refine List.filter_congr fun k _ => ?_
  rw [Bool.eq_iff_iff]
  simp [and_comm]

/-- After it has listed, an attempt looks at the keys it has to load. -/
theorem looksAt_of_list {now : Instant}
    (h : ((Stage.list now).program lock).Transcript all result) :
    ∃ (listed : Result (List Key)) (later : List Exchange), all = ⟨lock.listCall, listed⟩ :: later ∧
      lock.LooksAt (lock.keysToLoad listed) later result := by
  obtain ⟨listed, later, rfl, hlater⟩ := (Stage.list now).exists_of_transcript h
  refine ⟨listed, later, rfl, ?_⟩
  cases listed with
  | ok keys => exact lock.map_key_others keys ▸ looksAt_of_lookAt hlater
  | error e => exact looksAt_of_withdraw [] hlater

/-! ## The order of calls -/

/-- After its proposal has been saved an attempt looks at what it has to load; without that it ends. -/
theorem exists_of_transcript_acquire (h : lock.acquire.Transcript all result) :
    ∃ (saved : Result Unit) (later : List Exchange), all = ⟨lock.saveCall, saved⟩ :: later ∧
      (∀ e, saved = .error e → later = [] ∧ result = .error e) ∧
      (saved = .ok () → ∃ (listed : Result (List Key)) (looked : List Exchange),
        later = ⟨lock.listCall, listed⟩ :: looked ∧
          lock.LooksAt (lock.keysToLoad listed) looked result) := by
  obtain ⟨saved, later, rfl, hlater⟩ := Stage.write.exists_of_transcript h
  refine ⟨saved, later, rfl, ?_⟩
  cases saved with
  | error e =>
    obtain ⟨rfl, rfl⟩ := Program.eq_of_transcript_done hlater
    refine ⟨fun e' he => ⟨rfl, ?_⟩, nofun⟩
    rw [Except.error.inj he]
  | ok done =>
    -- the clock is read without a call
    obtain ⟨now, later, rfl, hlater⟩ := Stage.read.exists_of_transcript hlater
    exact ⟨nofun, fun _ => looksAt_of_list hlater⟩

/-- Looking at keys, an attempt writes under its own key only. -/
theorem LooksAt.eq_ownKey_of_written {keys : List Key} (h : lock.LooksAt keys all result)
    {exchange : Exchange} (hmem : exchange ∈ all) {k : Key} (hk : k ∈ exchange.call.written) :
    k = lock.ownKey := by
  obtain ⟨loads, withdrawal, rfl, -⟩ := h
  rcases List.mem_append.mp hmem with hmem | hmem
  · obtain ⟨load, -, rfl⟩ := List.mem_map.mp hmem
    cases hk
  · obtain ⟨outcome, -, rfl⟩ := Option.map_eq_some_iff.mp (Option.mem_toList.mp hmem)
    exact List.mem_singleton.mp hk

/-- An attempt writes under its own key only. -/
theorem eq_ownKey_of_written (h : lock.acquire.Transcript all result) {exchange : Exchange}
    (hmem : exchange ∈ all) {k : Key} (hk : k ∈ exchange.call.written) : k = lock.ownKey := by
  obtain ⟨saved, later, rfl, hunsaved, hsaved⟩ := exists_of_transcript_acquire h
  rcases List.mem_cons.mp hmem with rfl | hlater
  · exact List.mem_singleton.mp hk
  cases saved with
  | error e => exact absurd ((hunsaved e rfl).1 ▸ hlater) List.not_mem_nil
  | ok done =>
    obtain ⟨listed, looked, rfl, hlooks⟩ := hsaved rfl
    rcases List.mem_cons.mp hlater with rfl | hlooked
    · cases hk
    · exact hlooks.eq_ownKey_of_written hlooked hk

/-- **Which calls a lock makes, whoever answers them.** The key of its proposal has the segments of
the target, the reserved one and the token.

An attempt comes to an end. It saves its proposal. If that fails it makes no other call and returns
the error. Otherwise it lists the proposal root, loads the first few of the keys that it has to load,
in order, and then deletes its proposal exactly if it fails. An attempt that succeeds has loaded all
that it has to. A release deletes the proposal and makes no other call. No call of either writes
under any other key. -/
theorem calls_in_order (lock : Lock) (backend : Program.Handler σ) (s : σ) :
    let made := lock.acquire.exchanges backend s
    let result := (lock.acquire.run backend s).1
    lock.ownKey.segments = lock.target.segments ++ [proposalsSegment, lock.token.text] ∧
    (∃ (saved : Result Unit) (later : List Exchange), made = ⟨lock.saveCall, saved⟩ :: later ∧
      (∀ e, saved = .error e → later = [] ∧ result = .error e) ∧
      (saved = .ok () → ∃ (listed : Result (List Key)) (loads : List (Key × Result Content))
          (withdrawal : Option (Result Unit)),
        later = ⟨lock.listCall, listed⟩ ::
          (loads.map loading ++ (withdrawal.map lock.withdrawing).toList) ∧
        loads.map Prod.fst <+: lock.keysToLoad listed ∧
        (withdrawal.isSome = true ↔ result ≠ .ok ()) ∧
        (result = .ok () → loads.map Prod.fst = lock.keysToLoad listed))) ∧
    (∃ outcome, lock.release.exchanges backend s = [lock.withdrawing outcome]) ∧
    ∀ exchange ∈ made ++ lock.release.exchanges backend s,
      ∀ k ∈ exchange.call.written, k = lock.ownKey := by
  intro made result
  have hattempt := lock.acquire.transcript_run backend s
  obtain ⟨outcome, hreleased⟩ :=
    exists_of_transcript_release (lock.release.transcript_run backend s)
  obtain ⟨saved, later, hmade, hunsaved, hsaved⟩ := exists_of_transcript_acquire hattempt
  refine ⟨Proposals.segments_key .., ⟨saved, later, hmade, hunsaved, fun hok => ?_⟩,
    ⟨outcome, hreleased⟩, fun exchange hmem k hk => ?_⟩
  · obtain ⟨listed, looked, rfl, loads, withdrawal, rfl, hlooks⟩ := hsaved hok
    exact ⟨listed, loads, withdrawal, rfl, hlooks⟩
  · rcases List.mem_append.mp hmem with hmem | hmem
    · exact eq_ownKey_of_written hattempt hmem hk
    · obtain rfl := List.mem_singleton.mp (hreleased ▸ hmem)
      exact List.mem_singleton.mp hk

end Lock

end ObjectStore

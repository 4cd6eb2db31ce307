import ObjectStore.Proofs.Crowd

/-! # Independence of targets

Locks on different targets do not interfere. Their proposals stand among all other entries, and
proposal roots may lie below one another; but a proposal is an immediate child of its own root, and
no two targets have the same root. So whatever happens in a crowd, all that does not concern a target
may be left out.

* **`Incident.concerns`** — the incidents that concern a target: what happens to its locks, the
  clock, and the calls of others that name one of its proposals.
* **`Crowd.Alike`** — two crowds in which everything about a target is the same.
* **`Crowd.alike_play`** — a run and what is left of it without the other incidents lead to such
  crowds.
* **`Crowd.play_without_others`** — the same from the start, as long as nobody moves an entry to a
  proposal from elsewhere; **`Crowd.brought_proposal_interferes`** is what happens otherwise. -/

namespace ObjectStore

open Lock (Stage Course)

/-- A call moves no entry to a proposal of a target from anywhere but a proposal of it. -/
def Call.BringsNothing (target : Key) : Call → Prop
  | .move source destination =>
    Proposals.IsProposal target destination → Proposals.IsProposal target source
  | _ => True

/-- Whether an incident concerns a target. -/
def Incident.concerns {ι : Type} (crowd : Crowd ι) (target : Key) : Incident ι → Bool
  | .call i _ => decide ((crowd i).target = target)
  | .reply i _ => decide ((crowd i).target = target)
  | .tick _ => true
  | .other c => c.keys.any fun k => decide (Proposals.IsProposal target k)

/-- Two worlds show the same time and have the same proposals of a target. -/
structure World.Alike (target : Key) (a b : World) : Prop where
  clock_eq : a.clock = b.clock
  agree : a.store.Agree (Proposals.IsProposal target) b.store

namespace Crowd

variable {ι : Type} {crowd : Crowd ι} {target : Key}

/-! ## Actions in two worlds -/

section Worlds

variable {a b : World}

/-- A stage's action on another target writes no proposal of this one. -/
theorem not_isProposal_of_mem_written {lock : Lock} {stage : Stage} (h : lock.target ≠ target)
    {k : Key} (hk : k ∈ (stage.action lock).written) : ¬ Proposals.IsProposal target k := by
  intro hparent
  rw [Stage.eq_key_of_mem_written hk, Proposals.IsProposal, Proposals.parent_key, Option.some_inj]
    at hparent
  exact h (Proposals.root_injective hparent)

/-- A call on proposals only, other than a listing, is answered alike. -/
theorem respond_call_alike (h : a.Alike target b) (draw : Token) (mishap : Option Mishap)
    {call : Call} (hlist : call.operation ≠ .list)
    (hkeys : ∀ k ∈ call.keys, Proposals.IsProposal target k) :
    (respond draw mishap (.call call) a).1 = (respond draw mishap (.call call) b).1 ∧
      World.Alike target (respond draw mishap (.call call) a).2
        (respond draw mishap (.call call) b).2 := by
  cases mishap with
  | some mishap => exact ⟨rfl, h⟩
  | none =>
    obtain ⟨hreply, hagree⟩ := h.agree.apply hlist hkeys
    exact ⟨hreply, h.clock_eq, hagree⟩

/-- The replies to a stage's action in two worlds lead to the same. -/
structure LeadAlike (lock : Lock) (stage : Stage) (r r' : (stage.action lock).Reply × World) :
    Prop where
  wrote_eq : Action.wrote _ r.1 = Action.wrote _ r'.1
  after_eq : stage.after lock r.1 = stage.after lock r'.1
  alike : World.Alike lock.target r.2 r'.2

theorem LeadAlike.of_reply_eq {lock : Lock} {stage : Stage}
    {r r' : (stage.action lock).Reply × World}
    (h : r.1 = r'.1 ∧ World.Alike lock.target r.2 r'.2) : LeadAlike lock stage r r' :=
  ⟨congrArg (Action.wrote _) h.1, congrArg (stage.after lock) h.1, h.2⟩

/-- **A stage's action leads to the same in worlds that are alike.** Listings may differ, but not in
the names of proposals. -/
theorem respond_alike {lock : Lock} {stage : Stage} (hnamed : stage.IsNamed)
    (h : a.Alike lock.target b) (draw : Token) (mishap : Option Mishap) :
    LeadAlike lock stage (respond draw mishap (stage.action lock) a)
      (respond draw mishap (stage.action lock) b) := by
  have hproposal : ∀ token : Token, ∀ k ∈ [Proposals.key lock.target token.text],
      Proposals.IsProposal lock.target k := by
    intro token k hk
    rw [List.mem_singleton.mp hk]
    exact Proposals.parent_key lock.target token
  cases stage with
  | write =>
    exact .of_reply_eq (respond_call_alike h draw mishap (by nofun) (hproposal lock.token))
  | read => exact .of_reply_eq ⟨h.clock_eq, h⟩
  | list now =>
    cases mishap with
    | some mishap => exact .of_reply_eq ⟨rfl, h⟩
    | none =>
      -- of what is listed, only the immediate children of the root matter
      exact ⟨rfl, congrArg (lock.lookAt now) (Proposals.registered_congr h.agree.find?_eq), h⟩
  | load now other more =>
    obtain ⟨token, rfl⟩ := hnamed other List.mem_cons_self
    exact .of_reply_eq (respond_call_alike h draw mishap (by nofun) (hproposal token))
  | withdraw failure =>
    exact .of_reply_eq (respond_call_alike h draw mishap (by nofun) (hproposal lock.token))
  | release =>
    exact .of_reply_eq (respond_call_alike h draw mishap (by nofun) (hproposal lock.token))

/-- What others do to proposals leads to the same, if they bring nothing. -/
theorem apply_alike (h : a.Alike target b) {call : Call} (hbrings : call.BringsNothing target)
    (hconcerns : ∃ k ∈ call.keys, Proposals.IsProposal target k) :
    World.Alike target { a with store := (a.store.apply call).2 }
      { b with store := (b.store.apply call).2 } := by
  have hown : call.operation ≠ .list → (∀ k ∈ call.keys, Proposals.IsProposal target k) →
      World.Alike target { a with store := (a.store.apply call).2 }
        { b with store := (b.store.apply call).2 } :=
    fun hlist hkeys => ⟨h.clock_eq, (h.agree.apply hlist hkeys).2⟩
  cases call with
  | save key content => exact hown (by nofun) (by simpa [Call.keys] using hconcerns)
  | delete key => exact hown (by nofun) (by simpa [Call.keys] using hconcerns)
  | move source destination =>
    -- a proposal is at one end of the move, so one is at its source
    have hsource : Proposals.IsProposal target source := by
      obtain ⟨k, hk, hproposal⟩ := hconcerns
      rcases List.mem_pair.mp hk with rfl | rfl
      · exact hproposal
      · exact hbrings hproposal
    exact ⟨h.clock_eq, (h.agree.move hsource).2⟩
  | load key => exact h
  | has key => exact h
  | list base => exact h
  | size key => exact h

end Worlds

/-! ## Incidents in two crowds -/

/-- Everything about a target is the same in two crowds. -/
structure Alike (crowd : Crowd ι) (target : Key) (s t : State ι) : Prop where
  world : s.world.Alike target t.world
  party_eq : ∀ i, (crowd i).target = target → s.party i = t.party i

variable [DecidableEq ι] {s t : State ι} {i : ι} {p : Party (Program (Result Unit))}

/-- A party on another target may change at will. -/
theorem Alike.update_of_ne (h : Alike crowd target s t) (hi : (crowd i).target ≠ target)
    {world : World} (hworld : world.Alike target t.world) (written : List (Key × Expiration)) :
    Alike crowd target ⟨world, Function.update s.party i p, written⟩ t where
  world := hworld
  party_eq j hj := by
    have hne : j ≠ i := by
      rintro rfl
      exact hi hj
    simpa only [Function.update_of_ne hne] using h.party_eq j hj

/-- A party may change in the same way in both. -/
theorem Alike.update (h : Alike crowd target s t) (i : ι) {a b : World} (hworld : a.Alike target b)
    (p : Party (Program (Result Unit))) (written written' : List (Key × Expiration)) :
    Alike crowd target ⟨a, Function.update s.party i p, written⟩
      ⟨b, Function.update t.party i p, written'⟩ where
  world := hworld
  party_eq j hj := by
    by_cases hji : j = i
    · simp only [hji, Function.update_self]
    · simpa only [Function.update_of_ne hji] using h.party_eq j hj

/-- **What does not concern the target changes nothing about it.** -/
theorem alike_step_left (hstaged : Staged crowd s) (h : Alike crowd target s t)
    {incident : Incident ι} (hignored : incident.concerns crowd target = false) :
    Alike crowd target (step crowd s incident) t := by
  cases incident with
  | call i operation =>
    have hi : (crowd i).target ≠ target := of_decide_eq_false hignored
    rcases step_call_cases crowd s i operation with hstep | ⟨p, -, hstep⟩
    · rwa [hstep]
    · rw [hstep]
      exact h.update_of_ne hi h.world _
  | reply i mishap =>
    have hi : (crowd i).target ≠ target := of_decide_eq_false hignored
    rcases step_reply_cases hstaged i mishap with hstep | ⟨stage, reply, world, p, -, ha, hstep⟩
    · rwa [hstep]
    · rw [hstep]
      refine h.update_of_ne hi ⟨ha.clock_eq.trans h.world.clock_eq, ?_⟩ _
      exact ha.agree (fun k hk => not_isProposal_of_mem_written hi hk) h.world.agree
  | tick now => cases hignored
  | other call =>
    have hkeys : ∀ k ∈ call.keys, ¬ Proposals.IsProposal target k := by
      simpa [Incident.concerns] using hignored
    refine ⟨⟨h.world.clock_eq, ?_⟩, h.party_eq⟩
    exact h.world.agree.apply_left fun k hk => hkeys k (Call.mem_keys_of_mem_written hk)

/-- The reply to a party on the target leads to the same in both. -/
theorem alike_step_reply (hstaged : Staged crowd s) (h : Alike crowd target s t)
    (hi : (crowd i).target = target) (mishap : Option Mishap) :
    Alike crowd target (step crowd s (.reply i mishap)) (step crowd t (.reply i mishap)) := by
  obtain ⟨q, hq⟩ := hstaged i
  have hq' : StandsAt (crowd i) (t.party i) q := h.party_eq i hi ▸ hq
  cases hactivity : q.activity with
  | idle => rwa [step_reply_of_idle (hq.idle hactivity), step_reply_of_idle (hq'.idle hactivity)]
  | busy operation wrote stage =>
    obtain ⟨p, hp, hstep⟩ := step_reply hq hactivity mishap rfl
    obtain ⟨p', hp', hstep'⟩ := step_reply hq' hactivity mishap rfl
    have hlead := respond_alike (hq.named hactivity) (hi ▸ h.world) (crowd i).token mishap
    -- the party goes on at the same stage in both, so it is the same
    have hpp : p = p' := by
      rw [hp.party_eq, hp'.party_eq, h.party_eq i hi, hlead.wrote_eq, hlead.after_eq]
    rw [hstep, hstep', hpp]
    exact h.update i (hi ▸ hlead.alike) p' _ _

/-- **What concerns the target leads to the same in both.** -/
theorem alike_step (hstaged : Staged crowd s) (h : Alike crowd target s t)
    {incident : Incident ι} (hconcerns : incident.concerns crowd target = true)
    (hbrings : ∀ call, incident = .other call → call.BringsNothing target) :
    Alike crowd target (step crowd s incident) (step crowd t incident) := by
  cases incident with
  | call i operation =>
    have hi : (crowd i).target = target := of_decide_eq_true hconcerns
    rw [step, step, ← h.party_eq i hi]
    split
    · exact h.update i h.world _ _ _
    · exact h
  | reply i mishap => exact alike_step_reply hstaged h (of_decide_eq_true hconcerns) mishap
  | tick now => exact ⟨⟨rfl, h.world.agree⟩, h.party_eq⟩
  | other call =>
    have hkeys : ∃ k ∈ call.keys, Proposals.IsProposal target k := by
      simpa [Incident.concerns] using hconcerns
    exact ⟨apply_alike h.world (hbrings call rfl) hkeys, h.party_eq⟩

/-- **Whatever does not concern the target may be left out.** -/
theorem alike_play (hstaged : Staged crowd s) (h : Alike crowd target s t)
    (incidents : List (Incident ι))
    (hbrings : ∀ call, .other call ∈ incidents → call.BringsNothing target) :
    Alike crowd target (play crowd s incidents)
      (play crowd t (incidents.filter (Incident.concerns crowd target))) := by
  induction incidents generalizing s t with
  | nil => exact h
  | cons incident more ih =>
    have hmore : ∀ call, .other call ∈ more → call.BringsNothing target :=
      fun call hcall => hbrings call (List.mem_cons_of_mem _ hcall)
    have hstaged' := staged_step hstaged incident
    cases hconcerns : incident.concerns crowd target with
    | false =>
      rw [List.filter_cons_of_neg (by simp [hconcerns])]
      exact ih hstaged' (alike_step_left hstaged h hconcerns) hmore
    | true =>
      rw [List.filter_cons_of_pos hconcerns]
      refine ih hstaged' (alike_step hstaged h hconcerns fun call hcall => ?_) hmore
      exact hbrings call (hcall ▸ List.mem_cons_self)

/-- **Locks on different targets do not interfere.** Take any run of a crowd on a store without limit
and leave out of it every step of a lock on another target and every call of somebody else that names
no proposal of the target. The parties with a lock on the target then do the same, with the same
results, and the proposals of the target are the same entries.

What others do elsewhere is arbitrary. A call of somebody else that does name a proposal stays, and if
it moves an entry there, it takes it from a proposal: what it found elsewhere might be owed to what is
left out (`brought_proposal_interferes`). -/
theorem play_without_others (crowd : Crowd ι) (target : Key) (world : World)
    (hlimit : world.store.limit = 0) (incidents : List (Incident ι))
    (hbrings : ∀ call, .other call ∈ incidents → call.BringsNothing target) :
    (∀ i, (crowd i).target = target →
      (play crowd (start world) incidents).party i =
        (play crowd (start world) (incidents.filter (Incident.concerns crowd target))).party i) ∧
    (∀ k, Proposals.IsProposal target k →
      (play crowd (start world) incidents).world.store.entries.find? k =
        (play crowd (start world)
          (incidents.filter (Incident.concerns crowd target))).world.store.entries.find? k) ∧
    (play crowd (start world) incidents).world.clock =
      (play crowd (start world) (incidents.filter (Incident.concerns crowd target))).world.clock := by
  have hstart : Alike crowd target (start world) (start world) :=
    ⟨⟨rfl, .refl hlimit⟩, fun _ _ => rfl⟩
  have halike := alike_play (staged_start crowd world) hstart incidents hbrings
  exact ⟨halike.party_eq, halike.world.agree.find?_eq, halike.world.clock_eq⟩

/-! ## Nested targets -/

/-- The target of two parties is `a`; that of the third is its proposal root, whose own proposal root
is the key of a proposal of `a`. -/
def nested : Crowd (Fin 3)
  | 0 => ⟨Key.ofString "a", ⟨"b", by decide, by decide⟩, .never⟩
  | 1 => ⟨Key.ofString "a", ⟨".lock-proposals", by decide, by decide⟩, .never⟩
  | 2 => ⟨Key.ofString "a/.lock-proposals", ⟨".lock-proposals", by decide, by decide⟩, .never⟩

/-- All three attempt to take their locks at once; somebody else writes the target meanwhile. -/
def nestedRun : List (Incident (Fin 3)) :=
  [.call 2 .acquire, .reply 2 none, .call 1 .acquire, .reply 1 none, .reply 2 none, .reply 2 none,
    .other (.save (Key.ofString "a") (.ofBytes [])), .call 0 .acquire, .reply 1 none, .reply 1 none,
    .reply 0 none, .reply 0 none, .reply 0 none, .reply 0 none, .reply 0 none]

/-- Without the third party and the write, the first one still finds the second's proposal and the
second one still gets the lock. -/
theorem play_without_others_nested : MemoryStore.unlimited.limit = 0 ∧
    (∀ call, .other call ∈ nestedRun → call.BringsNothing (Key.ofString "a")) ∧
    nestedRun.filter (Incident.concerns nested (Key.ofString "a")) =
      [.call 1 .acquire, .reply 1 none, .call 0 .acquire, .reply 1 none, .reply 1 none,
        .reply 0 none, .reply 0 none, .reply 0 none, .reply 0 none, .reply 0 none] ∧
    ((play nested (start ⟨.unlimited, .epoch⟩) nestedRun).party 0).history =
      ((play nested (start ⟨.unlimited, .epoch⟩)
        (nestedRun.filter (Incident.concerns nested (Key.ofString "a")))).party 0).history ∧
    ((play nested (start ⟨.unlimited, .epoch⟩) nestedRun).party 0).history.map Completed.result =
      [.error (.lockConflict (Key.ofString "a") none)] := by
  have hbrings : ∀ call, .other call ∈ nestedRun → call.BringsNothing (Key.ofString "a") := by
    intro call hcall
    obtain rfl : call = .save (Key.ofString "a") (.ofBytes []) := by simpa [nestedRun] using hcall
    trivial
  have hsame := (play_without_others nested (Key.ofString "a") ⟨.unlimited, .epoch⟩ rfl nestedRun
    hbrings).1 0 rfl
  exact ⟨rfl, hbrings, rfl, congrArg Party.history hsame, by decide +kernel⟩

/-! ## A proposal that is brought from elsewhere -/

/-- A single party. -/
def solitary : Crowd (Fin 1) := fun _ => ⟨Key.ofString "a", ⟨"b", by decide, by decide⟩, .never⟩

/-- Somebody else writes an entry away from all proposals and moves it to where a proposal of `a`
stands. Then the party attempts to take its lock. -/
def broughtRun : List (Incident (Fin 1)) :=
  [.other (.save (Key.ofString "d") (.ofBytes [])),
    .other (.move (Key.ofString "d") (Key.ofString "a/.lock-proposals/x")),
    .call 0 .acquire, .reply 0 none, .reply 0 none, .reply 0 none, .reply 0 none, .reply 0 none]

/-- **What others do elsewhere may not be left out if they move it to a proposal later.** The write
names no proposal, so it is left out; the move names one, so it stays, but finds nothing without the
write. So the attempt meets a proposal in the whole run, and none in what is left of it: it fails and
leaves nothing behind in the one, and succeeds and leaves its proposal in the other. -/
theorem brought_proposal_interferes :
    let whole := play solitary (start ⟨.unlimited, .epoch⟩) broughtRun
    let rest := play solitary (start ⟨.unlimited, .epoch⟩)
      (broughtRun.filter (Incident.concerns solitary (Key.ofString "a")))
    broughtRun.filter (Incident.concerns solitary (Key.ofString "a")) = broughtRun.tail ∧
      (whole.party 0).history.map Completed.result =
        [.error (.lockConflict (Key.ofString "a") none)] ∧
      (rest.party 0).history.map Completed.result = [.ok ()] ∧
      whole.world.store.entries.keys = [Key.ofString "a/.lock-proposals/x"] ∧
      rest.world.store.entries.keys = [Key.ofString "a/.lock-proposals/b"] := by
  refine ⟨rfl, ?_, ?_, ?_, ?_⟩ <;> decide +kernel

end Crowd

end ObjectStore

import ObjectStore.Proofs.Contest
import ObjectStore.Proofs.Registry

/-! # Crowds

Any number of parties at work on one store, each with a lock of any token on any target. What happens
is a list of incidents in any order, and each of them has one effect only, so that runs can be
compared incident by incident. Parties may share a target or a token, calls may go wrong, and a party
that gets no further reply has stopped for ever.

* **`Incident`** — what can happen next.
* **`Crowd.play`** — the state that a list of incidents leads to.
* **`Crowd.Staged`** — every party stands at a stage of its operation; so it does in every state
  (`staged_play`).
* **`Crowd.step_reply`** — what the reply to a party's next action leads to.
* **`Crowd.exists_play`**, **`Crowd.reachable_play`** — contests are crowds with one target and
  different tokens. -/

namespace ObjectStore

open Lock (Stage Course)

/-- What can happen next. -/
inductive Incident (ι : Type) where
  /-- A party calls an operation; a busy one cannot. -/
  | call (i : ι) (operation : LockOperation)
  /-- A party gets the reply to its next action. With a mishap a call goes wrong. -/
  | reply (i : ι) (mishap : Option Mishap)
  /-- The clock comes to show a time. -/
  | tick (now : Instant)
  /-- Somebody else uses the store. -/
  | other (call : Call)

/-- Whether an incident is that a party does what it is to do next, and no call goes wrong. -/
def Incident.isPlain {ι : Type} : Incident ι → Bool
  | .call _ _ => true
  | .reply _ none => true
  | _ => false

/-- Any call may go wrong in any way. -/
def Weather.wild : Weather := fun _ _ _ => True

/-- Parties with their locks. -/
abbrev Crowd (ι : Type) : Type := ι → Lock

/-- The proposal that a lock writes: its key and its expiration. -/
def Lock.proposal (lock : Lock) : Key × Expiration :=
  (Proposals.key lock.target lock.token.text, lock.expiration)

namespace Lock.Stage

/-- Whether all names that are left to look at are those of tokens. -/
def IsNamed : Stage → Prop
  | .load _ other more => ∀ name ∈ other :: more, ∃ token : Token, name = token.text
  | _ => True

/-- The same of a course. -/
def IsNamedCourse : Course → Prop
  | .stands stage => stage.IsNamed
  | .ended _ => True

theorem isNamed_lookAt (lock : Lock) (now : Instant) {names : List String}
    (h : ∀ name ∈ names, ∃ token : Token, name = token.text) :
    IsNamedCourse (lock.lookAt now names) := by
  induction names with
  | nil => trivial
  | cons other more ih =>
    rw [lookAt]
    split
    · exact ih fun name hname => h name (List.mem_cons_of_mem _ hname)
    · exact h

/-- The children of a proposal root are named by tokens, so every name that is looked at is one. -/
theorem isNamed_after (lock : Lock) {stage : Stage} (h : stage.IsNamed)
    (reply : (stage.action lock).Reply) : IsNamedCourse (stage.after lock reply) := by
  cases stage with
  | write =>
    change Result Unit at reply
    cases reply <;> trivial
  | read => trivial
  | list now =>
    change Result (List Key) at reply
    cases reply with
    | error e => trivial
    | ok keys =>
      refine isNamed_lookAt lock now fun name hname => ?_
      obtain ⟨k, -, hparent, hk⟩ := Proposals.mem_childNames_iff.mp hname
      obtain ⟨token, rfl⟩ := Proposals.exists_token hparent
      rw [Proposals.name_key, Option.some_inj] at hk
      exact ⟨token, hk.symm⟩
  | load now other more =>
    rcases after_load_cases lock now other more reply with ⟨e, hafter⟩ | hafter
    · rw [hafter]
      trivial
    · rw [hafter]
      exact isNamed_lookAt lock now fun name hname => h name (List.mem_cons_of_mem _ hname)
  | withdraw failure =>
    simp only [after]
    cases Proposals.withdrawn reply <;> trivial
  | release => trivial

end Lock.Stage

namespace Crowd

variable {ι : Type}

/-- A crowd at some time. -/
structure State (ι : Type) where
  world : World
  party : ι → Party (Program (Result Unit))
  /-- The proposals that parties have written so far, the latest first. -/
  written : List (Key × Expiration)

/-- A crowd where no party has done anything yet. -/
def start (world : World) : State ι := ⟨world, fun _ => Party.newcomer, []⟩

/-- The reply to an action, where a mishap keeps a call from the store. -/
def respond (draw : Token) (mishap : Option Mishap) : Program.Handler World
  | .call c, world =>
    match mishap with
    | none => World.serve draw (.call c) world
    | some mishap => (mishap.reply c, world)
  | action, world => World.serve draw action world

variable [DecidableEq ι]

/-- What an incident leads to. One that does not apply changes nothing. -/
def step (crowd : Crowd ι) (s : State ι) : Incident ι → State ι
  | .call i operation =>
    match (s.party i).activity with
    | .idle =>
      ⟨s.world, Function.update s.party i
        (.goOn (s.party i).history operation false (operation.program (crowd i))), s.written⟩
    | .busy _ _ _ => s
  | .reply i mishap =>
    match (s.party i).activity with
    | .busy operation wrote (.step action next) =>
      let (reply, world) := respond (crowd i).token mishap action s.world
      ⟨world, Function.update s.party i
        (.goOn (s.party i).history operation (wrote || action.wrote reply) (next reply)),
        if action.wrote reply then (crowd i).proposal :: s.written else s.written⟩
    | _ => s
  | .tick now => { s with world := { s.world with clock := now } }
  | .other call => { s with world := { s.world with store := (s.world.store.apply call).2 } }

/-- What a list of incidents leads to. -/
def play (crowd : Crowd ι) (s : State ι) (incidents : List (Incident ι)) : State ι :=
  incidents.foldl (step crowd) s

variable {crowd : Crowd ι} {s : State ι}

@[simp] theorem play_nil (crowd : Crowd ι) (s : State ι) : play crowd s [] = s := rfl

@[simp] theorem play_cons (crowd : Crowd ι) (s : State ι) (incident : Incident ι)
    (more : List (Incident ι)) :
    play crowd s (incident :: more) = play crowd (step crowd s incident) more := rfl

theorem play_append (crowd : Crowd ι) (s : State ι) (before after : List (Incident ι)) :
    play crowd s (before ++ after) = play crowd (play crowd s before) after :=
  List.foldl_append

/-! ## Stages -/

/-- A party stands at a stage, where all names left to look at are those of tokens. -/
structure StandsAt (lock : Lock) (p : Party (Program (Result Unit))) (q : Party Stage) : Prop where
  party_eq : p = q.map fun stage => stage.program lock
  named : ∀ {operation wrote stage}, q.activity = .busy operation wrote stage → stage.IsNamed

variable {lock : Lock} {p : Party (Program (Result Unit))} {q : Party Stage}

omit [DecidableEq ι] in
theorem standsAt_newcomer (lock : Lock) : StandsAt lock Party.newcomer Party.newcomer where
  party_eq := rfl
  named h := by cases h

omit [DecidableEq ι] in
theorem StandsAt.idle (h : StandsAt lock p q) (hidle : q.activity = .idle) :
    p.activity = .idle := by
  simp only [h.party_eq, Party.map, hidle]

omit [DecidableEq ι] in
/-- What a party at a stage does next is the stage's action, and it goes on as the stage does. -/
theorem StandsAt.busy (h : StandsAt lock p q) {operation : LockOperation} {wrote : Bool}
    {stage : Stage} (hbusy : q.activity = .busy operation wrote stage) :
    ∃ next, p.activity = .busy operation wrote (.step (stage.action lock) next) ∧
      ∀ reply, (next reply).quieted = (stage.after lock reply).program lock := by
  obtain ⟨next, hprogram, hnext⟩ := stage.program_step lock
  refine ⟨next, ?_, fun reply => congrArg Prod.snd (hnext reply)⟩
  simp only [h.party_eq, Party.map, hbusy, hprogram]

/-- A party that follows a course stands where it leads. -/
theorem standsAt_follow {history : List Completed} {operation : LockOperation} {wrote : Bool}
    {rest : Program (Result Unit)} {course : Course} (h : rest.quieted = course.program lock)
    (hnamed : Stage.IsNamedCourse course) :
    StandsAt lock (.goOn history operation wrote rest) (.follow history operation wrote course) where
  party_eq := Party.goOn_eq_map_follow h history operation wrote
  named hbusy := by
    cases course with
    | stands stage => cases hbusy; exact hnamed
    | ended result => cases hbusy

/-- Every party stands at a stage of its operation. -/
def Staged (crowd : Crowd ι) (s : State ι) : Prop := ∀ i, ∃ q, StandsAt (crowd i) (s.party i) q

/-- A party that begins an operation stands at the first stage of it. -/
theorem standsAt_call (lock : Lock) (history : List Completed) (operation : LockOperation) :
    StandsAt lock (.goOn history operation false (operation.program lock))
      (.follow history operation false (.stands (Contest.first operation))) := by
  -- both operations begin with a call, so there is nothing to tell before it
  cases operation <;> exact standsAt_follow rfl trivial

/-- A busy party goes on with the reply to its next action. -/
theorem step_reply_of_busy {i : ι} {operation : LockOperation} {wrote : Bool} {action : Action}
    {next : action.Reply → Program (Result Unit)}
    (h : (s.party i).activity = .busy operation wrote (.step action next))
    (mishap : Option Mishap) : step crowd s (.reply i mishap) =
      ⟨(respond (crowd i).token mishap action s.world).2, Function.update s.party i
        (.goOn (s.party i).history operation
          (wrote || action.wrote (respond (crowd i).token mishap action s.world).1)
          (next (respond (crowd i).token mishap action s.world).1)),
        if action.wrote (respond (crowd i).token mishap action s.world).1 then
          (crowd i).proposal :: s.written else s.written⟩ := by
  rw [step, h]

/-- **What a reply leads to.** The action is that of the party's stage, and the party goes on where
the reply leads. -/
theorem step_reply {i : ι} {operation : LockOperation} {wrote : Bool} {stage : Stage}
    (h : StandsAt (crowd i) (s.party i) q) (hbusy : q.activity = .busy operation wrote stage)
    (mishap : Option Mishap) {r : (stage.action (crowd i)).Reply × World}
    (hr : respond (crowd i).token mishap (stage.action (crowd i)) s.world = r) :
    ∃ p, StandsAt (crowd i) p (.follow (s.party i).history operation
        (wrote || Action.wrote _ r.1) (stage.after (crowd i) r.1)) ∧
      step crowd s (.reply i mishap) = ⟨r.2, Function.update s.party i p,
        if Action.wrote _ r.1 then (crowd i).proposal :: s.written else s.written⟩ := by
  obtain ⟨next, hactivity, hnext⟩ := h.busy hbusy
  refine ⟨_, standsAt_follow (hnext r.1) (Stage.isNamed_after (crowd i) (h.named hbusy) r.1), ?_⟩
  rw [step_reply_of_busy hactivity, hr]

/-- A reply to a party that waits for none leads nowhere. -/
theorem step_reply_of_idle {i : ι} (h : (s.party i).activity = .idle) (mishap : Option Mishap) :
    step crowd s (.reply i mishap) = s := by
  rw [step, h]

/-! ## One incident -/

omit [DecidableEq ι] in
/-- What a stage's action is answered with is one of its answers in wild weather. -/
theorem answered_respond (stage : Stage) (lock : Lock) (draw : Token) (mishap : Option Mishap)
    (world : World) : Answered .wild draw world (stage.action lock)
      (respond draw mishap (stage.action lock) world).1
      (respond draw mishap (stage.action lock) world).2 := by
  have hcall : ∀ c : Call, Answered .wild draw world (.call c)
      (respond draw mishap (.call c) world).1 (respond draw mishap (.call c) world).2 := by
    intro c
    cases mishap with
    | none => exact .served c
    | some mishap => exact .failed c mishap trivial
  cases stage with
  | read => exact .clock
  | write => exact hcall _
  | list now => exact hcall _
  | load now other more => exact hcall _
  | withdraw failure => exact hcall _
  | release => exact hcall _

/-- A reply leads nowhere, or it is the reply to the action of a stage. -/
theorem step_reply_cases (h : Staged crowd s) (i : ι) (mishap : Option Mishap) :
    step crowd s (.reply i mishap) = s ∨
      ∃ (stage : Stage) (reply : (stage.action (crowd i)).Reply) (world : World)
        (p : Party (Program (Result Unit))),
        (∃ q, StandsAt (crowd i) p q) ∧
        Answered .wild (crowd i).token s.world (stage.action (crowd i)) reply world ∧
        step crowd s (.reply i mishap) = ⟨world, Function.update s.party i p,
          if Action.wrote _ reply then (crowd i).proposal :: s.written else s.written⟩ := by
  obtain ⟨q, hq⟩ := h i
  cases hactivity : q.activity with
  | idle => exact .inl (step_reply_of_idle (hq.idle hactivity) mishap)
  | busy operation wrote stage =>
    obtain ⟨p, hp, hstep⟩ := step_reply hq hactivity mishap rfl
    exact .inr ⟨stage, _, _, p, ⟨_, hp⟩, answered_respond .., hstep⟩

/-- An idle party that calls an operation stands at the first stage of it. -/
theorem step_call (crowd : Crowd ι) {i : ι} (h : (s.party i).activity = .idle)
    (operation : LockOperation) :
    ∃ p, StandsAt (crowd i) p
        (.follow (s.party i).history operation false (.stands (Contest.first operation))) ∧
      step crowd s (.call i operation) = ⟨s.world, Function.update s.party i p, s.written⟩ := by
  refine ⟨_, standsAt_call (crowd i) _ operation, ?_⟩
  rw [step, h]

/-- A call leads nowhere, or the party stands at a stage. -/
theorem step_call_cases (crowd : Crowd ι) (s : State ι) (i : ι) (operation : LockOperation) :
    step crowd s (.call i operation) = s ∨
      ∃ p, (∃ q, StandsAt (crowd i) p q) ∧
        step crowd s (.call i operation) = ⟨s.world, Function.update s.party i p, s.written⟩ := by
  cases hactivity : (s.party i).activity with
  | idle =>
    obtain ⟨p, hp, hstep⟩ := step_call crowd hactivity operation
    exact .inr ⟨p, ⟨_, hp⟩, hstep⟩
  | busy _ _ _ =>
    refine .inl ?_
    rw [step, hactivity]

theorem Staged.update (h : Staged crowd s) {i : ι} {p : Party (Program (Result Unit))}
    (hp : ∃ q, StandsAt (crowd i) p q) (world : World) (written : List (Key × Expiration)) :
    Staged crowd ⟨world, Function.update s.party i p, written⟩ := by
  intro j
  by_cases hj : j = i
  · subst hj
    simpa only [Function.update_self] using hp
  · simpa only [Function.update_of_ne hj] using h j

/-- Every incident leaves every party at a stage. -/
theorem staged_step (h : Staged crowd s) (incident : Incident ι) :
    Staged crowd (step crowd s incident) := by
  cases incident with
  | call i operation =>
    rcases step_call_cases crowd s i operation with hstep | ⟨p, hp, hstep⟩
    · rwa [hstep]
    · rw [hstep]
      exact h.update hp _ _
  | reply i mishap =>
    rcases step_reply_cases h i mishap with hstep | ⟨stage, reply, world, p, hp, -, hstep⟩
    · rwa [hstep]
    · rw [hstep]
      exact h.update hp _ _
  | tick now => exact h
  | other call => exact h

omit [DecidableEq ι] in
theorem staged_start (crowd : Crowd ι) (world : World) : Staged crowd (start world) :=
  fun i => ⟨_, standsAt_newcomer (crowd i)⟩

/-- **Every party always stands at a stage of its operation.** -/
theorem staged_play (h : Staged crowd s) (incidents : List (Incident ι)) :
    Staged crowd (play crowd s incidents) := by
  induction incidents generalizing s with
  | nil => exact h
  | cons incident more ih => exact ih (staged_step h incident)

/-! ## Contests are crowds -/

/-- Every step of a contest is an incident in the crowd of its parties. -/
theorem exists_step {contest : Contest ι} {weather : Weather}
    {s t : Contest.State ι (Program (Result Unit))} (h : contest.Step weather s t)
    (written : List (Key × Expiration)) : ∃ incident written',
      step contest.lock ⟨s.world, s.party, written⟩ incident = ⟨t.world, t.party, written'⟩ := by
  cases h with
  | call i operation hidle =>
    refine ⟨.call i operation, written, ?_⟩
    rw [step, hidle]
  | @act i operation wrote action next reply world hbusy ha =>
    cases ha with
    | served call => exact ⟨.reply i none, _, by rw [step, hbusy]; rfl⟩
    | failed call mishap hm => exact ⟨.reply i (some mishap), _, by rw [step, hbusy]; rfl⟩
    | clock => exact ⟨.reply i none, _, by rw [step, hbusy]; rfl⟩
    | drawn => exact ⟨.reply i none, _, by rw [step, hbusy]; rfl⟩
  | tick later hlater => exact ⟨.tick later, written, rfl⟩
  | other call hcall => exact ⟨.other call, written, rfl⟩

/-- **Every run of a contest is a run of the crowd of its parties.** -/
theorem exists_play {contest : Contest ι} {weather : Weather} {world : World}
    {t : Contest.State ι (Program (Result Unit))} (h : contest.Reachable weather world t) :
    ∃ incidents written,
      play contest.lock (start world) incidents = ⟨t.world, t.party, written⟩ := by
  induction h with
  | refl => exact ⟨[], [], rfl⟩
  | tail _ hstep ih =>
    obtain ⟨incidents, written, hplay⟩ := ih
    obtain ⟨incident, written', hlast⟩ := exists_step hstep written
    refine ⟨incidents ++ [incident], written', ?_⟩
    rw [play_append, hplay]
    exact hlast

/-- A plain incident in the crowd of its parties takes a contest one step further, or leaves it as it
is. -/
theorem reachable_step {contest : Contest ι} {weather : Weather} {world : World}
    (hstaged : Staged contest.lock s) (h : contest.Reachable weather world ⟨s.world, s.party⟩)
    {incident : Incident ι} (hplain : incident.isPlain = true) :
    contest.Reachable weather world
      ⟨(step contest.lock s incident).world, (step contest.lock s incident).party⟩ := by
  cases incident with
  | call i operation =>
    rw [step]
    cases hactivity : (s.party i).activity with
    | idle => exact h.tail (.call i operation hactivity)
    | busy _ _ _ => exact h
  | reply i mishap =>
    cases mishap with
    | some mishap => cases hplain
    | none =>
      obtain ⟨q, hq⟩ := hstaged i
      cases hactivity : q.activity with
      | idle => rwa [step_reply_of_idle (hq.idle hactivity)]
      | busy operation wrote stage =>
        obtain ⟨next, hbusy, -⟩ := hq.busy hactivity
        have hserved : Answered weather (contest.token i) s.world (stage.action (contest.lock i))
            (respond (contest.token i) none (stage.action (contest.lock i)) s.world).1
            (respond (contest.token i) none (stage.action (contest.lock i)) s.world).2 := by
          cases stage <;> exact .serve weather _ _ rfl
        rw [step_reply_of_busy hbusy]
        exact h.tail (.act hbusy hserved)
  | tick now => cases hplain
  | other call => cases hplain

/-- **Any plain run of the crowd of its parties is a run of a contest**, whatever the weather. -/
theorem reachable_play {contest : Contest ι} {weather : Weather} {world : World}
    (hstaged : Staged contest.lock s) (h : contest.Reachable weather world ⟨s.world, s.party⟩)
    {incidents : List (Incident ι)} (hplain : ∀ incident ∈ incidents, incident.isPlain = true) :
    contest.Reachable weather world
      ⟨(play contest.lock s incidents).world, (play contest.lock s incidents).party⟩ := by
  induction incidents generalizing s with
  | nil => exact h
  | cons incident more ih =>
    obtain ⟨hfirst, hmore⟩ := List.forall_mem_cons.mp hplain
    exact ih (staged_step hstaged incident) (reachable_step hstaged h hfirst) hmore

end Crowd

end ObjectStore

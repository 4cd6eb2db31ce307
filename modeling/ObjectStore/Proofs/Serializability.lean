import ObjectStore.Proofs.Accounts
import ObjectStore.Proofs.Exclusion

/-! # Exclusive sections are serializable

No two parties of a site are in their sections together, so each section works on the data that the
last one has left.

* **`Site.Tracked`** — a state seen as a state of a contest and as a serial run; every step keeps it
  so (`Tracked.step`).
* **`Site.serializable`** — every run of all parties together is a serial run of the bodies.
* **`Site.find?_of_appending`** — no update made in a section is lost. -/

namespace ObjectStore

open Lock (Stage Course)

namespace Site

variable {ι α : Type} {site : Site ι α} {world world' start : World} {order : List ι} {i j : ι}

/-! ## States and steps -/

/-- A state of all parties together, seen as a state of a contest and as a serial run. -/
structure Tracked [DecidableEq ι] (site : Site ι α) (start : World) (c : Contest.State ι Stage)
    (occupant : Option (ι × Program (Result α))) (s : State ι α) : Prop where
  reach : site.contest.StageReachable Weather.fair start c
  world : c.world = s.world
  nodup : (acquirers s.log).Nodup
  account : Account site start (acquirers s.log) (site.sectionLog s.log) s.world.store occupant
  progress : ∀ i, Progress site start (acquirers s.log) i (c.party i) (s.rest i)
    (residual occupant i)

variable [DecidableEq ι] {c : Contest.State ι Stage} {occupant : Option (ι × Program (Result α))}
  {s : State ι α}

/-- **One party goes on.** It is enough to say what it adds to the log of the sections and who is in
a section then: no other party makes any progress. -/
theorem Tracked.advance (h : Tracked site start c occupant s) (added : List Event) (new : List ι)
    {event : Event} {t rest : Program (Result α)} {told : List Event} {world' : World}
    {p : Party Stage} {occupant' : Option (ι × Program (Result α))}
    (ht : t.hushed = (told, rest))
    (hadded : (if site.concerns event then [event] else []) ++ told = added)
    (hnew : acquirers (added.map (Prod.mk i)) = new)
    (hfresh : new = [] ∨ new = [i] ∧ i ∉ acquirers s.log)
    (hreach : Relation.ReflTransGen (site.contest.StageStep Weather.fair) c
      ⟨world', Function.update c.party i p⟩)
    (hothers : ∀ j ≠ i, residual occupant' j = residual occupant j)
    (haccount : Account site start (acquirers s.log ++ new)
      (site.sectionLog s.log ++ added.map (Prod.mk i)) world'.store occupant')
    (hprogress : Progress site start (acquirers s.log ++ new) i p rest (residual occupant' i)) :
    Tracked site start ⟨world', Function.update c.party i p⟩ occupant'
      (s.advance i event t world') := by
  -- the lock is taken by whoever says so in the log of the sections
  have hlog : site.sectionLog (s.advance i event t world').log =
      site.sectionLog s.log ++ added.map (Prod.mk i) := by
    rw [State.advance, sectionLog_step s.log i event ht, hadded]
  have horder : acquirers (s.advance i event t world').log = acquirers s.log ++ new := by
    rw [← acquirers_sectionLog site, hlog, acquirers_append, hnew, acquirers_sectionLog]
  constructor
  · exact h.reach.trans hreach
  · rfl
  · rw [horder]
    rcases hfresh with rfl | ⟨rfl, hi⟩
    · rw [List.append_nil]
      exact h.nodup
    · refine List.nodup_append.mpr ⟨h.nodup, by simp, ?_⟩
      rintro j hj k hk rfl
      exact hi (List.mem_singleton.mp hk ▸ hj)
  · rw [horder, hlog]
    exact haccount
  · intro j
    rw [horder]
    show Progress _ _ _ _ (Function.update c.party i p j) (Function.update s.rest i t.quieted j) _
    by_cases hji : j = i
    · subst hji
      have hrest : t.quieted = rest := congrArg Prod.snd ht
      rw [Function.update_self, Function.update_self, hrest]
      exact hprogress
    · rw [Function.update_of_ne hji, Function.update_of_ne hji, hothers j hji]
      exact (h.progress j).append (hfresh.imp_right And.left) hji

/-! ## Outside -/

/-- A party that is in no section goes on without being in one. -/
theorem Tracked.outside (h : Tracked site start c occupant s) {event : Event}
    (hevent : site.concerns event = false) {t rest : Program (Result α)}
    (ht : t.hushed = ([], rest)) {p : Party Stage}
    (hreach : Relation.ReflTransGen (site.contest.StageStep Weather.fair) c
      ⟨world', Function.update c.party i p⟩)
    (haccount : Account site start (acquirers s.log) (site.sectionLog s.log) world'.store occupant)
    (hresidual : residual occupant i = none)
    (hprogress : Progress site start (acquirers s.log) i p rest none) :
    Tracked site start ⟨world', Function.update c.party i p⟩ occupant
      (s.advance i event t world') := by
  refine h.advance [] [] ht ?_ rfl (.inl rfl) hreach (fun _ _ => rfl) ?_ ?_
  · rw [hevent]
    rfl
  · rw [List.append_nil, List.map_nil, List.append_nil]
    exact haccount
  · rw [List.append_nil, hresidual]
    exact hprogress

/-- A party that draws its token begins an attempt. -/
theorem Tracked.draw (h : Tracked site start c occupant s) (hparty : c.party i = .newcomer)
    (hfresh : i ∉ acquirers s.log) (hresidual : residual occupant i = none) {event : Event}
    (hevent : site.concerns event = false) :
    ∃ c', Tracked site start c' occupant
      (s.advance i event ((site.lock i).acquire >>= site.enter i) s.world) := by
  have hidle : (c.party i).activity = .idle := by
    rw [hparty]
    rfl
  have hcall : site.contest.StageStep Weather.fair c ⟨c.world, Function.update c.party i
      (.follow (c.party i).history .acquire false (.stands .write))⟩ := .call i .acquire hidle
  rw [h.world, hparty] at hcall
  have hprogress : Progress site start (acquirers s.log) i ⟨.busy .acquire false .write, []⟩
      (Stage.write.program (site.lock i) >>= site.enter i) none := .attempting hfresh trivial
  exact ⟨_, h.outside hevent (Stage.write.hushed_program_bind (site.lock i) (site.enter i))
    (.single hcall) h.account hresidual hprogress⟩

/-! ## Entering -/

/-- Once the lock is taken, the party is in its section; if there is nothing to do there, it calls
for a release at once. -/
theorem reaches_partyInside {weather : Weather} (world : World) (party : ι → Party Stage)
    (wrote : Bool) (t : Program (Result α)) :
    Relation.ReflTransGen (site.contest.StageStep weather)
      ⟨world, Function.update party i ⟨.idle, [⟨.acquire, wrote, .ok ()⟩]⟩⟩
      ⟨world, Function.update party i (partyInside wrote t)⟩ := by
  cases t with
  | step action next => exact .refl
  | done result =>
    have hself : Function.update party i ⟨.idle, [⟨.acquire, wrote, .ok ()⟩]⟩ i =
        ⟨.idle, [⟨.acquire, wrote, .ok ()⟩]⟩ := Function.update_self ..
    have hcall : site.contest.StageStep weather
        ⟨world, Function.update party i ⟨.idle, [⟨.acquire, wrote, .ok ()⟩]⟩⟩ _ :=
      .call i .release (congrArg Party.activity hself)
    simp only [Function.update_idem, hself] at hcall
    exact .single hcall

omit [DecidableEq ι] in
/-- Whoever is in its section has passed over everybody. -/
theorem passedOver_of_inside (hc : site.contest.Invariant c) {wrote : Bool}
    {t : Program (Result α)} (hi : c.party i = partyInside wrote t) (name : String) :
    (c.party i).PassedOver name := by
  have hwrote : wrote = true := by
    refine (hc.coherent i).wrote ⟨.acquire, wrote, .ok ()⟩ ?_ rfl rfl
    rw [hi]
    cases t <;> exact List.mem_cons_self
  rw [hi, hwrote]
  cases t <;> rfl

omit [DecidableEq ι] in
/-- No two parties are in their sections together. -/
theorem eq_of_inside (hc : site.contest.Invariant c) {wrote wrote' : Bool}
    {t t' : Program (Result α)} (hi : c.party i = partyInside wrote t)
    (hj : c.party j = partyInside wrote' t') : i = j := by
  by_contra hij
  exact hc.apart i j hij (passedOver_of_inside hc hi _) (passedOver_of_inside hc hj _) ⟨rfl, rfl⟩

omit [DecidableEq ι] in
theorem hushed_leave (i : ι) (result : Result α) :
    (site.leave i result).hushed = ([], site.leave i result) :=
  Stage.release.hushed_program_bind (site.lock i) (site.finish result)

/-- A party that has taken the lock is the only one in its section, and begins its body. -/
theorem Tracked.enter (h : Tracked site start c occupant s) (hfresh : i ∉ acquirers s.log)
    {wrote : Bool} (hreach : Relation.ReflTransGen (site.contest.StageStep Weather.fair) c
      ⟨world', Function.update c.party i ⟨.idle, [⟨.acquire, wrote, .ok ()⟩]⟩⟩)
    (hstore : ∀ {b}, s.world.store.Agree (site.data · = true) b →
      world'.store.Agree (site.data · = true) b) {event : Event}
    (hevent : site.concerns event = false) {t : Program (Result α)}
    (ht : t.hushed = ([(site.lock i).acquired], site.enter i (.ok ()))) :
    ∃ c' occupant', Tracked site start c' occupant' (s.advance i event t world') := by
  have hinside := hreach.trans (reaches_partyInside world' c.party wrote (site.body i))
  -- the run so far is a run in rough weather as well, where the invariant holds
  have hreachable : site.contest.StageReachable Weather.rough start _ :=
    Contest.StageReachable.mono (Weather.fair_milder _) (h.reach.trans hinside)
  have hself : Function.update c.party i (partyInside wrote (site.body i)) i =
      partyInside wrote (site.body i) := Function.update_self ..
  have hprogress : Progress site start (acquirers s.log ++ [i]) i
      (partyInside wrote (site.body i)) (site.body i >>= site.leave i) (some (site.body i)) :=
    .inside (List.mem_append_right _ List.mem_cons_self) (site.body_within i)
  cases occupant with
  | none =>
    refine ⟨_, some (i, site.body i), h.advance [(site.lock i).acquired] [i] ht ?_ rfl
      (.inr ⟨rfl, hfresh⟩) hinside ?_ ((h.account.enter i).of_agree hstore) ?_⟩
    · rw [hevent]
      rfl
    · exact fun j hji => residual_of_ne hji _
    · rw [residual_self]
      exact hprogress
  | some occupant =>
    obtain ⟨j, t⟩ := occupant
    have hother := h.progress j
    rw [residual_self] at hother
    obtain ⟨hmem, wrote', hparty⟩ := hother.of_some
    have hji : j ≠ i := fun hji => hfresh (hji ▸ hmem)
    -- the other party would be in its section together with this one
    have hstill : Function.update c.party i (partyInside wrote (site.body i)) j =
        partyInside wrote' t := (Function.update_of_ne hji ..).trans hparty
    exact absurd (eq_of_inside hreachable.invariant hstill hself) hji

/-- A party that tries to take the lock goes on trying, gives up, or begins its body. -/
theorem Tracked.attempt (h : Tracked site start c occupant s) {wrote : Bool} {stage : Stage}
    (hparty : c.party i = ⟨.busy .acquire wrote stage, []⟩) (hfresh : i ∉ acquirers s.log)
    (hresidual : residual occupant i = none) (hstage : stage.IsFair (site.lock i))
    {reply : (stage.action (site.lock i)).Reply}
    (ha : Answered Weather.fair (site.token i) s.world (stage.action (site.lock i)) reply world')
    {rest : Program (Result Unit)}
    (hrest : rest.hushed = (stage.grants (site.lock i) (stage.after (site.lock i) reply),
      (stage.after (site.lock i) reply).program (site.lock i))) :
    ∃ c' occupant', Tracked site start c' occupant'
      (s.advance i ⟨stage.action (site.lock i), reply⟩ (rest >>= site.enter i) world') := by
  have hevent := concerns_action stage i reply
  have hcourse : Stage.IsFairCourse (site.lock i) (stage.after (site.lock i) reply) :=
    Stage.isFair_after (site.lock i) hstage h.account.limit ha
  have hgrants : stage.grants (site.lock i) (stage.after (site.lock i) reply) =
      (stage.after (site.lock i) reply).grants (site.lock i) := by
    cases stage with
    | release => exact hstage.elim
    | _ => rfl
  have haccount := h.account.of_agree fun {b} hb => agree_action ha hb
  have hbusy : (c.party i).activity = .busy .acquire wrote stage := by rw [hparty]
  have hact : site.contest.StageStep Weather.fair c ⟨world', Function.update c.party i
      (.follow (c.party i).history .acquire (wrote || Action.wrote _ reply)
        (stage.after (site.lock i) reply))⟩ := .act hbusy (h.world ▸ ha)
  rw [hparty] at hact
  rw [hgrants] at hrest
  -- from here on only the course matters, not the reply that has led to it
  generalize stage.after (site.lock i) reply = course at hcourse hact hrest
  cases course with
  | stands stage' =>
    have hquiet := Program.hushed_bind hrest (site.enter i)
    rw [Course.program, Stage.hushed_program_bind] at hquiet
    exact ⟨_, occupant, h.outside hevent hquiet (.single hact) haccount hresidual
      (.attempting hfresh hcourse)⟩
  | ended result =>
    rcases hcourse with rfl | rfl
    · refine h.enter hfresh (.single hact) (fun {b} hb => agree_action ha hb) hevent ?_
      have hbody : (site.enter i (.ok ())).hushed = ([], site.enter i (.ok ())) :=
        (site.body_within i).hushed_bind (hushed_leave i)
      rw [Program.hushed_bind hrest]
      show ([(site.lock i).acquired] ++ (site.enter i (.ok ())).hushed.1,
        (site.enter i (.ok ())).hushed.2) = _
      rw [hbody]
      rfl
    · have hquiet := Program.hushed_bind hrest (site.enter i)
      exact ⟨_, occupant, h.outside hevent hquiet (.single hact) haccount hresidual
        (.refused hfresh)⟩

/-! ## Inside -/

omit [DecidableEq ι] in
/-- No data call writes a proposal. -/
theorem contest_spares {call : Call} (hcall : (Action.call call).IsDataCall site.data) :
    site.contest.Spares call := by
  intro k hk hparent
  have hcontains : (Proposals.root site.key).contains k = true := Key.contains_of_parent hparent
  rw [site.data_apart k (hcall.2 k (Call.mem_keys_of_mem_written hk))] at hcontains
  cases hcontains

/-- A party in its section makes one call of its body. -/
theorem Tracked.work {call : Call} {next : call.Outcome → Program (Result α)}
    (h : Tracked site start c (some (i, .step (.call call) next)) s)
    (hmem : i ∈ acquirers s.log) {wrote : Bool}
    (hparty : c.party i = partyInside wrote (.step (.call call) next))
    (hwithin : (Program.step (.call call) next).Within (Action.IsDataCall site.data)) :
    ∃ c' occupant', Tracked site start c' occupant' (s.advance i
      ⟨.call call, (s.world.store.apply call).1⟩
      (next (s.world.store.apply call).1 >>= site.leave i)
      { s.world with store := (s.world.store.apply call).2 }) := by
  obtain ⟨hcall, hnext⟩ := hwithin
  have hother : site.contest.StageStep Weather.fair c ⟨_, c.party⟩ :=
    .other call (contest_spares hcall)
  -- to the contest the call is somebody else's, and the party stays where it is
  have hself : Function.update c.party i (partyInside wrote (.step (.call call) next)) =
      c.party := by
    rw [← hparty]
    exact Function.update_eq_self ..
  rw [h.world, ← hself] at hother
  have hreach : Relation.ReflTransGen (site.contest.StageStep Weather.fair)
      ⟨{ s.world with store := (s.world.store.apply call).2 },
        Function.update c.party i (partyInside wrote (.step (.call call) next))⟩
      ⟨{ s.world with store := (s.world.store.apply call).2 },
        Function.update c.party i (partyInside wrote (next (s.world.store.apply call).1))⟩ :=
    reaches_partyInside _ c.party wrote (next (s.world.store.apply call).1)
  refine ⟨_, some (i, next (s.world.store.apply call).1),
    h.advance [⟨.call call, (s.world.store.apply call).1⟩] []
      ((hnext _).hushed_bind (hushed_leave i)) ?_ rfl (.inl rfl) (.head hother hreach) ?_ ?_ ?_⟩
  · show (if call.keys.all site.data then _ else _) ++ _ = _
    rw [if_pos (List.all_eq_true.mpr hcall.2)]
    rfl
  · exact fun j hji => (residual_of_ne hji _).trans (residual_of_ne hji _).symm
  · rw [List.append_nil]
    exact h.account.act hcall
  · rw [List.append_nil, residual_self]
    exact .inside hmem (hnext _)

/-- A party that has done its body gives the lock up. -/
theorem Tracked.leave {result : Result α} (h : Tracked site start c (some (i, .done result)) s)
    {wrote : Bool} (hparty : c.party i = partyInside wrote (.done result))
    {reply : (Stage.release.action (site.lock i)).Reply}
    (ha : Answered Weather.fair (site.token i) s.world (Stage.release.action (site.lock i)) reply
      world')
    {rest : Program (Result Unit)}
    (hrest : rest.hushed = (Stage.release.grants (site.lock i)
      (Stage.release.after (site.lock i) reply),
      (Stage.release.after (site.lock i) reply).program (site.lock i))) :
    ∃ c' occupant', Tracked site start c' occupant' (s.advance i
      ⟨Stage.release.action (site.lock i), reply⟩ (rest >>= site.finish result) world') := by
  -- a deletion in fair weather always counts as done
  have hafter : Stage.release.after (site.lock i) reply = .ended (.ok ()) := by
    rw [ha.eq_serve.1]
    exact congrArg Course.ended (Lock.withdrawn_delete ..)
  have hevent := concerns_action .release i reply
  have hbusy : (c.party i).activity = .busy .release false .release := by
    rw [hparty]
    rfl
  have hact : site.contest.StageStep Weather.fair c ⟨world', Function.update c.party i
      (.follow (c.party i).history .release (false || Action.wrote _ reply)
        (Stage.release.after (site.lock i) reply))⟩ := .act hbusy (h.world ▸ ha)
  rw [hparty, hafter] at hact
  rw [hafter] at hrest
  have hquiet : (rest >>= site.finish result).hushed =
      ([(site.lock i).released], .done result) := by
    rw [Program.hushed_bind hrest]
    cases result <;> rfl
  obtain ⟨haccount, before, horder, hresult⟩ := h.account.leave fun {b} hb => agree_action ha hb
  refine ⟨_, none, h.advance [(site.lock i).released] [] hquiet ?_ rfl (.inl rfl) (.single hact)
    ?_ ?_ ?_⟩
  · rw [hevent]
    rfl
  · exact fun j hji => (residual_of_ne hji _).symm
  · rw [List.append_nil]
    exact haccount
  · rw [List.append_nil, hresult]
    exact .finished horder

/-! ## Every step -/

theorem tracked_start (site : Site ι α) (hlimit : start.store.limit = 0) :
    Tracked site start (Contest.start start) none (site.start start) where
  reach := .refl
  world := rfl
  nodup := List.nodup_nil
  account := .free rfl (.refl hlimit)
  progress _ := .fresh List.not_mem_nil

/-- **Every step of all parties together is a step of the serial run, or none.** -/
theorem Tracked.step {s' : State ι α} (h : Tracked site start c occupant s)
    (hstep : site.Step s s') : ∃ c' occupant', Tracked site start c' occupant' s' := by
  cases hstep with
  | @act i action next reply world' hrest ha =>
    -- how far the party is tells which action it does
    have hprogress := h.progress i
    generalize hparty : c.party i = p at hprogress
    generalize hresidual : residual occupant i = left at hprogress
    generalize s.rest i = rest at hprogress hrest
    cases hprogress with
    | fresh hfresh =>
      obtain ⟨next', hprogram, hnext⟩ := site.program_eq i
      rw [hprogram] at hrest
      cases hrest
      cases ha
      rw [hnext]
      have hevent : site.concerns ⟨.freshToken, site.token i⟩ = false := rfl
      obtain ⟨c', htracked⟩ := h.draw hparty hfresh hresidual hevent
      exact ⟨c', occupant, htracked⟩
    | @attempting wrote stage hfresh hstage =>
      obtain ⟨next', hprogram, hnext⟩ := stage.program_step (site.lock i)
      rw [hprogram] at hrest
      cases hrest
      exact h.attempt hparty hfresh hresidual hstage ha (hnext reply)
    | refused hfresh => cases hrest
    | @inside wrote t hmem hwithin =>
      obtain rfl := eq_of_residual hresidual
      cases t with
      | done result =>
        obtain ⟨next', hprogram, hnext⟩ := Stage.release.program_step (site.lock i)
        change (Stage.release.program (site.lock i) >>= site.finish result) = _ at hrest
        rw [hprogram] at hrest
        cases hrest
        exact h.leave hparty ha (hnext reply)
      | step _ next' =>
        cases hrest
        cases action with
        | call call =>
          cases ha with
          | served => exact h.work hmem hparty hwithin
          | failed _ mishap hm => exact hm.elim
        | now => exact hwithin.1.elim
        | freshToken => exact hwithin.1.elim
        | tell n => exact hwithin.1.elim
        | count counter => exact hwithin.1.elim
    | finished horder => cases hrest
  | tick later hlater =>
    have hagain : Tracked site start ⟨{ c.world with clock := later }, c.party⟩ occupant
        { s with world := { s.world with clock := later } } :=
      ⟨h.reach.tail (.tick later (h.world ▸ hlater)), by rw [h.world], h.nodup, h.account,
        h.progress⟩
    exact ⟨_, _, hagain⟩
  | other call hcall =>
    have hspares : site.contest.Spares call := fun k hk => (hcall k hk).2
    have hwritten : ∀ k ∈ call.written, ¬ site.data k = true :=
      fun k hk => Bool.not_eq_true _ ▸ (hcall k hk).1
    have hagain : Tracked site start
        ⟨{ c.world with store := (c.world.store.apply call).2 }, c.party⟩ occupant
        { s with world := { s.world with store := (s.world.store.apply call).2 } } :=
      ⟨h.reach.tail (.other call hspares), by rw [h.world], h.nodup,
        h.account.of_agree fun {b} hb => hb.apply_left hwritten, h.progress⟩
    exact ⟨_, _, hagain⟩

/-- Every run of all parties together has an account as a serial run. -/
theorem exists_tracked (hlimit : start.store.limit = 0) (h : site.Reachable start s) :
    ∃ c occupant, Tracked site start c occupant s := by
  induction h with
  | refl => exact ⟨_, _, tracked_start site hlimit⟩
  | tail _ hstep ih =>
    obtain ⟨c, occupant, htracked⟩ := ih
    exact htracked.step hstep

/-- Once everybody who has taken the lock is done, nobody is in a section. -/
theorem Tracked.eq_none (h : Tracked site start c occupant s)
    (hdone : ∀ i ∈ acquirers s.log, ∃ result, s.rest i = .done result) : occupant = none := by
  cases occupant with
  | none => rfl
  | some occupant =>
    obtain ⟨i, t⟩ := occupant
    -- a party in its section has an action left to do
    have hinside := h.progress i
    rw [residual_self] at hinside
    obtain ⟨result, hrest⟩ := hdone i hinside.of_some.1
    cases (hinside.of_done hrest).1

/-- Once everybody who has taken the lock is done, the serial run is over. -/
theorem Tracked.isOver (h : Tracked site start c occupant s)
    (hdone : ∀ i ∈ acquirers s.log, ∃ result, s.rest i = .done result) :
    site.sectionLog s.log = site.serialLog (acquirers s.log) start ∧
      s.world.store.Agree (site.data · = true) (site.after (acquirers s.log) start).store := by
  obtain rfl := h.eq_none hdone
  cases h.account with
  | free hlog hagree => exact ⟨hlog, hagree⟩

/-! ## Updates -/

/-- Parties that each append a text to what stands under a key, if anything. -/
def appending (key data : Key) (h : (Proposals.root key).contains data = false)
    (text : Nat → Bytes) : Site Nat Unit where
  key := key
  token := Token.numbered
  token_injective := Contest.injective_numbered
  data k := k == data
  data_apart k hk := by rwa [eq_of_beq hk]
  body i := do
    let reply ← Program.ask (.load data)
    let found := (Proposals.payloadOf reply).toOption.join
    Program.ask (.save data (.ofBytes (found.getD [] ++ text i)))
  body_within i := by
    refine ⟨⟨by simp [Call.operation], by simp [Call.keys]⟩, fun reply => ?_⟩
    exact ⟨⟨by simp [Call.operation], by simp [Call.keys]⟩, fun _ => trivial⟩

variable {key data : Key} {h : (Proposals.root key).contains data = false} {text : Nat → Bytes}

/-- One party alone appends its text. -/
theorem find?_alone_appending (i : Nat) (hlimit : world.store.limit = 0) :
    ((appending key data h text).alone i world).2.store.entries.find? data =
      some ((world.store.entries.find? data).getD [] ++ text i) := by
  have hfound : (Proposals.payloadOf (world.store.apply (.load data)).1).toOption.join =
      world.store.entries.find? data := by
    rw [Lock.payloadOf_load]
    exact Option.join_some
  have hsave : ((appending key data h text).alone i world).2.store = (world.store.put data
      ((world.store.entries.find? data).getD [] ++ text i)).2 := by
    rw [← hfound, ← MemoryStore.save_of_drain (Content.drain_ofBytes _)]
    rfl
  rw [hsave]
  exact MemoryStore.find?_put_of_ok (MemoryStore.put_of_unlimited hlimit ..)

omit [DecidableEq ι] in
/-- Nothing that runs alone limits a store. -/
theorem limit_alone (site : Site ι α) (i : ι) (world : World) :
    (site.alone i world).2.store.limit = world.store.limit := by
  rw [alone]
  induction site.body i generalizing world with
  | done result => rfl
  | step action next ih =>
    refine (ih _ _).trans ?_
    cases action with
    | call c => exact MemoryStore.limit_apply ..
    | _ => rfl

/-- Parties that run alone append their texts in order. -/
theorem find?_after_appending (order : List Nat) (hlimit : world.store.limit = 0) :
    (((appending key data h text).after order world).store.entries.find? data).getD [] =
      (world.store.entries.find? data).getD [] ++ order.flatMap text := by
  induction order generalizing world with
  | nil => exact (List.append_nil _).symm
  | cons i order ih =>
    have hrest := @ih ((appending key data h text).alone i world).2
      ((limit_alone ..).trans hlimit)
    rw [find?_alone_appending i hlimit, Option.getD_some, List.append_assoc] at hrest
    exact hrest

/-- **No update is lost.** Once everybody who has taken the lock is done, all their texts stand
there, in the order in which they have taken it. -/
theorem find?_of_appending (hlimit : start.store.limit = 0) {s : State Nat Unit}
    (hreach : (appending key data h text).Reachable start s)
    (hdone : ∀ i ∈ acquirers s.log, ∃ result, s.rest i = .done result) :
    (s.world.store.entries.find? data).getD [] =
      (start.store.entries.find? data).getD [] ++ (acquirers s.log).flatMap text := by
  obtain ⟨c, occupant, htracked⟩ := exists_tracked hlimit hreach
  rw [(htracked.isOver hdone).2.find?_eq data (beq_self_eq_true data)]
  exact find?_after_appending _ hlimit

/-- **Exclusive sections are serializable.** However the steps of all parties are ordered, what
they have done in their sections is what they do as their bodies run alone, one after another, in
the order in which they have taken the lock: each takes the lock, gets the same replies, and gives
the lock up before the next one. A party that is done returns what its body returns there; if it has
not taken the lock, it returns a conflict and has done nothing. Once everybody who has taken the
lock is done, the data is what it is after the serial run. -/
theorem serializable (hlimit : start.store.limit = 0) (h : site.Reachable start s) :
    (acquirers s.log).Nodup ∧
    site.sectionLog s.log <+: site.serialLog (acquirers s.log) start ∧
    (∀ i result, s.rest i = .done result →
      (∃ before later, acquirers s.log = before ++ i :: later ∧
        result = (site.alone i (site.after before start)).1) ∨
      (i ∉ acquirers s.log ∧ result = .error (.lockConflict site.key none))) ∧
    ((∀ i ∈ acquirers s.log, ∃ result, s.rest i = .done result) →
      site.sectionLog s.log = site.serialLog (acquirers s.log) start ∧
      ∀ k, site.data k = true → s.world.store.entries.find? k =
        (site.after (acquirers s.log) start).store.entries.find? k) := by
  obtain ⟨c, occupant, htracked⟩ := exists_tracked hlimit h
  refine ⟨htracked.nodup, htracked.account.log_begins, ?_, ?_⟩
  · intro i result hrest
    exact ((htracked.progress i).of_done hrest).2
  · intro hdone
    obtain ⟨hlog, hagree⟩ := htracked.isOver hdone
    exact ⟨hlog, hagree.find?_eq⟩

/-- Parties that each append a number to what stands under one key. -/
def numbering : Site Nat Unit :=
  appending (Key.ofString "a") (Key.ofString "d") (by decide +kernel) fun i => [i.toUInt8]

/-- The turns of three parties. While the first one is in its section, the third one tries to take the
lock and fails, and the second one writes its proposal. It lists once the first one is done. -/
def interleaved : List Nat := [0, 1, 2, 0, 0, 0, 2, 2, 0, 2, 2, 1, 2, 1, 0, 0, 1, 1, 1, 1]

/-- If two parties append while their steps interleave, the second one keeps what the first one wrote.
A third one that fails to take the lock meanwhile appends nothing. -/
theorem serializable_interleaved :
    let s := numbering.play (numbering.start ⟨.unlimited, .epoch⟩) interleaved
    numbering.Reachable ⟨.unlimited, .epoch⟩ s ∧ acquirers s.log = [0, 1] ∧
      numbering.sectionLog s.log = numbering.serialLog [0, 1] ⟨.unlimited, .epoch⟩ ∧
      s.world.store.entries.find? (Key.ofString "d") = some [0, 1] ∧
      s.rest 2 = .done (.error (.lockConflict (Key.ofString "a") none)) := by
  intro s
  have hreach : numbering.Reachable ⟨.unlimited, .epoch⟩ s := reaches_play ..
  have horder : acquirers s.log = [0, 1] := by decide +kernel
  have hdone : ∀ i ∈ [0, 1], s.rest i = .done (.ok ()) := by
    simp only [← Program.result?_eq_some_iff]
    decide +kernel
  obtain ⟨-, -, -, hover⟩ := serializable rfl hreach
  obtain ⟨hlog, hdata⟩ := hover fun i hi => ⟨_, hdone i (horder ▸ hi)⟩
  rw [horder] at hlog hdata
  refine ⟨hreach, horder, hlog, (hdata _ rfl).trans (by decide +kernel), ?_⟩
  exact Program.result?_eq_some_iff.mp (by decide +kernel)

end Site

end ObjectStore

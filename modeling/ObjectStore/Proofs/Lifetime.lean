import ObjectStore.Proofs.Capacity
import ObjectStore.Proofs.Verdicts
import ObjectStore.Settings

/-! # Lifetimes

A lifetime passes three ranges on its way into a store and back: that of lifetimes, that of instants
and that of the years that a payload can be read with. A proposal that lies beyond one of them counts
for ever, and that is no mistake as long as the clock shows a time within all of them.

* **`Instant.nanoseconds`** — the nanoseconds since 1970 of an instant outside leap seconds.
* **`Expiration.after_eq_at_iff`**, **`Expiration.after_eq_never_iff`** — an expiration some time from
  now is exact, or never comes because it has no place in the ranges of lifetimes or of instants.
* **`Proposals.lifetime_honoured`** — a proposal counts against others exactly as long as the clock
  shows less than its lifetime after now. -/

namespace ObjectStore

/-! ## Nanoseconds -/

namespace Instant

variable {a b i : Instant}

/-- The nanoseconds since the beginning of 1970 of an instant that lies in no leap second. -/
def nanoseconds (i : Instant) : Int := i.seconds * nanosPerSecond + i.nanos

/-- The last nanosecond of the last second. -/
def lastNanosecond : Int := lastSecond * nanosPerSecond + (nanosPerSecond - 1 : Nat)

theorem isLeap_eq_false_iff : i.isLeap = false ↔ i.nanos < nanosPerSecond := by
  rw [isLeap, decide_eq_false_iff_not, Nat.not_le]

/-- Outside leap seconds instants are ordered by their nanoseconds. -/
theorem lt_iff_nanoseconds_lt (ha : a.isLeap = false) (hb : b.isLeap = false) :
    a < b ↔ a.nanoseconds < b.nanoseconds := by
  rw [isLeap_eq_false_iff, nanosPerSecond] at ha hb
  rw [lt_iff, nanoseconds, nanoseconds, nanosPerSecond]
  omega

/-- The instant some nanoseconds after the beginning of 1970, if there is one. -/
def ofNanoseconds? (n : Int) : Option Instant :=
  ofUnix? (n / nanosPerSecond) (n % nanosPerSecond).toNat

theorem ofUnix?_eq_some_iff {seconds : Int} {nanos : Nat} :
    ofUnix? seconds nanos = some i ↔ i.seconds = seconds ∧ i.nanos = nanos := by
  rw [ofUnix?]
  constructor
  · intro h
    split at h
    · cases h
      exact ⟨rfl, rfl⟩
    · cases h
  · rintro ⟨rfl, rfl⟩
    exact dif_pos i.valid

theorem ofUnix?_eq_none_iff {seconds : Int} {nanos : Nat} :
    ofUnix? seconds nanos = none ↔ ¬ IsValid seconds nanos := by
  rw [ofUnix?]
  split
  · next h => simp [h]
  · next h => simp [h]

theorem ofNanoseconds?_eq_some_iff {n : Int} :
    ofNanoseconds? n = some i ↔ i.isLeap = false ∧ i.nanoseconds = n := by
  rw [ofNanoseconds?, ofUnix?_eq_some_iff, isLeap_eq_false_iff, nanoseconds, nanosPerSecond]
  omega

/-- From the first instant on, only what comes after the last one is no instant. -/
theorem ofNanoseconds?_eq_none_iff {n : Int} (h : firstSecond * nanosPerSecond ≤ n) :
    ofNanoseconds? n = none ↔ lastNanosecond < n := by
  rw [ofNanoseconds?, ofUnix?_eq_none_iff, IsValid, lastNanosecond]
  simp only [firstSecond, lastSecond, nanosPerSecond] at *
  omega

/-- Outside leap seconds the sum of an instant and a time is exact. -/
theorem add?_eq (h : i.isLeap = false) (seconds nanos : Nat) : i.add? seconds nanos =
    ofNanoseconds? (i.nanoseconds + (seconds * nanosPerSecond + nanos : Nat)) := by
  have hseconds : i.seconds + seconds + ((i.nanos + nanos) / nanosPerSecond : Nat) =
      (i.nanoseconds + (seconds * nanosPerSecond + nanos : Nat)) / nanosPerSecond := by
    rw [nanoseconds, nanosPerSecond]
    omega
  have hnanos : (i.nanos + nanos) % nanosPerSecond =
      ((i.nanoseconds + (seconds * nanosPerSecond + nanos : Nat)) % nanosPerSecond).toNat := by
    rw [nanoseconds, nanosPerSecond]
    omega
  rw [add?, h, ofNanoseconds?, ← hseconds, ← hnanos]
  rfl

theorem le_nanoseconds (i : Instant) : firstSecond * nanosPerSecond ≤ i.nanoseconds := by
  have hfirst := i.valid.1
  rw [nanoseconds, nanosPerSecond]
  omega

/-! ## Nanoseconds of years -/

/-- The years up to 9999 end with Unix second 253402300799. -/
theorem seconds_lt_of_year_le (h : i.year ≤ 9999) : i.seconds < 253402300800 := by
  by_contra hlate
  have hdays : 2932897 ≤ i.seconds / 86400 := by omega
  have hyears := Date.year_ofDayNumber_mono hdays
  have hfirst : (Date.ofDayNumber 2932897).year = 10000 := by decide
  rw [year, date] at h
  omega

/-- The years from 0 on begin with Unix second -62167219200. -/
theorem le_seconds_of_le_year (h : 0 ≤ i.year) : -62167219200 ≤ i.seconds := by
  by_contra hearly
  have hdays : i.seconds / 86400 ≤ -719529 := by omega
  have hyears := Date.year_ofDayNumber_mono hdays
  have hlast : (Date.ofDayNumber (-719529)).year = -1 := by decide
  rw [year, date] at h
  omega

end Instant

namespace Expiration

variable {now later i : Instant} {seconds nanos : Nat}

/-- The nanoseconds of a lifetime. -/
def lifetime (seconds nanos : Nat) : Nat := seconds * nanosPerSecond + nanos

/-- Outside leap seconds an expiration some time from now is the sum, if it is an instant. -/
theorem after_eq (h : now.isLeap = false) (seconds nanos : Nat) : after now seconds nanos =
    if lifetime seconds nanos ≤ longestLifetime then
      (Instant.ofNanoseconds? (now.nanoseconds + lifetime seconds nanos)).elim .never .at
    else .never := by
  rw [after, Instant.add?_eq h, lifetime]
  cases Instant.ofNanoseconds? (now.nanoseconds + (seconds * nanosPerSecond + nanos : Nat)) <;> rfl

theorem after_eq_at_iff (h : now.isLeap = false) : after now seconds nanos = .at i ↔
    lifetime seconds nanos ≤ longestLifetime ∧ i.isLeap = false ∧
      i.nanoseconds = now.nanoseconds + lifetime seconds nanos := by
  rw [after_eq h]
  split
  · next hfits =>
    rw [← Instant.ofNanoseconds?_eq_some_iff]
    cases Instant.ofNanoseconds? (now.nanoseconds + lifetime seconds nanos) <;> simp [hfits]
  · next hlong => simp [hlong]

/-- Outside leap seconds an expiration never comes exactly if the lifetime is too long or the sum
lies beyond the last instant. -/
theorem after_eq_never_iff (h : now.isLeap = false) : after now seconds nanos = .never ↔
    longestLifetime < lifetime seconds nanos ∨
      Instant.lastNanosecond < now.nanoseconds + lifetime seconds nanos := by
  have hfirst := now.le_nanoseconds
  rw [after_eq h, ← Instant.ofNanoseconds?_eq_none_iff (by omega)]
  split
  · next hfits =>
    cases Instant.ofNanoseconds? (now.nanoseconds + lifetime seconds nanos) <;>
      simp [Nat.not_lt.mpr hfits]
  · next hlong => simp [Nat.lt_of_not_le hlong]

/-- No expiration some time from now lies in an earlier year. -/
theorem isOfEra_after (h : now.isLeap = false) (hfirst : 0 ≤ now.year) (seconds nanos : Nat) :
    (after now seconds nanos).IsOfEra := by
  cases hafter : after now seconds nanos with
  | never => trivial
  | «at» i =>
    obtain ⟨-, hleap, hsum⟩ := (after_eq_at_iff h).mp hafter
    show 0 ≤ i.year
    by_contra hearly
    have hlt : i < now := Instant.lt_of_year_lt (by omega)
    rw [Instant.lt_iff_nanoseconds_lt hleap h] at hlt
    omega

/-- **An expiration some time from now counts as long as the clock shows less than the exact sum**,
in the years that payloads can hold. -/
theorem isActiveAt_after (hnow : now.isLeap = false) (hlater : later.isLeap = false)
    (hfirst : 0 ≤ now.year) (hlast : later.year ≤ 9999) :
    (after now seconds nanos).isActiveAt later = true ↔
      later.nanoseconds < now.nanoseconds + lifetime seconds nanos := by
  cases hafter : after now seconds nanos with
  | never =>
    -- the clock shows no time that a lifetime or an instant could not reach
    have hsecond := Instant.le_seconds_of_le_year hfirst
    have hsecond' := Instant.seconds_lt_of_year_le hlast
    have hnanos := Instant.isLeap_eq_false_iff.mp hlater
    have hbeyond := (after_eq_never_iff hnow).mp hafter
    simp only [longestLifetime, Instant.lastNanosecond, Instant.lastSecond] at hbeyond
    simp only [Instant.nanoseconds, nanosPerSecond] at *
    exact iff_of_true rfl (by omega)
  | «at» i =>
    obtain ⟨-, hleap, hsum⟩ := (after_eq_at_iff hnow).mp hafter
    rw [isActiveAt, decide_eq_true_iff, Instant.lt_iff_nanoseconds_lt hlater hleap, hsum]

end Expiration

namespace Proposals

variable {target : Key} {token : Token} {own : String} {now later : Instant} {seconds nanos : Nat}
  {draw : Token} {world world' : World}

/-- The payload of an expiration some time from now counts as the expiration does. -/
theorem payloadIsActive_after (hnow : now.isLeap = false) (hlater : later.isLeap = false)
    (hfirst : 0 ≤ now.year) (hlast : later.year ≤ 9999) :
    payloadIsActive (Bytes.ofString (Expiration.after now seconds nanos).encode) later = true ↔
      later.nanoseconds < now.nanoseconds + Expiration.lifetime seconds nanos := by
  rw [payloadIsActive_encode_eq (Expiration.isOfEra_after hnow hfirst seconds nanos) hlast,
    Expiration.isActiveAt_after hnow hlater hfirst hlast]

/-- Run alone, the creation of a proposal is one save. -/
theorem run_create (target : Key) (token : String) (e : Expiration) (draw : Token) (world : World) :
    let saved := world.store.save (key target token) (.ofBytes (Bytes.ofString e.encode))
    (create target token e).run (World.serve draw) world =
      (saved.1, { world with store := saved.2 }) := by
  intro saved
  have hserve : World.serve draw (.call (.save (key target token)
      (.ofBytes (Bytes.ofString e.encode)))) world = (saved.1, { world with store := saved.2 }) := rfl
  rw [create_eq, Program.run_step, hserve]
  cases saved.1 <;> rfl

/-- A proposal that has been created stands under its key. -/
theorem find?_of_created {e : Expiration}
    (h : (create target token.text e).run (World.serve draw) world = (.ok (), world')) :
    world'.store.entries.find? (key target token.text) = some (Bytes.ofString e.encode) := by
  rw [run_create] at h
  obtain ⟨hsaved, rfl⟩ := Prod.mk.inj h
  exact MemoryStore.find?_save (Content.drain_ofBytes _) hsaved

/-- **A lifetime is honoured to the nanosecond.** Let a proposal be created that expires some time
from now, let any calls follow that do not write it, and let another token look for active proposals
later, in a year that payloads can hold. The clock shows no leap seconds. Then the proposal is still
stored and counts exactly if the clock shows less than now and the lifetime, whichever of the ranges
on the way the sum exceeds; so the look ends in a conflict if it does, and otherwise as the other
proposals have it. An expiration with an instant has the exact one, and one never comes only if its
lifetime or its instant is out of range. Configured lifetimes are those of whole seconds. -/
theorem lifetime_honoured {between : List Call} (hown : own ≠ token.text)
    (hnow : now.isLeap = false) (hlater : later.isLeap = false) (hfirst : 0 ≤ now.year)
    (hlast : later.year ≤ 9999)
    (hcreated : (create target token.text (.after now seconds nanos)).run (World.serve draw) world =
      (.ok (), world'))
    (hbetween : ∀ call ∈ between, key target token.text ∉ call.written) :
    let stored := world'.store.after between
    let result := ((checkSingle target own).run (World.serve draw) ⟨stored, later⟩).1
    let ends := now.nanoseconds + Expiration.lifetime seconds nanos
    (∃ payload, stored.entries.find? (key target token.text) = some payload ∧
      (payloadIsActive payload later = true ↔ later.nanoseconds < ends)) ∧
    (result = .error (.lockConflict target none) ↔ later.nanoseconds < ends ∨
      ∃ third : Token, third ≠ token ∧ third.text ≠ own ∧
        counts target stored.entries later third.text = true) ∧
    (result = .ok () ↔ ends ≤ later.nanoseconds ∧
      ∀ third : Token, third ≠ token → third.text ≠ own →
        counts target stored.entries later third.text = false) ∧
    (∀ i, Expiration.after now seconds nanos = .at i → i.nanoseconds = ends) ∧
    (Expiration.after now seconds nanos = .never ↔
      Expiration.longestLifetime < Expiration.lifetime seconds nanos ∨
        Instant.lastNanosecond < ends) ∧
    (({ expirationSeconds := some seconds } : LockSettings).expiration now =
      .after now seconds 0) := by
  intro stored result ends
  have hfind : stored.entries.find? (key target token.text) =
      some (Bytes.ofString (Expiration.after now seconds nanos).encode) :=
    (MemoryStore.find?_after_of_notMem hbetween).trans (find?_of_created hcreated)
  have hactive : payloadIsActive (Bytes.ofString (Expiration.after now seconds nanos).encode) later =
      true ↔ later.nanoseconds < ends := payloadIsActive_after hnow hlater hfirst hlast
  have hcounts : counts target stored.entries later token.text = true ↔
      later.nanoseconds < ends := by
    rw [counts, hfind, Option.any_some, hactive]
  have hresult : result = verdict target own stored.entries later :=
    congrArg Prod.fst (run_checkSingle target own draw ⟨stored, later⟩)
  refine ⟨⟨_, hfind, hactive⟩, ?_, ?_, fun i hi => ((Expiration.after_eq_at_iff hnow).mp hi).2.2,
    Expiration.after_eq_never_iff hnow, rfl⟩
  · rw [hresult, verdict_eq_conflict_iff_of_ne (Ne.symm hown), hcounts]
  · rw [hresult, verdict_eq_ok_iff_of_ne (Ne.symm hown), ← Bool.not_eq_true, hcounts, Int.not_lt]

/-! ### A lifetime of ten thousand years -/

/-- The beginning of 2025. -/
def beginning2025 : Instant := ⟨1735689600, 0, by decide⟩

/-- The last nanosecond of 2100. -/
def end2100 : Instant := ⟨4133980799, 999999999, by decide⟩

/-- The world once a proposal of that lifetime has been created in an empty store in 2025. -/
def afterLongCreation : World :=
  ((create (Key.ofString "t") "a" (.after beginning2025 315360000000 1)).run
    (World.serve ⟨"a", by decide, by decide⟩) ⟨.unlimited, beginning2025⟩).2

theorem lifetime_honoured_past_9999 :
    beginning2025.isLeap = false ∧ end2100.isLeap = false ∧ 0 ≤ beginning2025.year ∧
      end2100.year ≤ 9999 ∧
      end2100.nanoseconds < beginning2025.nanoseconds + Expiration.lifetime 315360000000 1 ∧
      ((checkSingle (Key.ofString "t") "b").run (World.serve ⟨"a", by decide, by decide⟩)
        ⟨afterLongCreation.store.after [.save (key (Key.ofString "t") "b") (.ofBytes [])],
          end2100⟩).1 = .error (.lockConflict (Key.ofString "t") none) := by
  let token : Token := ⟨"a", by decide, by decide⟩
  have hnow : beginning2025.isLeap = false := by decide
  have hlater : end2100.isLeap = false := by decide
  have hfirst : 0 ≤ beginning2025.year := by decide
  have hlast : end2100.year ≤ 9999 := by decide
  have hlt : end2100.nanoseconds <
      beginning2025.nanoseconds + Expiration.lifetime 315360000000 1 := by decide
  have hcreated : (create (Key.ofString "t") token.text
      (.after beginning2025 315360000000 1)).run (World.serve token)
        ⟨.unlimited, beginning2025⟩ = (.ok (), afterLongCreation) := Prod.ext (by decide +kernel) rfl
  have hbetween : ∀ call ∈ [Call.save (key (Key.ofString "t") "b") (.ofBytes [])],
      key (Key.ofString "t") token.text ∉ call.written := by decide +kernel
  have hown : "b" ≠ token.text := by decide
  have hhonoured := lifetime_honoured hown hnow hlater hfirst hlast hcreated hbetween
  exact ⟨hnow, hlater, hfirst, hlast, hlt, hhonoured.2.1.mpr (.inl hlt)⟩

end Proposals

end ObjectStore

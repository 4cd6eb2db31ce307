import ObjectStore.Proofs.Discipline
import ObjectStore.Proofs.Payloads
import ObjectStore.Proofs.Verdicts

/-! # Damaged payloads

A payload that has been cut short, or that other bytes have been added to, is not taken for the
payload of another instant.

* **`Timestamp.read_append`** — no timestamp goes on after another one, since each part of it is read
  up to its end and no further.
* **`Expiration.IsTimed.refused_append`**, **`Expiration.IsTimed.refused_of_append`** — no payload of
  an instant begins with another payload but the empty one.
* **`Proposals.conflict_of_transcript`** — a check that is answered with a payload that counts ends
  in a conflict, whoever answers.
* **`Proposals.damage_blocks`** — a damaged proposal counts for ever. -/

namespace ObjectStore

namespace Timestamp

open Utf8

/-! ## Reading up to an end -/

section Append

variable {text rest : Bytes} (more : Bytes)

theorem readDigits_append {count value n : Nat} (h : readDigits count value text = .ok (n, rest)) :
    readDigits count value (text ++ more) = .ok (n, rest ++ more) := by
  induction count generalizing value text with
  | zero =>
    cases h
    rfl
  | succ count ih =>
    cases text with
    | nil => cases h
    | cons b text =>
      rw [readDigits] at h
      rw [List.cons_append, readDigits]
      cases hd : digit? b with
      | none => rw [hd] at h; cases h
      | some d =>
        rw [hd] at h
        exact ih h

theorem readByte_append {accepted : List UInt8} (h : readByte accepted text = .ok rest) :
    readByte accepted (text ++ more) = .ok (rest ++ more) := by
  cases text with
  | nil => cases h
  | cons b text =>
    rw [readByte] at h
    split at h
    · next hb =>
      cases h
      exact readByte_cons hb _
    · cases h

theorem readDate_append {d : Date} (h : readDate text = .ok (d, rest)) :
    readDate (text ++ more) = .ok (d, rest ++ more) := by
  obtain ⟨⟨year, text⟩, hyear, h⟩ := Except.exists_of_bind_eq_ok h
  obtain ⟨text, hdash, h⟩ := Except.exists_of_bind_eq_ok h
  obtain ⟨⟨month, text⟩, hmonth, h⟩ := Except.exists_of_bind_eq_ok h
  obtain ⟨text, hdash', h⟩ := Except.exists_of_bind_eq_ok h
  obtain ⟨⟨day, text⟩, hday, h⟩ := Except.exists_of_bind_eq_ok h
  simp only at h
  split at h
  · next hcivil =>
    cases h
    rw [readDate, readDigits_append more hyear]
    simp only [bind, Except.bind, readByte_append more hdash, readDigits_append more hmonth,
      readByte_append more hdash', readDigits_append more hday, if_pos hcivil]
    rfl
  · cases h

/-- The digits of a fraction end where something follows them. -/
theorem readFractionDigits_append {count value : Nat}
    (hrest : (readFractionDigits count value text).2 ≠ []) :
    readFractionDigits count value (text ++ more) =
      ((readFractionDigits count value text).1, (readFractionDigits count value text).2 ++ more) := by
  induction count generalizing value text with
  | zero =>
    have hleft : (text.dropWhile fun b => (digit? b).isSome).isEmpty = false :=
      List.isEmpty_eq_false_iff.mpr hrest
    rw [readFractionDigits_zero, readFractionDigits_zero, List.dropWhile_append, hleft]
    rfl
  | succ count ih =>
    cases text with
    | nil => exact absurd rfl hrest
    | cons b text =>
      rw [readFractionDigits_cons] at hrest
      rw [List.cons_append, readFractionDigits_cons, readFractionDigits_cons]
      cases hd : digit? b with
      | none => rfl
      | some d =>
        rw [hd] at hrest
        exact ih hrest

theorem readFraction_append {nanos : Nat} (h : readFraction text = .ok (nanos, rest))
    (hrest : rest ≠ []) : readFraction (text ++ more) = .ok (nanos, rest ++ more) := by
  cases text with
  | nil =>
    cases h
    exact absurd rfl hrest
  | cons b text =>
    rw [readFraction] at h
    rw [List.cons_append, readFraction]
    split at h
    · next hpoint =>
      cases h
      rw [if_pos hpoint, List.cons_append]
    · next hpoint =>
      obtain ⟨first, hdigit, h⟩ := Except.exists_of_bind_eq_ok h
      have hread : readFractionDigits 9 0 text = (nanos, rest) := Except.ok.inj h
      have hlonger : readFractionDigits 9 0 (text ++ more) = (nanos, rest ++ more) := by
        have hends : (readFractionDigits 9 0 text).2 ≠ [] := hread ▸ hrest
        rw [readFractionDigits_append more hends, hread]
      cases hfirst : readDigits 1 0 text with
      | error e =>
        rw [hfirst] at hdigit
        cases hdigit
      | ok first =>
        rw [if_neg hpoint, readDigits_append more hfirst]
        exact congrArg Except.ok hlonger

theorem readClock_append {clock : Nat × Nat} (h : readClock text = .ok (clock, rest))
    (hrest : rest ≠ []) : readClock (text ++ more) = .ok (clock, rest ++ more) := by
  obtain ⟨⟨hour, text⟩, hhour, h⟩ := Except.exists_of_bind_eq_ok h
  obtain ⟨text, hcolon, h⟩ := Except.exists_of_bind_eq_ok h
  obtain ⟨⟨minute, text⟩, hminute, h⟩ := Except.exists_of_bind_eq_ok h
  obtain ⟨text, hcolon', h⟩ := Except.exists_of_bind_eq_ok h
  obtain ⟨⟨second, text⟩, hsecond, h⟩ := Except.exists_of_bind_eq_ok h
  obtain ⟨⟨nanos, text⟩, hfraction, h⟩ := Except.exists_of_bind_eq_ok h
  simp only at h
  split at h
  · next hvalid =>
    cases h
    rw [readClock, readDigits_append more hhour]
    simp only [bind, Except.bind, readByte_append more hcolon, readDigits_append more hminute,
      readByte_append more hcolon', readDigits_append more hsecond,
      readFraction_append more hfraction hrest, if_pos hvalid]
    rfl
  · cases h

/-- What a sign can be. -/
theorem readSign_cases {sign : Int} (h : readSign text = .ok (sign, rest)) :
    (text = ascii '+' :: rest ∧ sign = 1) ∨ (text = ascii '-' :: rest ∧ sign = -1) ∨
      (text = 0xE2 :: 0x88 :: 0x92 :: rest ∧ sign = -1) := by
  rw [readSign.eq_def] at h
  split at h
  · cases h
  split at h
  · next hplus =>
    cases h
    exact .inl ⟨by rw [hplus], rfl⟩
  split at h
  · next hminus =>
    cases h
    exact .inr (.inl ⟨by rw [hminus], rfl⟩)
  split at h
  · cases h
    exact .inr (.inr ⟨rfl, rfl⟩)
  · cases h

theorem readSign_append {sign : Int} (h : readSign text = .ok (sign, rest)) :
    readSign (text ++ more) = .ok (sign, rest ++ more) := by
  rcases readSign_cases h with ⟨rfl, rfl⟩ | ⟨rfl, rfl⟩ | ⟨rfl, rfl⟩
  · rfl
  · rfl
  · rfl

theorem readPair_append {n : Nat} (h : readPair text = .ok (n, rest)) :
    readPair (text ++ more) = .ok (n, rest ++ more) := by
  rw [readPair] at h
  split at h
  · cases h
  · next hlength =>
    have hlonger : ¬ (text ++ more).length < 2 := by
      rw [List.length_append]
      omega
    rw [readPair, if_neg hlonger, readDigits_append more h]

theorem readOffsetMinutes_append {n : Nat} (h : readOffsetMinutes text = .ok (n, rest)) :
    readOffsetMinutes (text ++ more) = .ok (n, rest ++ more) := by
  obtain ⟨⟨minutes, text⟩, hminutes, h⟩ := Except.exists_of_bind_eq_ok h
  simp only at h
  split at h
  · next hlt =>
    cases h
    rw [readOffsetMinutes, readPair_append more hminutes]
    simp only [bind, Except.bind, if_pos hlt]
    rfl
  · cases h

theorem readOffset_append {offset : Int} (h : readOffset text = .ok (offset, rest)) :
    readOffset (text ++ more) = .ok (offset, rest ++ more) := by
  cases text with
  | nil => cases h
  | cons b text =>
    rw [readOffset] at h
    rw [List.cons_append, readOffset]
    split at h
    · next hzulu =>
      cases h
      rw [if_pos hzulu]
    · next hzulu =>
      obtain ⟨⟨sign, text'⟩, hsign, h⟩ := Except.exists_of_bind_eq_ok h
      obtain ⟨⟨hours, text'⟩, hhours, h⟩ := Except.exists_of_bind_eq_ok h
      obtain ⟨text', hcolon, h⟩ := Except.exists_of_bind_eq_ok h
      obtain ⟨⟨minutes, text'⟩, hminutes, h⟩ := Except.exists_of_bind_eq_ok h
      cases h
      rw [if_neg hzulu, ← List.cons_append, readSign_append more hsign]
      simp only [bind, Except.bind, readPair_append more hhours, readByte_append more hcolon,
        readOffsetMinutes_append more hminutes]
      rfl

/-- **No timestamp goes on after another one.** -/
theorem readSpelled_append {s : Spelled} (h : readSpelled text = .ok s) (hmore : more ≠ []) :
    readSpelled (text ++ more) = .error .tooLong := by
  rw [readSpelled] at h
  split at h
  · cases h
  next hlength =>
  obtain ⟨⟨date, afterDate⟩, hdate, h⟩ := Except.exists_of_bind_eq_ok h
  obtain ⟨afterMark, hmark, h⟩ := Except.exists_of_bind_eq_ok h
  obtain ⟨⟨clock, afterClock⟩, hclock, h⟩ := Except.exists_of_bind_eq_ok h
  obtain ⟨⟨offset, afterOffset⟩, hoffset, h⟩ := Except.exists_of_bind_eq_ok h
  have hlonger : ¬ (text ++ more).length < localLength := by
    rw [List.length_append]
    omega
  -- something follows the time of day: the offset, which cannot be missing
  have hleft : afterClock ≠ [] := by
    rintro rfl
    cases hoffset
  have hover : afterOffset ++ more ≠ [] := List.append_ne_nil_of_right_ne_nil _ hmore
  rw [readSpelled, if_neg hlonger, readDate_append more hdate]
  simp only [bind, Except.bind, readByte_append more hmark, readClock_append more hclock hleft,
    readOffset_append more hoffset, if_pos hover]
  rfl

end Append

/-- **No timestamp goes on after another one.** -/
theorem read_append {text : Bytes} {i : Instant} (h : read text = .ok i) {more : Bytes}
    (hmore : more ≠ []) : read (text ++ more) = .error .tooLong := by
  obtain ⟨s, hs, -⟩ := exists_of_read h
  rw [read_eq, readSpelled_append more hs hmore]
  rfl

/-- A timestamp begins with a digit. -/
theorem exists_read_eq_error {b : UInt8} (hb : digit? b = none) (rest : Bytes) :
    ∃ e, read (b :: rest) = .error e := by
  rw [read]
  split
  · exact ⟨.tooShort, rfl⟩
  · refine ⟨.invalid, ?_⟩
    rw [readDate, readDigits, hb]
    rfl

/-- The text of an instant outside the years 0 to 9999 does not. -/
theorem exists_encode_write {i : Instant} (h : ¬ (0 ≤ i.year ∧ i.year ≤ 9999)) :
    ∃ b bytes, encode (write i) = b :: bytes ∧ digit? b = none := by
  rw [Instant.year] at h
  rw [encode_write, encode_writeDate_append, writeYear, if_neg h]
  split
  · rw [encode_cons_ascii (by decide)]
    exact ⟨_, _, rfl, by decide⟩
  · rw [encode_cons_ascii (by decide)]
    exact ⟨_, _, rfl, by decide⟩

end Timestamp

namespace Expiration

/-! ## Payloads cut short and payloads that go on -/

/-- A payload is neither empty nor a timestamp. -/
def Refused (payload : Bytes) : Prop := ∃ reason, decode payload = .error reason

/-- The payload of an instant: it is read as one, or it is what an instant is written as. -/
def IsTimed (payload : Bytes) : Prop :=
  (∃ i, decode payload = .ok (.at i)) ∨ ∃ i, payload = Bytes.ofString (encode (.at i))

variable {payload damaged more : Bytes} {i : Instant}

theorem ne_nil_of_decode (h : decode payload = .ok (.at i)) : payload ≠ [] := by
  rintro rfl
  cases h

theorem read_of_decode (h : decode payload = .ok (.at i)) : Timestamp.read payload = .ok i := by
  rcases eq_or_read_of_decode h with ⟨-, hnever⟩ | ⟨j, hread, hj⟩
  · cases hnever
  · cases hj
    exact hread

/-- A payload is refused if it is not empty and cannot be read. -/
theorem refused_of_read (hne : payload ≠ []) {e : Timestamp.Malformed}
    (h : Timestamp.read payload = .error e) : Refused payload := by
  cases hdecode : decode payload with
  | error reason => exact ⟨reason, hdecode⟩
  | ok expiration =>
    rcases eq_or_read_of_decode hdecode with ⟨hnil, -⟩ | ⟨j, hread, -⟩
    · exact absurd hnil hne
    · rw [h] at hread
      cases hread

/-- A payload that begins with something else than a digit is refused. -/
theorem refused_cons {b : UInt8} (hb : Timestamp.digit? b = none) (bytes : Bytes) :
    Refused (b :: bytes) := by
  obtain ⟨e, he⟩ := Timestamp.exists_read_eq_error hb bytes
  exact refused_of_read (List.cons_ne_nil b bytes) he

/-- The payload of an instant is read as one, or it begins with something else than a digit. -/
theorem IsTimed.cases (h : IsTimed payload) :
    (∃ i, decode payload = .ok (.at i)) ∨
      ∃ b bytes, payload = b :: bytes ∧ Timestamp.digit? b = none := by
  rcases h with hdecode | ⟨i, hi⟩
  · exact .inl hdecode
  · rw [hi]
    by_cases hyear : 0 ≤ i.year ∧ i.year ≤ 9999
    · exact .inl ⟨i, decode_encode (e := .at i) hyear⟩
    · rw [ofString_encode_at]
      exact .inr (Timestamp.exists_encode_write hyear)

/-- **A payload of an instant that goes on is refused.** -/
theorem IsTimed.refused_append (h : IsTimed payload) (hmore : more ≠ []) :
    Refused (payload ++ more) := by
  rcases h.cases with ⟨i, hdecode⟩ | ⟨b, bytes, rfl, hb⟩
  · exact refused_of_read (List.append_ne_nil_of_left_ne_nil (ne_nil_of_decode hdecode) more)
      (Timestamp.read_append (read_of_decode hdecode) hmore)
  · exact refused_cons hb _

/-- **A payload of an instant that is cut short is refused**, unless nothing is left of it. -/
theorem IsTimed.refused_of_append (h : IsTimed (damaged ++ more)) (hmore : more ≠ [])
    (hne : damaged ≠ []) : Refused damaged := by
  rcases h.cases with ⟨i, hdecode⟩ | ⟨b, bytes, hbytes, hb⟩
  · cases hcut : Timestamp.read damaged with
    | error e => exact refused_of_read hne hcut
    | ok j =>
      -- what is left would go on
      have hread := read_of_decode hdecode
      rw [Timestamp.read_append hcut hmore] at hread
      cases hread
  · obtain ⟨c, left, rfl⟩ := List.exists_cons_of_ne_nil hne
    rw [List.cons_append, List.cons.injEq] at hbytes
    exact hbytes.1 ▸ refused_cons hb left

/-- Some bytes are cut short, or others are added to them. -/
def IsDamage (payload damaged : Bytes) : Prop :=
  ∃ more, more ≠ [] ∧ (damaged ++ more = payload ∨ damaged = payload ++ more)

/-- Damage leaves nothing of the payload of an instant, or something that is refused. -/
theorem IsTimed.refused_of_isDamage (h : IsTimed payload) (hd : IsDamage payload damaged) :
    damaged = [] ∨ Refused damaged := by
  obtain ⟨more, hmore, rfl | rfl⟩ := hd
  · by_cases hnil : damaged = []
    · exact .inl hnil
    · exact .inr (h.refused_of_append hmore hnil)
  · exact .inr (h.refused_append hmore)

end Expiration

/-! ## What a check makes of them -/

namespace Proposals

open Program Expiration

variable {target : Key} {own : String} {now : Instant} {all : List Exchange} {result : Result Unit}

/-- A payload that is empty or refused counts for ever. -/
theorem payloadIsActive_of_refused {payload : Bytes} (h : payload = [] ∨ Refused payload)
    (now : Instant) : payloadIsActive payload now = true := by
  rcases h with rfl | ⟨reason, hreason⟩
  · rfl
  · rw [payloadIsActive, hreason]

/-- A payload is judged without a call. -/
theorem eq_of_transcript_judge {token : String} {payload : Bytes} {active : Bool}
    (h : (judge target token payload now).Transcript all active) :
    all = [] ∧ active = payloadIsActive payload now := by
  rw [judge] at h
  cases hdecode : decode payload with
  | ok e =>
    rw [hdecode] at h
    exact eq_of_transcript_done h
  | error reason =>
    rw [hdecode] at h
    obtain ⟨reply, later, rfl, hlater⟩ := exists_of_transcript_step h
    exact eq_of_transcript_done hlater

/-- What is left of a check once a proposal has been loaded: nothing but the conflict if it counts, and
otherwise the look at the names after it. -/
theorem exists_of_transcript_checkOne {other : String} {more : List String}
    (h : (checkOne target own now other more).Transcript all result) :
    ∃ (reply : Result Content) (later : List Exchange),
      all = ⟨.load (key target other), reply⟩ :: later ∧
      match payloadOf reply with
      | .error e => later = [] ∧ result = .error e
      | .ok none => (checkAgainst target own now more).Transcript later result
      | .ok (some bytes) =>
        if payloadIsActive bytes now then later = [] ∧ result = .error (.lockConflict target none)
        else (checkAgainst target own now more).Transcript later result := by
  rw [checkOne] at h
  obtain ⟨found, first, second, rfl, hfirst, hsecond⟩ := exists_of_transcript_bind h
  rw [payload_eq] at hfirst
  obtain ⟨reply, last, rfl, hlast⟩ := exists_of_transcript_step hfirst
  obtain ⟨rfl, rfl⟩ := eq_of_transcript_done hlast
  refine ⟨reply, second, rfl, ?_⟩
  cases hfound : payloadOf reply with
  | error e =>
    rw [hfound] at hsecond
    exact eq_of_transcript_done hsecond
  | ok found =>
    rw [hfound] at hsecond
    cases found with
    | none => exact hsecond
    | some bytes =>
      obtain ⟨active, judged, told, rfl, hjudged, htold⟩ := exists_of_transcript_bind hsecond
      obtain ⟨rfl, rfl⟩ := eq_of_transcript_judge hjudged
      simp only [List.nil_append]
      split
      · next hcounts =>
        rw [hcounts] at htold
        obtain ⟨reply, later, rfl, hlater⟩ := exists_of_transcript_step htold
        exact eq_of_transcript_done hlater
      · next hcounts =>
        rw [Bool.not_eq_true] at hcounts
        rw [hcounts] at htold
        obtain ⟨reply, later, rfl, hlater⟩ := exists_of_transcript_step htold
        exact hlater

section Load

variable {k : Key} {content : Content} {payload : Bytes}

/-- Looking at a proposal that counts ends in a conflict, whoever answers. -/
theorem conflict_of_transcript_checkAgainst {names : List String}
    (h : (checkAgainst target own now names).Transcript all result)
    (hload : (⟨.load k, .ok content⟩ : Exchange) ∈ all) (hdrain : content.drain = .ok payload)
    (hcounts : payloadIsActive payload now = true) :
    result = .error (.lockConflict target none) := by
  induction names generalizing all with
  | nil =>
    obtain ⟨rfl, -⟩ := eq_of_transcript_done h
    cases hload
  | cons other more ih =>
    by_cases hown : other = own
    · rw [hown, checkAgainst_cons_self] at h
      exact ih h hload
    rw [checkAgainst_cons_of_ne hown] at h
    obtain ⟨reply, later, rfl, hlater⟩ := exists_of_transcript_checkOne h
    rcases List.mem_cons.mp hload with hthis | hload
    -- it is this name's proposal that counts
    · cases hthis
      have hpayload : payloadOf (.ok content) = .ok (some payload) := by rw [payloadOf, hdrain]; rfl
      rw [hpayload] at hlater
      simp only [hcounts, if_true] at hlater
      exact hlater.2
    -- it is that of a later one, which is looked at only if this one lets the check go on
    · split at hlater
      · rw [hlater.1] at hload
        cases hload
      · exact ih hlater hload
      · split at hlater
        · exact hlater.2
        · exact ih hlater hload

/-- The tokens are found with one listing. -/
theorem exists_of_transcript_tokens {names : Result (List String)}
    (h : (tokens target).Transcript all names) :
    ∃ listed : Result (List Key), all = [⟨.list (root target), listed⟩] := by
  rw [tokens_eq] at h
  obtain ⟨listed, later, rfl, hlater⟩ := exists_of_transcript_step h
  obtain ⟨rfl, -⟩ := eq_of_transcript_done hlater
  exact ⟨listed, rfl⟩

/-- **A check that is answered with a payload that counts ends in a conflict**, whoever answers. -/
theorem conflict_of_transcript (h : (checkSingle target own).Transcript all result)
    (hload : (⟨.load k, .ok content⟩ : Exchange) ∈ all) (hdrain : content.drain = .ok payload)
    (hcounts : ∀ now, payloadIsActive payload now = true) :
    result = .error (.lockConflict target none) := by
  obtain ⟨now, later, rfl, hlater⟩ := exists_of_transcript_step h
  have hcheck : (checkAt target own now).Transcript _ result := hlater
  obtain ⟨names, listing, looking, rfl, hlisting, hlooking⟩ := exists_of_transcript_bind hcheck
  obtain ⟨listed, rfl⟩ := exists_of_transcript_tokens hlisting
  have hlooked : (⟨.load k, .ok content⟩ : Exchange) ∈ looking := by
    rcases List.mem_cons.mp hload with hlist | hlooked
    · cases hlist
    · exact hlooked
  cases names with
  | ok names => exact conflict_of_transcript_checkAgainst hlooking hlooked hdrain (hcounts now)
  | error e =>
    obtain ⟨rfl, -⟩ := eq_of_transcript_done hlooking
    cases hlooked

end Load

/-- A check that runs alone ends in a conflict if the payload of another token's proposal counts. -/
theorem run_checkSingle_of_counts {k : Key} {payload : Bytes} {world : World} (draw : Token)
    (hparent : k.parent = some (root target)) (hname : k.name ≠ some own)
    (hfind : world.store.entries.find? k = some payload)
    (hcounts : payloadIsActive payload world.clock = true) :
    (checkSingle target own).run (World.serve draw) world =
      (.error (.lockConflict target none), world) := by
  obtain ⟨other, rfl⟩ := exists_token hparent
  have hother : other.text ≠ own := fun h => hname (h ▸ name_key target other)
  have hcount : counts target world.store.entries world.clock other.text = true := by
    rw [counts, hfind]
    exact hcounts
  rw [run_checkSingle, verdict_eq_conflict_iff.mpr ⟨other, hother, hcount⟩]

/-- **A damaged proposal counts for ever.** Take what an instant is written as, or any payload that is
read as an instant. Every payload that is shorter, and that it begins with, is empty and never expires,
or cannot be decoded; every payload that is longer, and that begins with it, cannot be decoded.

So a payload that has been cut short or added to counts at every time. A check that is answered with
such a payload ends in a conflict, whoever answers its calls and whatever clock he shows. Run alone it
ends in a conflict if any other immediate child of the proposal root has such a payload. -/
theorem damage_blocks {payload : Bytes} (h : IsTimed payload) :
    (∀ damaged, damaged <+: payload → damaged ≠ payload →
      (damaged = [] ∧ decode damaged = .ok .never) ∨
        (damaged ≠ [] ∧ ∃ reason, decode damaged = .error reason)) ∧
    (∀ more, more ≠ [] → ∃ reason, decode (payload ++ more) = .error reason) ∧
    ∀ damaged, IsDamage payload damaged →
      (∀ now, payloadIsActive damaged now = true) ∧
      ∀ (target : Key) (own : String),
        (∀ all result k content, (checkSingle target own).Transcript all result →
          (⟨.load k, .ok content⟩ : Exchange) ∈ all → content.drain = .ok damaged →
            result = .error (.lockConflict target none)) ∧
        ∀ (draw : Token) (world : World) (k : Key), k.parent = some (root target) →
          k.name ≠ some own → world.store.entries.find? k = some damaged →
            (checkSingle target own).run (World.serve draw) world =
              (.error (.lockConflict target none), world) := by
  refine ⟨?_, fun more hmore => h.refused_append hmore, ?_⟩
  · rintro damaged ⟨more, rfl⟩ hproper
    have hmore : more ≠ [] := by
      rintro rfl
      exact hproper (List.append_nil damaged).symm
    by_cases hnil : damaged = []
    · exact .inl ⟨hnil, by rw [hnil]; rfl⟩
    · exact .inr ⟨hnil, h.refused_of_append hmore hnil⟩
  · intro damaged hdamage
    have hactive := payloadIsActive_of_refused (h.refused_of_isDamage hdamage)
    refine ⟨hactive, fun target own => ⟨?_, ?_⟩⟩
    · intro all result k content htranscript hload hdrain
      exact conflict_of_transcript htranscript hload hdrain hactive
    · intro draw world k hparent hname hfind
      exact run_checkSingle_of_counts draw hparent hname hfind (hactive world.clock)

/-- A payload that has lost its last byte, the offset, counts a century later. -/
theorem damage_blocks_of_lost_offset :
    let payload := Bytes.ofString "1970-01-01T00:00:00.5Z"
    let damaged := Bytes.ofString "1970-01-01T00:00:00.5"
    IsTimed payload ∧ (∃ reason, decode damaged = .error reason) ∧
      payloadIsActive damaged ⟨3155760000, 0, by decide⟩ = true := by
  intro payload damaged
  have htimed : IsTimed payload := .inl ⟨⟨0, 500000000, by decide⟩, by decide +kernel⟩
  obtain ⟨hcut, -, hactive⟩ := damage_blocks htimed
  have hlost : damaged ++ Bytes.ofString "Z" = payload := by decide +kernel
  have hproper : damaged ≠ payload := by decide +kernel
  have hne : damaged ≠ [] := by decide +kernel
  have hrefused := (hcut damaged ⟨_, hlost⟩ hproper).resolve_left fun hnil => hne hnil.1
  exact ⟨htimed, hrefused.2, (hactive damaged ⟨_, by decide, .inl hlost⟩).1 _⟩

end Proposals

end ObjectStore

import SuperSbc.CallControl.Redelivery

/-!
The talk time limit of a dialled call. The setup hands `max_call_seconds` to
the dialplan, which schedules a hangup on answer, but only for a positive
number: it reads zero as no limit. A setup that dials has checked that the
reservation is covered, which is not the same as a second of talk being
covered.
-/

namespace SuperSbc.CallControl

open FixedPoint Rating ReadCommitted Transaction Store Billing

/-- What the dialplan sets as `execute_on_answer`. -/
def executeOnAnswer (maxSecs : ℤ) : Option String :=
  if 0 < maxSecs then some s!"sched_hangup +{maxSecs} ALLOTTED_TIMEOUT" else none

/-- A response with a talk time limit the dialplan acts on. -/
structure TimeLimited (cfg : Config) (resp : SetupResponse) : Prop where
  positive : 0 < resp.maxCallSeconds
  capped : resp.maxCallSeconds * 1000000000 ≤ cfg.maxCallDuration
  scheduled : executeOnAnswer resp.maxCallSeconds =
    some s!"sched_hangup +{resp.maxCallSeconds} ALLOTTED_TIMEOUT"

/-- The configured maximum has a whole second, and what the connect fee of the
quoted rate leaves of the account's available amount pays for one, up to half
a unit of the sixteenth place. -/
def CoversASecond (cfg : Config) (now : Time) (r : Replies) (req : SetupRequest) (db : DB) :
    Prop :=
  ∃ cust s d sell accountId acc, Quoted cfg now r req db cust s d sell ∧
    findAccount db ⟨.customer, cust.id⟩ = some (accountId, acc) ∧
    1000000000 ≤ cfg.maxCallDuration ∧ sell.connectFee < acc.available ∧
    sell.ratePerMin * (1 - 1 / (2 * 10 ^ 16)) ≤ (acc.available - sell.connectFee) * 60

theorem capSeconds_pos_iff (cfg : Config) :
    0 < cfg.capSeconds ↔ 1000000000 ≤ cfg.maxCallDuration := by
  rcases capSeconds_cases cfg with ⟨hneg, hnone⟩ | hcap <;> omega

theorem capSeconds_mul_le (cfg : Config) (hcap : 0 < cfg.capSeconds) :
    cfg.capSeconds * 1000000000 ≤ cfg.maxCallDuration := by
  rcases capSeconds_cases cfg with ⟨hneg, hnone⟩ | hseconds <;> omega

variable {cfg : Config} {now : Time} {r : Replies} {req : SetupRequest} {db : DB}
  {resp : SetupResponse} {callUUID : UUID}

theorem timeLimited_iff_pos (hcap : resp.maxCallSeconds ≤ cfg.capSeconds) :
    TimeLimited cfg resp ↔ 0 < resp.maxCallSeconds := by
  refine ⟨fun h => h.positive, fun hpos => ⟨hpos, ?_, if_pos hpos⟩⟩
  have hmax := capSeconds_mul_le cfg (hpos.trans_le hcap)
  omega

/-- The talk time of a dialled call comes from the account as the setup found
it. -/
theorem Dialled.account (h : Dialled cfg now r req callUUID db resp) :
    ∃ accountId acc, findAccount db ⟨.customer, h.cust.id⟩ = some (accountId, acc) ∧
      0 < acc.available ∧
      resp.maxCallSeconds = maxCallSeconds acc.available (toRating h.sell) cfg.capSeconds := by
  obtain ⟨granted⟩ := granted_of_run h.reserved
  have hfound := granted.read_row
  rw [granted.store_seen] at hfound
  refine ⟨granted.accountId, granted.read, hfound, granted.affordable.1, ?_⟩
  rw [h.seconds_eq, granted.seconds_eq]

/-- A setup that dials returns a limit within the configured maximum, and the
dialplan schedules the hangup, exactly when the account covers a second. -/
theorem dial_limited_iff (cfg : Config) (now : Time) (r : Replies) (req : SetupRequest) (db : DB)
    (resp : SetupResponse) (hresponse : (setup cfg now r req db).response = .ok resp)
    (hdial : resp.action = .dial) :
    TimeLimited cfg resp ↔ CoversASecond cfg now r req db := by
  cases hcall : req.callUUID with
  | none =>
    simp only [setup, hcall] at hresponse
    cases hresponse
  | some callUUID =>
    obtain ⟨dialled⟩ := dialled_of_setup hcall hresponse hdial
    obtain ⟨accountId, acc, hfound, hpositive, hseconds⟩ := dialled.account
    have hrate := (toRating_valid dialled.sell).perMinute_nonneg
    have hpos := maxCallSeconds_pos_iff (toRating dialled.sell) cfg.capSeconds hpositive hrate
    rw [← hseconds, capSeconds_pos_iff] at hpos
    have hlimited : TimeLimited cfg resp ↔ 0 < resp.maxCallSeconds := by
      rcases le_or_gt cfg.capSeconds 0 with hcap | hcap
      · have hzero : resp.maxCallSeconds = 0 := by
          rw [hseconds, maxCallSeconds_eq, if_pos (.inl hcap)]
        exact ⟨fun h => h.positive, fun h => by omega⟩
      · refine timeLimited_iff_pos ?_
        rw [hseconds]
        exact maxCallSeconds_le_cap hcap.le
    rw [hlimited, hpos]
    constructor
    · rintro ⟨hcap, hfee, hsecond⟩
      exact ⟨_, _, _, _, accountId, acc, dialled.quoted, hfound, hcap, hfee, hsecond⟩
    · rintro ⟨cust, s, d, sell, otherId, other, hquoted, hother, hcap, hfee, hsecond⟩
      obtain ⟨rfl, -, -, rfl⟩ := dialled.quoted.unique hquoted
      obtain ⟨-, rfl⟩ := Prod.mk.inj (Option.some.inj (hfound.symm.trans hother))
      exact ⟨hcap, hfee, hsecond⟩

def sampleDial (rate : RateRow) (balance : Money) : SetupRun :=
  setup sampleConfig 0 (sampleReplies rate) (sampleRequest 42) (sampleStore balance)

theorem ok_of_toOption {ε α : Type} {x : Except ε α} {a : α} (h : x.toOption = some a) :
    x = .ok a := by
  cases x with
  | error e => cases h
  | ok found => exact congrArg _ (Option.some.inj h)

theorem dial_limited_iff_sampleDial :
    ∃ resp, (sampleDial sampleRate ⟨10000000, by decide⟩).response = .ok resp ∧
      resp.action = .dial ∧ (TimeLimited sampleConfig resp ↔ CoversASecond sampleConfig 0
        (sampleReplies sampleRate) (sampleRequest 42) (sampleStore ⟨10000000, by decide⟩)) := by
  have hdials : (sampleDial sampleRate ⟨10000000, by decide⟩).response.toOption.map (·.action) =
      some .dial := by
    decide +kernel
  obtain ⟨resp, hresponse, hdial⟩ := Option.map_eq_some_iff.mp hdials
  have hok := ok_of_toOption hresponse
  exact ⟨resp, hok, hdial, dial_limited_iff _ _ _ _ _ resp hok hdial⟩

def sampleFlatRate : RateRow :=
  { sampleRate with
    ratePerMin := 0
    connectFee := 10
    ratePerMin_nonneg := sampleRate.connectFee_nonneg
    ratePerMin_scale := sampleRate.connectFee_scale
    connectFee_nonneg := by norm_num
    connectFee_scale := by decide +kernel }

/-- With exactly the connect fee on the account the reservation is covered, the
call is dialled, and nothing ends it. -/
theorem flat_rate_dials_without_limit :
    ∃ resp, (sampleDial sampleFlatRate ⟨10000000, by decide⟩).response = .ok resp ∧
      1 ≤ sampleConfig.reserveMinutes ∧ 0 < sampleConfig.maxCallDuration ∧
      resp.action = .dial ∧ resp.maxCallSeconds = 0 ∧
      executeOnAnswer resp.maxCallSeconds = none := by
  have hdials : (sampleDial sampleFlatRate ⟨10000000, by decide⟩).response.toOption.map
      (fun resp => (resp.action, resp.maxCallSeconds)) = some (.dial, 0) := by
    decide +kernel
  obtain ⟨resp, hresponse, hfields⟩ := Option.map_eq_some_iff.mp hdials
  obtain ⟨hdial, hseconds⟩ := Prod.mk.inj hfields
  exact ⟨resp, ok_of_toOption hresponse, by decide, by decide, hdial, hseconds,
    by rw [hseconds]; rfl⟩

end SuperSbc.CallControl

import SuperSbc.Ledger.Promises

/-!
How much of their money calls can talk past. A single call overspends by an
increment at most, but calls that are open together may each be promised the
same money. The bound of one increment a call holds in the runs in which an
account can pay for the talk times of its open calls together; in all runs the
reservations bound what is overdrawn.
-/

namespace SuperSbc

open FixedPoint Rating ReadCommitted Store Billing CallControl Ledger

/-- A reservation of some amount covers the initial block. -/
theorem initial_le_of_reserveAmount {minutes : ℤ} {r : Rate} (hr : r.Valid)
    (hamount : reserveAmount minutes r ≠ 0) : r.initial ≤ (price (wrap (minutes * 60)) r).1 := by
  refine initial_le_billedSeconds hr.toValid (wrap_lt _) (not_le.mp (fun hnone => hamount ?_))
  exact if_pos hnone

theorem CallControl.Granted.price_le {seen : DB → Prop} {cfg : Config} {customerId : UUID}
    {rate : RateRow} {callUUID : UUID} {cdr : CDR} {before after : DB} {result : ReserveResult}
    (granted : Granted seen cfg customerId rate callUUID cdr before after result)
    (hreserved : result.reservedAmount ≠ 0) {billsec : ℤ}
    (hwithin : billsec ≤ result.maxCallSeconds) :
    (price billsec (toRating rate)).2 ≤ result.available + tolerance (toRating rate) := by
  obtain ⟨hpositive, hreserve⟩ := granted.affordable
  rw [granted.amount_eq] at hreserved
  rw [granted.seconds_eq] at hwithin
  rw [granted.available_eq]
  exact price_le_of_maxCallSeconds (toRating_valid rate) (fits_maxCallSeconds cfg rate _)
    (initial_le_of_reserveAmount (toRating_valid rate) hreserved) hpositive hreserve hwithin

/-- In every interleaving of jobs, a call whose reservation was granted with an
amount and a talk time, and that keeps to the talk time, costs at most what its
setup found available, one subsequent increment and a rounding unit. -/
theorem single_call_overrun (jobs : ℕ → Job) (db : DB) (σ : JobServer) (hrun : Runs jobs db σ)
    (c : JobCommit) (hc : c ∈ σ.history) (cfg : Config) (customerId callUUID : UUID)
    (rate : RateRow) (cdr : CDR) (result : ReserveResult)
    (hjob : jobs c.id = .reserve cfg customerId rate callUUID cdr)
    (hgranted : c.value = .reserved result) (hreserved : result.reservedAmount ≠ 0) (billsec : ℤ)
    (hwithin : billsec ≤ result.maxCallSeconds) :
    (price billsec (toRating rate)).2 ≤
      result.available + rate.ratePerMin * rate.subsequentIncrement / 60 + 1 / 10 ^ 6 := by
  have hgrants : ∀ c ∈ σ.history, ∀ result, jobs c.id = .reserve cfg customerId rate callUUID cdr →
      c.value = .reserved result → result.reservedAmount ≠ 0 → billsec ≤ result.maxCallSeconds →
      (price billsec (toRating rate)).2 ≤ result.available + tolerance (toRating rate) := by
    refine hrun.invariant (fun history _ => ∀ c ∈ history, ∀ result,
      jobs c.id = .reserve cfg customerId rate callUUID cdr → c.value = .reserved result →
      result.reservedAmount ≠ 0 → billsec ≤ result.maxCallSeconds →
      (price billsec (toRating rate)).2 ≤ result.available + tolerance (toRating rate))
      (by simp) ?_
    intro t history before after value _ hinv hdid c hc result hjob hvalue hreserved hwithin
    rcases List.mem_cons.mp hc with rfl | hearlier
    · dsimp only at hjob hvalue
      rw [hjob, hvalue] at hdid
      cases hdid with
      | reserve granted => exact granted.price_le hreserved hwithin
    · exact hinv c hearlier result hjob hvalue hreserved hwithin
  have hprice := hgrants c hc result hjob hgranted hreserved hwithin
  unfold tolerance at hprice
  rw [← add_assoc] at hprice
  exact hprice

def grantedFigures : JobResult → Option (Decimal × Decimal × ℤ)
  | .reserved result => some (result.available, result.reservedAmount, result.maxCallSeconds)
  | _ => none

theorem single_call_overrun_sampleCall :
    ∃ σ c result, Runs sampleCall (sampleStore ⟨10000000, by decide⟩) σ ∧ c ∈ σ.history ∧
      c.value = .reserved result ∧ result.available = 10 ∧ result.maxCallSeconds = 10000 ∧
      (price 10000 (toRating sampleRate)).2 ≤
        result.available + sampleRate.ratePerMin * sampleRate.subsequentIncrement / 60 +
          1 / 10 ^ 6 := by
  have hsetup : (runSerially sampleCall [0] (sampleStore ⟨10000000, by decide⟩)).map
      (fun final => final.2.map (fun c => (c.id, grantedFigures c.value))) =
        some [(0, some (10, 3 / 10, 10000))] := by
    decide +kernel
  obtain ⟨σ, hrun, hfigures⟩ := runs_serially hsetup
  obtain ⟨c, rest, hhistory, hc, -⟩ := List.map_eq_cons_iff.mp hfigures
  obtain ⟨hid, hvalue⟩ := Prod.mk.inj hc
  cases hresult : c.value with
  | reserved result =>
    rw [hresult] at hvalue
    obtain ⟨havailable, hamount, hseconds⟩ : _ ∧ _ ∧ _ := by
      simpa only [grantedFigures, Option.some.injEq, Prod.mk.injEq] using hvalue
    have hmem : c ∈ σ.history := List.mem_of_head? (congrArg List.head? hhistory)
    have hreserved : result.reservedAmount ≠ 0 := by
      rw [hamount]
      norm_num
    exact ⟨σ, c, result, hrun, hmem, hresult, havailable, hseconds,
      single_call_overrun sampleCall _ σ hrun c hmem _ _ _ sampleRate _ result
        (by rw [hid]; rfl) hresult hreserved 10000 hseconds.ge⟩
  | _ =>
    rw [hresult] at hvalue
    cases hvalue

/-- In every interleaving of jobs in which no call is set up twice and nobody
lowers a balance by hand, the funds of a customer's account never fall below
minus the overruns of the calls billed on it so far: what each cost beyond its
reservation. If the calls also keep to their talk time at unchanged rates and
the account could always pay for the talk times of its open calls, the bound is
one subsequent increment and a rounding unit a call. An account that starts
below zero counts from there. -/
theorem funds_never_below (jobs : ℕ → Job) (db : DB) (σ : JobServer) (id : UUID)
    (hrun : Runs jobs db σ) (hstart : NoReservations db) (hcustomer : IsCustomers db id)
    (hraised : NeverLowered jobs) (honce : (setUps jobs σ.history).Nodup) :
    min (funds db id) 0 - (σ.history.map (overrun jobs id)).sum ≤ funds σ.db id ∧
    (TalkTimeKept jobs db σ.history → PromisesCovered jobs id σ.history →
      min (funds db id) 0 - (σ.history.map (increment jobs id)).sum ≤ funds σ.db id) := by
  have hinv : (setUps jobs σ.history).Nodup → Solvent jobs db id σ.history σ.db ∧
      (TalkTimeKept jobs db σ.history → PromisesCovered jobs id σ.history →
        Promises jobs db id σ.history σ.db) := by
    refine hrun.invariant (fun history d => (setUps jobs history).Nodup →
      Solvent jobs db id history d ∧ (TalkTimeKept jobs db history →
        PromisesCovered jobs id history → Promises jobs db id history d))
      (fun _ => ⟨.initial hstart, fun _ _ => .initial hstart⟩) ?_
    intro t history before after result _ hinv hdid hnodup
    have hnodup' := hnodup.sublist (setUps_sublist jobs (List.suffix_cons _ history))
    obtain ⟨hsolvent, hpromises⟩ := hinv hnodup'
    have hframe : ∀ d, (∃ older, older <:+ history ∧ ((setUps jobs older).Nodup →
        Solvent jobs db id older d ∧ (TalkTimeKept jobs db older →
          PromisesCovered jobs id older → Promises jobs db id older d))) → Frame db d := by
      rintro d ⟨older, holder, hd⟩
      exact (hd (hnodup'.sublist (setUps_sublist jobs holder))).1.frame
    have hknown : ∀ d, (∃ older, older <:+ history ∧ ((setUps jobs older).Nodup →
        Solvent jobs db id older d ∧ (TalkTimeKept jobs db older →
          PromisesCovered jobs id older → Promises jobs db id older d))) →
        ∀ callUUID, d.row (.active callUUID) ≠ none → callUUID ∈ setUps jobs history := by
      rintro d ⟨older, holder, hd⟩ callUUID hsome
      have hsub := setUps_sublist jobs holder
      exact hsub.subset ((hd (hnodup'.sublist hsub)).1.books.known callUUID hsome)
    refine ⟨hsolvent.did hraised hcustomer hnodup hknown hframe hdid, fun hkept hcovered => ?_⟩
    have hkept' := hkept.of_suffix (List.suffix_cons _ history)
    have hcovered' := hcovered.of_suffix (List.suffix_cons _ history)
    refine (hpromises hkept' hcovered').did hsolvent.frame hraised hcustomer hkept hcovered
      hnodup (fun d hd callUUID hnew => ?_) ?_ hframe hdid
    · by_contra hsome
      exact hnew (hknown d hd callUUID hsome)
    · rintro d ⟨older, holder, hd⟩ callUUID hnew hnone
      have hsub := setUps_sublist jobs holder
      have hold := (hd (hnodup'.sublist hsub)).2 (hkept'.of_suffix holder)
        (hcovered'.of_suffix holder)
      exact hold.unrecorded callUUID (fun hmem => hnew (hsub.subset hmem)) hnone
  obtain ⟨hsolvent, hpromises⟩ := hinv honce
  refine ⟨?_, fun hkept hcovered => ?_⟩
  · linarith [hsolvent.covered, reconcile_reserved_nonneg σ.db id]
  · have hheld := hpromises hkept hcovered
    linarith [hheld.covered, promised_nonneg jobs id σ.history σ.db]

/-- The limit check of a history, executable. -/
def withinLimits (jobs : ℕ → Job) (history : List JobCommit) : Bool :=
  history.all (fun c => history.all (fun c' =>
    match jobs c.id, (jobs c'.id).setsUp, c'.value with
    | .bill _ _ h, some callUUID, .reserved r =>
      decide (callUUID = h.callUUID → h.billsec ≤ r.maxCallSeconds)
    | _, _, _ => true))

/-- Setups and hangups at the sample rate, on the sample store. -/
theorem talkTimeKept_sample {jobs : ℕ → Job} {balance : Money} {history : List JobCommit}
    (hjobs : ∀ t, (∃ callUUID, jobs t = sampleSetup callUUID sampleRate) ∨
      ∃ callUUID billsec, jobs t = sampleHangup callUUID billsec)
    (hwithin : withinLimits jobs history = true) :
    TalkTimeKept jobs (sampleStore balance) history where
  unrecorded t callUUID _ := by
    rw [sampleStore, Database.row_set_of_ne _ _ (by simp), Database.row_set_of_ne _ _ (by simp),
      Database.row_set_of_ne _ _ (by simp)]
    rfl
  sells t := by
    rcases hjobs t with ⟨callUUID, hjob⟩ | ⟨callUUID, billsec, hjob⟩
    · rw [hjob]
      refine ⟨9, sampleRate, 1, rfl, ?_, by decide +kernel, by decide +kernel⟩
      rw [sampleStore, Database.row_set_self]
    · rw [hjob]
      trivial
  within c hc e now h hjob c' hc' hsets r hr := by
    have hall := List.all_eq_true.mp (List.all_eq_true.mp hwithin c hc) c' hc'
    simpa [hjob, hsets, hr] using hall

theorem isCustomers_sampleStore (balance : Money) : IsCustomers (sampleStore balance) 1 := by
  refine ⟨sampleAccount balance, ?_, rfl⟩
  rw [sampleStore, Database.row_set_of_ne _ _ (by simp), Database.row_set_self]

theorem neverLowered_sample {jobs : ℕ → Job}
    (hjobs : ∀ t, (∃ callUUID, jobs t = sampleSetup callUUID sampleRate) ∨
      ∃ callUUID billsec, jobs t = sampleHangup callUUID billsec) : NeverLowered jobs := by
  intro t r hjob
  rcases hjobs t with ⟨callUUID, hsetup⟩ | ⟨callUUID, billsec, hhangup⟩
  · cases hsetup.symm.trans hjob
  · cases hhangup.symm.trans hjob

/-- Two calls that are open together. -/
def sampleOverlap : ℕ → Job
  | 0 => sampleSetup 42 sampleRate
  | 1 => sampleSetup 43 sampleRate
  | 2 => sampleHangup 42 10000
  | _ => sampleHangup 43 9700

theorem sampleOverlap_jobs (t : ℕ) :
    (∃ callUUID, sampleOverlap t = sampleSetup callUUID sampleRate) ∨
      ∃ callUUID billsec, sampleOverlap t = sampleHangup callUUID billsec := by
  match t with
  | 0 => exact .inl ⟨42, rfl⟩
  | 1 => exact .inl ⟨43, rfl⟩
  | 2 => exact .inr ⟨42, 10000, rfl⟩
  | _ + 3 => exact .inr ⟨43, 9700, rfl⟩

/-- A hundred euros pay for both calls up to the cap of four hours. -/
theorem funds_never_below_sampleOverlap :
    ∃ σ, Runs sampleOverlap (sampleStore ⟨100000000, by decide⟩) σ ∧
      σ.history.map (·.id) = [3, 2, 1, 0] ∧
      min (funds (sampleStore ⟨100000000, by decide⟩) 1) 0 -
        (σ.history.map (overrun sampleOverlap 1)).sum ≤ funds σ.db 1 ∧
      min (funds (sampleStore ⟨100000000, by decide⟩) 1) 0 -
        (σ.history.map (increment sampleOverlap 1)).sum ≤ funds σ.db 1 := by
  have hcalls : (runSerially sampleOverlap [0, 1, 2, 3] (sampleStore ⟨100000000, by decide⟩)).map
      (fun final => (final.2.map (·.id), setUps sampleOverlap final.2,
        withinLimits sampleOverlap final.2,
        final.2.tails.all (fun suffix => suffix.head?.all (fun c =>
          decide (promised sampleOverlap 1 suffix c.after ≤ funds c.after 1))))) =
      some ([3, 2, 1, 0], [43, 42], true, true) := by
    decide +kernel
  obtain ⟨σ, hrun, hfinal⟩ := runs_serially hcalls
  simp only [Prod.mk.injEq] at hfinal
  obtain ⟨horder, hsetUps, hwithin, hcovered⟩ := hfinal
  obtain ⟨hoverruns, hincrements⟩ := funds_never_below sampleOverlap _ σ 1 hrun
    (sampleStore_noReservations _) (isCustomers_sampleStore _)
    (neverLowered_sample sampleOverlap_jobs) (by rw [hsetUps]; decide)
  refine ⟨σ, hrun, horder, hoverruns, hincrements ?_ ?_⟩
  · exact talkTimeKept_sample sampleOverlap_jobs hwithin
  · intro c older callUUID hsuffix _ _
    have hmem := List.all_eq_true.mp hcovered (c :: older) ((List.mem_tails _ _).mpr hsuffix)
    simpa using hmem

/-- With ten euros the first call may talk for 10000 seconds and the second,
set up while the first is open, for 9700. Both do, and the account ends at
minus 9.74. -/
theorem overlapping_calls_overspend :
    ∃ σ, Runs sampleOverlap (sampleStore ⟨10000000, by decide⟩) σ ∧
      NoReservations (sampleStore ⟨10000000, by decide⟩) ∧
      IsCustomers (sampleStore ⟨10000000, by decide⟩) 1 ∧ NeverLowered sampleOverlap ∧
      (setUps sampleOverlap σ.history).Nodup ∧
      TalkTimeKept sampleOverlap (sampleStore ⟨10000000, by decide⟩) σ.history ∧
      funds (sampleStore ⟨10000000, by decide⟩) 1 = 10 ∧
      (σ.history.map (increment sampleOverlap 1)).sum = 2 * (6 / 100 + 1 / 10 ^ 6) ∧
      funds σ.db 1 = -974 / 100 := by
  have hcalls : (runSerially sampleOverlap [0, 1, 2, 3] (sampleStore ⟨10000000, by decide⟩)).map
      (fun final => (setUps sampleOverlap final.2, withinLimits sampleOverlap final.2,
        (final.2.map (increment sampleOverlap 1)).sum, funds final.1 1)) =
      some ([43, 42], true, 2 * (6 / 100 + 1 / 10 ^ 6), -974 / 100) := by
    decide +kernel
  obtain ⟨σ, hrun, hfinal⟩ := runs_serially hcalls
  simp only [Prod.mk.injEq] at hfinal
  obtain ⟨hsetUps, hwithin, hincrements, hfunds⟩ := hfinal
  refine ⟨σ, hrun, sampleStore_noReservations _, isCustomers_sampleStore _,
    neverLowered_sample sampleOverlap_jobs, ?_, talkTimeKept_sample sampleOverlap_jobs hwithin,
    by decide +kernel, hincrements, hfunds⟩
  rw [hsetUps]
  decide

end SuperSbc

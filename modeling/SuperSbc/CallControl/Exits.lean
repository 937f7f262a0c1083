import SuperSbc.CallControl.Setup

/-!
The ways a setup can end, said once. Results about setups go through
`setup_exit` and `routed_exit` and do not look at the steps again.
-/

namespace SuperSbc.CallControl

open ReadCommitted Store

variable (cfg : Config) (now : Time) (r : Replies) (req : SetupRequest) (callUUID : UUID)
  (db : DB)

def authOf : AuthResult × List SlotOp :=
  authorize cfg req.srcIP req.srcPort req.transport r.toAuthReplies

/-- A call that was admitted, screened and quoted, with what the reservation
is asked for. -/
structure Quoted (cust : Customer) (s : Screened) (d : Draft) (sell : RateRow) : Prop where
  auth : (authOf cfg r req).1 = .admitted cust
  screened : screen cfg r req cust (withCustomer cust (startDraft cfg now req)) = .ok s
  quoted : quoteSell cfg r cust s db = .ok (d, sell)

/-- A draft on which nothing is decided and for which nothing is reserved. -/
structure Draft.Fresh (customerId : Option UUID) (d : Draft) : Prop where
  action : d.resp.action = .reject
  customer : d.cdr.customerId = customerId
  billedAt : d.cdr.billedAt = none
  reserved : d.cdr.reservedAmount = 0

/-- How the steps before routing ended. -/
inductive SetupExit : SetupRun → Prop where
  | authFailed (cust : Option Customer) (hauth : (authOf cfg r req).1 = .failed cust) :
      SetupExit ⟨.error .authorize, db, (authOf cfg r req).2⟩
  | turnedAway (cust : Option Customer) (verdict : Reject) (detail : String) (j : Rejection)
      (hauth : (authOf cfg r req).1 = .rejected cust verdict detail)
      (hfresh : j.draft.Fresh (cust.map (·.id))) :
      SetupExit { reject cfg now r callUUID j db with slots := (authOf cfg r req).2 }
  | rejected (cust : Customer) (j : Rejection)
      (hauth : (authOf cfg r req).1 = .admitted cust)
      (hfresh : j.draft.Fresh (some cust.id)) :
      SetupExit { rejectAdmitted cfg now r cust.id callUUID j db with
        slots := (authOf cfg r req).2 ++ leaveAdmission cfg cust.id r.leaveCustomer r.leaveGlobal }
  | poor (cust : Customer) (s : Screened) (d : Draft) (sell : RateRow) (currency : String)
      (result : Option ReserveResult) (hquoted : Quoted cfg now r req db cust s d sell)
      (hreserve : execute r.reserveServed (reserve cfg cust.id sell callUUID d.cdr) db =
        .error (some (.error (.insufficientFunds result)))) :
      SetupExit { rejectAdmitted cfg now r cust.id callUUID
          (noFunds cfg currency sell result d) db with
        slots := (authOf cfg r req).2 ++ leaveAdmission cfg cust.id r.leaveCustomer r.leaveGlobal }
  | lookupFailed (cust : Customer) (group : UUID) (called message : String)
      (hauth : (authOf cfg r req).1 = .admitted cust)
      (hlookup : r.matchRate group called = .error message) :
      SetupExit ⟨.error (.lookup message), db, (authOf cfg r req).2⟩
  | storeFailed (cust : Customer) (s : Screened) (d : Draft) (sell : RateRow)
      (fault : Option (Fault StoreError)) (hquoted : Quoted cfg now r req db cust s d sell)
      (hreserve : execute r.reserveServed (reserve cfg cust.id sell callUUID d.cdr) db =
        .error fault)
      (hfault : ∀ result, fault ≠ some (.error (.insufficientFunds result))) :
      SetupExit ⟨.error (.store fault), db, (authOf cfg r req).2⟩
  | reserved (cust : Customer) (s : Screened) (d : Draft) (sell : RateRow) (rr : ReserveResult)
      (after : DB) (hquoted : Quoted cfg now r req db cust s d sell)
      (hreserve : execute r.reserveServed (reserve cfg cust.id sell callUUID d.cdr) db =
        .ok (rr, after)) :
      SetupExit { routeReserved cfg r callUUID cust s sell (withReservation rr d) after with
        slots := (authOf cfg r req).2 ++
          (routeReserved cfg r callUUID cust s sell (withReservation rr d) after).slots }

inductive RoutedExit (customerId : UUID) (d : Draft) : SetupRun → Prop where
  | failed (message : String) : RoutedExit customerId d ⟨.error (.lookup message), db, []⟩
  | noRoute (j : Rejection) (haction : j.draft.resp.action = d.resp.action) :
      RoutedExit customerId d (rejectReserved cfg r customerId callUUID j db)
  | dialled (resp : SetupResponse) (haction : resp.action = .dial)
      (hseconds : resp.maxCallSeconds = d.resp.maxCallSeconds)
      (hsell : resp.sell = d.resp.sell) : RoutedExit customerId d ⟨.ok resp, db, []⟩

variable {cfg now r req callUUID db}

theorem setVars_fields (resp : SetupResponse) (vars : List (String × String)) :
    (resp.setVars vars).maxCallSeconds = resp.maxCallSeconds ∧
      (resp.setVars vars).sell = resp.sell ∧ (resp.setVars vars).action = resp.action := by
  induction vars generalizing resp with
  | nil => exact ⟨rfl, rfl, rfl⟩
  | cons v rest ih => exact ih (resp.setVar v.1 v.2)

theorem routed_exit (cust : Customer) (s : Screened) (sell : RateRow) (d : Draft) :
    RoutedExit cfg r callUUID db cust.id d (routeReserved cfg r callUUID cust s sell d db) := by
  unfold routeReserved
  cases r.routeWith cust s.called s.caller sell s.forwardIdentity with
  | error message => exact .failed message
  | ok found =>
    dsimp only
    obtain ⟨hseconds, hsell, haction⟩ := setVars_fields { d.resp with skipped := found.skipped }
      (r.responseVars cust.id)
    cases found.route with
    | none => exact .noRoute _ haction
    | some route =>
      dsimp only
      split_ifs
      · exact .noRoute _ haction
      · exact .dialled _ rfl hseconds hsell

section Drafts

variable {cust : Customer} {customerId : Option UUID}

variable {d : Draft} {s : Screened}

/-- A step that goes on or gives up with a fresh draft. -/
def Undecided {α : Type} (customerId : Option UUID) (draft : α → Draft) :
    Except Rejection α → Prop
  | .error j => j.draft.Fresh customerId
  | .ok a => (draft a).Fresh customerId

theorem Undecided.bind {α β : Type} {f : α → Draft} {g : β → Draft} {x : Except Rejection α}
    {k : α → Except Rejection β} (hx : Undecided customerId f x)
    (hk : ∀ a, (f a).Fresh customerId → Undecided customerId g (k a)) :
    Undecided customerId g (x >>= k) := by
  cases x with
  | error j => exact hx
  | ok a => exact hk a hx

theorem checkPolicy_undecided (hd : d.Fresh customerId) :
    Undecided customerId id (checkPolicy req cust d) := by
  unfold checkPolicy
  dsimp only
  split_ifs
  all_goals exact ⟨hd.action, hd.customer, hd.billedAt, hd.reserved⟩

theorem Draft.Fresh.withArea (hd : d.Fresh customerId) (called : String) :
    (withArea r called d).Fresh customerId := by
  unfold CallControl.withArea
  cases r.area called with
  | none => exact hd
  | some area =>
    dsimp only
    split_ifs
    all_goals exact ⟨hd.action, hd.customer, hd.billedAt, hd.reserved⟩

theorem normalizeNumbers_undecided (hd : d.Fresh customerId) :
    Undecided customerId Screened.draft (normalizeNumbers r req cust d) := by
  unfold normalizeNumbers
  dsimp only
  split
  · exact hd
  · refine Draft.Fresh.withArea (r := r) (d := _) ?_ _
    exact ⟨hd.action, hd.customer, hd.billedAt, hd.reserved⟩

theorem verifyIdentity_undecided (hs : s.draft.Fresh customerId) :
    Undecided customerId Screened.draft (verifyIdentity cfg r cust s) := by
  unfold verifyIdentity
  split
  · exact hs
  · exact hs
  · dsimp only
    split_ifs
    all_goals exact ⟨hs.action, hs.customer, hs.billedAt, hs.reserved⟩

theorem checkBlocklist_undecided (hs : s.draft.Fresh customerId) :
    Undecided customerId Screened.draft (checkBlocklist r cust s) := by
  unfold checkBlocklist
  split_ifs
  · split
    · exact hs
    · exact hs
  · exact hs

theorem screen_undecided (hd : d.Fresh customerId) :
    Undecided customerId Screened.draft (screen cfg r req cust d) := by
  unfold screen
  refine (checkPolicy_undecided hd).bind (fun d₁ hd₁ => ?_)
  refine (normalizeNumbers_undecided hd₁).bind (fun s₁ hs₁ => ?_)
  exact (verifyIdentity_undecided hs₁).bind (fun s₂ hs₂ => checkBlocklist_undecided hs₂)

theorem startDraft_fresh (cfg : Config) (now : Time) (req : SetupRequest) :
    (startDraft cfg now req).Fresh none := ⟨rfl, rfl, rfl, rfl⟩

theorem withCustomer_fresh (hd : d.Fresh customerId) (cust : Customer) :
    (withCustomer cust d).Fresh (some cust.id) := ⟨hd.action, rfl, hd.billedAt, hd.reserved⟩

/-- A quote, or the rejection in place of one, leaves the draft fresh. -/
theorem quoteSell_fresh (cfg : Config) (r : Replies) (cust : Customer) (db : DB)
    (hs : s.draft.Fresh customerId) :
    (∀ j, quoteSell cfg r cust s db = .error (.rejected j) → j.draft.Fresh customerId) ∧
    (∀ d sell, quoteSell cfg r cust s db = .ok (d, sell) → d.Fresh customerId) := by
  unfold quoteSell
  dsimp only
  cases sellRateFor cust (r.matchRate · s.called) with
  | error message => exact ⟨by simp, by simp⟩
  | ok found =>
    cases found with
    | none =>
      refine ⟨fun j hj => ?_, by simp⟩
      obtain rfl := NoQuote.rejected.inj (Except.error.inj hj)
      exact hs
    | some matched =>
      dsimp only
      split
      · refine ⟨fun j hj => ?_, by simp⟩
        obtain rfl := NoQuote.rejected.inj (Except.error.inj hj)
        exact hs
      · refine ⟨by simp, fun d sell hd => ?_⟩
        obtain ⟨rfl, rfl⟩ := Prod.mk.inj (Except.ok.inj hd)
        exact ⟨hs.action, hs.customer, hs.billedAt, hs.reserved⟩

theorem Quoted.screened_fresh {sell : RateRow} (h : Quoted cfg now r req db cust s d sell) :
    s.draft.Fresh (some cust.id) := by
  have hscreen : Undecided (some cust.id) Screened.draft
      (screen cfg r req cust (withCustomer cust (startDraft cfg now req))) :=
    screen_undecided (withCustomer_fresh (startDraft_fresh cfg now req) cust)
  rw [h.screened] at hscreen
  exact hscreen

theorem Quoted.fresh {sell : RateRow} (h : Quoted cfg now r req db cust s d sell) :
    d.Fresh (some cust.id) :=
  (quoteSell_fresh cfg r cust db h.screened_fresh).2 d sell h.quoted

theorem noFunds_draft (cfg : Config) (currency : String) (sell : RateRow)
    (result : Option ReserveResult)
    (d : Draft) :
    (noFunds cfg currency sell result d).draft.resp.action = d.resp.action ∧
      (noFunds cfg currency sell result d).draft.cdr.customerId = d.cdr.customerId := by
  cases result with
  | none => exact ⟨rfl, rfl⟩
  | some rr =>
    refine ⟨rfl, ?_⟩
    simp only [noFunds]
    split_ifs <;> rfl

end Drafts

variable {cust : Customer} {s : Screened} {d : Draft} {sell : RateRow}

/-- What a quote puts on the record: the matched row, converted, and the
exchange rate it was converted with. -/
structure Sale (r : Replies) (cust : Customer) (called : String) (cdr : CDR)
    (sell : RateRow) where
  group : UUID
  matched : RateRow
  m : Multiplier
  deck : Option RateGroup
  currency : String
  group_eq : cust.rateGroupId = some group
  matched_eq : r.matchRate group called = .ok (some matched)
  converted : convertRate deck r.fxTable matched currency = some (sell, m)
  sellRateId_eq : cdr.sellRateId = some sell.id
  sellRate_eq : cdr.sellRatePerMin = some sell.ratePerMin
  sellFX_eq : cdr.sellFX = m

def quoteOf (sell : RateRow) : SellRate :=
  ⟨sell.id, sell.dialPrefix, sell.destination, sell.ratePerMin, sell.connectFee,
    sell.initialIncrement, sell.subsequentIncrement, sell.minDuration⟩

theorem quoteSell_sale (h : quoteSell cfg r cust s db = .ok (d, sell)) :
    d.resp.sell = some (quoteOf sell) ∧ Nonempty (Sale r cust s.called d.cdr sell) := by
  unfold quoteSell at h
  dsimp only at h
  cases hrate : sellRateFor cust (r.matchRate · s.called) with
  | error message =>
    rw [hrate] at h
    cases h
  | ok found =>
    rw [hrate] at h
    cases found with
    | none => cases h
    | some matched =>
      dsimp only at h
      split at h
      · cases h
      · rename_i conv m hconv
        obtain ⟨rfl, rfl⟩ := Prod.mk.inj (Except.ok.inj h)
        unfold sellRateFor at hrate
        split at hrate
        · cases hrate
        · rename_i group hgroup
          exact ⟨rfl, ⟨group, matched, m, _, _, hgroup, hrate, hconv, rfl, rfl, rfl⟩⟩

theorem quoteSell_failed {message : String}
    (h : quoteSell cfg r cust s db = .error (.failed message)) :
    ∃ group, r.matchRate group s.called = .error message := by
  unfold quoteSell at h
  dsimp only at h
  cases hrate : sellRateFor cust (r.matchRate · s.called) with
  | error found =>
    rw [hrate] at h
    obtain rfl := NoQuote.failed.inj (Except.error.inj h)
    unfold sellRateFor at hrate
    split at hrate
    · cases hrate
    · rename_i group _
      exact ⟨group, hrate⟩
  | ok found =>
    rw [hrate] at h
    cases found with
    | none => cases h
    | some matched =>
      dsimp only at h
      split at h <;> cases h

theorem setup_exit (hcall : req.callUUID = some callUUID) :
    SetupExit cfg now r req callUUID db (setup cfg now r req db) := by
  unfold setup
  rw [hcall]
  dsimp only
  cases hauth : (authOf cfg r req).1 with
  | failed cust =>
    rw [authOf] at hauth
    rw [hauth]
    exact .authFailed cust hauth
  | rejected cust verdict detail =>
    rw [authOf] at hauth
    rw [hauth]
    cases cust with
    | none => exact .turnedAway none verdict detail _ hauth (startDraft_fresh cfg now req)
    | some cust =>
      exact .turnedAway (some cust) verdict detail _ hauth
        (withCustomer_fresh (startDraft_fresh cfg now req) cust)
  | admitted cust =>
    have hauth' := hauth
    rw [authOf] at hauth'
    rw [hauth']
    dsimp only
    unfold setupAdmitted
    have hundecided : Undecided (some cust.id) Screened.draft
        (screen cfg r req cust (withCustomer cust (startDraft cfg now req))) :=
      screen_undecided (withCustomer_fresh (startDraft_fresh cfg now req) cust)
    cases hscreen : screen cfg r req cust (withCustomer cust (startDraft cfg now req)) with
    | error j =>
      rw [hscreen] at hundecided
      exact .rejected cust j hauth hundecided
    | ok s =>
      rw [hscreen] at hundecided
      dsimp only
      cases hquote : quoteSell cfg r cust s db with
      | error missing =>
        cases missing with
        | failed message =>
          dsimp only
          rw [List.append_nil]
          obtain ⟨group, hlookup⟩ := quoteSell_failed hquote
          exact .lookupFailed cust group s.called message hauth hlookup
        | rejected j =>
          exact .rejected cust j hauth
            ((quoteSell_fresh cfg r cust db hundecided).1 j hquote)
      | ok quote =>
        obtain ⟨d, sell⟩ := quote
        have hquoted : Quoted cfg now r req db cust s d sell := ⟨hauth, hscreen, hquote⟩
        dsimp only
        unfold reserveQuoted
        split
        · rename_i result hreserve
          exact .poor cust s d sell _ result hquoted hreserve
        · rename_i fault hfault hreserve
          dsimp only
          rw [List.append_nil]
          exact .storeFailed cust s d sell fault hquoted hreserve
            hfault
        · rename_i rr after hreserve
          exact .reserved cust s d sell rr after hquoted hreserve

theorem setup_of_reserved {rr : ReserveResult} {after : DB} (hcall : req.callUUID = some callUUID)
    (hquoted : Quoted cfg now r req db cust s d sell)
    (hreserve : execute r.reserveServed (reserve cfg cust.id sell callUUID d.cdr) db =
      .ok (rr, after)) :
    (setup cfg now r req db).db =
      (routeReserved cfg r callUUID cust s sell (withReservation rr d) after).db := by
  have hauth := hquoted.auth
  rw [authOf] at hauth
  simp only [setup, hcall, hauth, setupAdmitted, hquoted.screened, hquoted.quoted, reserveQuoted,
    hreserve]

theorem execute_ok {α : Type} {served : Bool} {tx : Tx α} {value : α} {after : DB}
    (h : execute served tx db = .ok (value, after)) :
    served = true ∧ tx.run db = .ok (value, after) := by
  unfold execute at h
  split_ifs at h with hserved
  cases hrun : tx.run db with
  | error fault =>
    rw [hrun] at h
    cases h
  | ok done =>
    rw [hrun] at h
    exact ⟨hserved, congrArg _ (Except.ok.inj h)⟩

theorem reject_db {j : Rejection} (hknown : db.row (.cdr callUUID) ≠ none) :
    (reject cfg now r callUUID j db).db = db := by
  unfold reject
  dsimp only
  split
  · rename_i after hexecute
    obtain ⟨-, hrun⟩ := execute_ok hexecute
    unfold Transaction.run at hrun
    rw [exec_insertCDRSetup] at hrun
    cases hrow : setupRow (rejectedCDR cfg now j) with
    | none =>
      rw [hrow] at hrun
      cases hrun
    | some row =>
      rw [hrow] at hrun
      dsimp only at hrun
      rw [Database.apply_nil, if_neg (by simpa using hknown)] at hrun
      exact (Prod.mk.inj (Except.ok.inj hrun)).2.symm
  · rfl

theorem Quoted.unique {cust' : Customer} {s' : Screened} {d' : Draft} {sell' : RateRow}
    (h : Quoted cfg now r req db cust s d sell) (h' : Quoted cfg now r req db cust' s' d' sell') :
    cust' = cust ∧ s' = s ∧ d' = d ∧ sell' = sell := by
  obtain rfl : cust' = cust := AuthResult.admitted.inj (h'.auth.symm.trans h.auth)
  obtain rfl : s' = s := Except.ok.inj (h'.screened.symm.trans h.screened)
  obtain ⟨rfl, rfl⟩ := Prod.mk.inj (Except.ok.inj (h'.quoted.symm.trans h.quoted))
  exact ⟨rfl, rfl, rfl, rfl⟩

theorem withReject_action (step : String) (verdict : Reject) (detail : String)
    (resp : SetupResponse) : (withReject step verdict detail resp).action = resp.action := by
  unfold withReject
  dsimp only
  split_ifs <;> rfl

structure Dialled (cfg : Config) (now : Time) (r : Replies) (req : SetupRequest) (callUUID : UUID)
    (db : DB) (resp : SetupResponse) where
  cust : Customer
  screened : Screened
  draft : Draft
  sell : RateRow
  result : ReserveResult
  after : DB
  quoted : Quoted cfg now r req db cust screened draft sell
  reserved : (reserve cfg cust.id sell callUUID draft.cdr).run db = .ok (result, after)
  db_eq : (setup cfg now r req db).db = after
  seconds_eq : resp.maxCallSeconds = result.maxCallSeconds
  sell_eq : resp.sell = some (quoteOf sell)

theorem dialled_of_setup {resp : SetupResponse} (hcall : req.callUUID = some callUUID)
    (hresponse : (setup cfg now r req db).response = .ok resp) (hdial : resp.action = .dial) :
    Nonempty (Dialled cfg now r req callUUID db resp) := by
  have hexit : SetupExit cfg now r req callUUID db (setup cfg now r req db) := setup_exit hcall
  generalize hrun : setup cfg now r req db = run at hexit hresponse
  cases hexit with
  | authFailed | lookupFailed | storeFailed => cases hresponse
  | turnedAway _ _ _ j _ hfresh | rejected _ j _ hfresh =>
    obtain rfl := Except.ok.inj hresponse
    rw [withReject_action, hfresh.action] at hdial
    cases hdial
  | poor cust s d sell currency result hquoted =>
    obtain rfl := Except.ok.inj hresponse
    have hreject := (noFunds_draft cfg currency sell result d).1
    rw [withReject_action, hreject, hquoted.fresh.action] at hdial
    cases hdial
  | reserved cust s d sell rr after hquoted hreserve =>
    have hrouted : RoutedExit cfg r callUUID after cust.id (withReservation rr d)
        (routeReserved cfg r callUUID cust s sell (withReservation rr d) after) :=
      routed_exit cust s sell _
    have hdb := congrArg SetupRun.db hrun
    generalize routeReserved cfg r callUUID cust s sell (withReservation rr d) after = routed
      at hrouted hresponse hdb
    cases hrouted with
    | failed message => cases hresponse
    | noRoute j haction =>
      obtain rfl := Except.ok.inj hresponse
      have hreject : j.draft.resp.action = .reject := haction.trans hquoted.fresh.action
      rw [withReject_action, hreject] at hdial
      cases hdial
    | dialled found _ hseconds hsell =>
      obtain rfl := Except.ok.inj hresponse
      have hshown : found.sell = some (quoteOf sell) :=
        hsell.trans (quoteSell_sale hquoted.quoted).1
      exact ⟨⟨cust, s, d, sell, rr, after, hquoted, (execute_ok hreserve).2, hdb, hseconds,
        hshown⟩⟩

/-! A customer and a set of replies on which setups can be executed. -/

def sampleCustomer : Customer where
  id := 7
  name := "acme"
  status := .active
  rateGroupId := some 3
  routeGroupId := some 4
  maxConcurrentCalls := 0
  maxCPS := 0
  allowedCodecs := ["PCMA"]
  techPrefix := none
  defaultCountryCode := none
  dtmfMode := .rfc2833
  srtpMode := .optional
  requireTLS := false
  stirMode := .ignore
  trustPAI := false
  blockedPrefixesEnabled := false

theorem sampleCustomer_unique : ([sampleCustomer].map (·.id)).Nodup := List.nodup_singleton _

def sampleReplies (rate : RateRow) : Replies where
  ipEntry := none
  customerByID _ := none
  customerByIP := .ok sampleCustomer
  admitCustomer := ⟨some ⟨1, 1⟩, true⟩
  admitGlobal := ⟨some ⟨1, 1⟩, true⟩
  leaveCustomer := true
  unicode := .ascii
  normalize _ number := .ok number
  normalizeCaller _ number := number
  area _ := none
  stir := none
  blocked _ _ := none
  matchRate _ _ := .ok (some rate)
  fxTable := none
  deckRead := true
  accountRead := true
  reserveServed := true
  releaseServed := true
  releasedAt := 0
  recordServed := true
  leaveGlobal := true
  routeWith _ _ _ _ _ := .ok ⟨some ⟨5, "49", "Germany"⟩, [⟨6, "sofia/gateway/carrier/49"⟩], []⟩
  responseVars _ := []

def sampleRequest (callUUID : UUID) : SetupRequest where
  callUUID := some callUUID
  callUUIDText := Text.uuidText callUUID
  srcIP := "192.0.2.1"
  srcPort := 5060
  transport := "udp"
  caller := "4930111111"
  called := "4930123456"
  sipCallID := ""
  srtpOffered := false
  privacy := false
  paiNumber := ""

end SuperSbc.CallControl

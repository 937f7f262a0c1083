import SuperSbc.Interleaving.Trace
import SuperSbc.Model
import SuperSbc.Text.Reading

/-!
The second factor of an operator's account: how it is set up, confirmed and
taken off, and the change of password that stands beside it. Secret and flag
are written by one statement, `SetTOTP`, whatever the account had before.

Codes and passwords are checked by functions that are parameters. The clock is
part of a request, since a code is valid for a while only.
-/

namespace SuperSbc.Admin

open Interleaving Text

/-- The columns of `users` these requests read and write. -/
structure Credentials where
  passwordHash : String
  totpSecret : Option String
  totpEnabled : Bool
deriving DecidableEq

/-- `totp.Validate` at a moment, and `VerifyPassword`. -/
structure CodeChecks where
  validate : String → String → Time → Bool
  verifyPassword : String → String → Bool

/-- A new secret and a new hash are random, so they come with the request;
`none` is a failure to draw one. -/
inductive FactorRequest where
  | totpSetup (generated : Option String)
  | totpConfirm (code : String)
  | totpDisable (code : String)
  | changePassword (currentPassword newPassword : String) (hash : Option String)
deriving DecidableEq

/-- The code a request carries. -/
def FactorRequest.code : FactorRequest → Option String
  | .totpConfirm code | .totpDisable code => some code
  | .totpSetup _ | .changePassword _ _ _ => none

/-- A request of the user, with its time and what the database does: whether
the user is found and whether the update goes through. -/
structure FactorCall where
  request : FactorRequest
  now : Time
  found : Bool := true
  stored : Bool := true
deriving DecidableEq

def setTOTP (secret : Option String) (enabled : Bool) (u : Credentials) : Credentials :=
  { u with totpSecret := secret, totpEnabled := enabled }

/-- The status a request ends with when it asks for an update: a failed one is
a server error and changes nothing. -/
def update (stored : Bool) (status : ℕ) (u u' : Credentials) : ℕ × Credentials :=
  if stored then (status, u') else (500, u)

section Handlers

variable (k : CodeChecks)

def trimmed (code : String) : String := String.ofList (trimSpace code.toList)

def totpSetup (c : FactorCall) (generated : Option String) (u : Credentials) : ℕ × Credentials :=
  if c.found then
    match generated with
    | none => (500, u)
    | some secret => update c.stored 200 u (setTOTP (some secret) false u)
  else (401, u)

def totpConfirm (c : FactorCall) (code : String) (u : Credentials) : ℕ × Credentials :=
  if code = "" then (400, u)
  else if c.found then
    match u.totpSecret with
    | none => (400, u)
    | some secret =>
      if k.validate (trimmed code) secret c.now then
        update c.stored 204 u (setTOTP (some secret) true u)
      else (400, u)
  else (401, u)

def totpDisable (c : FactorCall) (code : String) (u : Credentials) : ℕ × Credentials :=
  if code = "" then (400, u)
  else if c.found then
    match u.totpSecret with
    | none => (400, u)
    | some secret =>
      if u.totpEnabled && k.validate (trimmed code) secret c.now then
        update c.stored 204 u (setTOTP none false u)
      else (400, u)
  else (401, u)

def changePassword (c : FactorCall) (currentPassword newPassword : String) (hash : Option String)
    (u : Credentials) : ℕ × Credentials :=
  if currentPassword = "" ∨ newPassword.length < 10 then (400, u)
  else if c.found then
    if k.verifyPassword u.passwordHash currentPassword then
      match hash with
      | none => (500, u)
      | some hash => update c.stored 204 u { u with passwordHash := hash }
    else (403, u)
  else (401, u)

/-- The status of a request and the account after it. -/
def handle (c : FactorCall) (u : Credentials) : ℕ × Credentials :=
  match c.request with
  | .totpSetup generated => totpSetup c generated u
  | .totpConfirm code => totpConfirm k c code u
  | .totpDisable code => totpDisable k c code u
  | .changePassword currentPassword newPassword hash =>
    changePassword k c currentPassword newPassword hash u

def factorStep (c : FactorCall) (u : Credentials) : Option Credentials := some (handle k c u).2

/-- The second factor is taken off or replaced. -/
def LosesFactor (u u' : Credentials) : Prop :=
  u.totpEnabled = true ∧ (u'.totpEnabled = false ∨ u'.totpSecret ≠ u.totpSecret)

/-- The request carries a code for the secret the account had. -/
def HoldsFactor (c : FactorCall) (u : Credentials) : Prop :=
  ∃ code secret, c.request.code = some code ∧ u.totpSecret = some secret ∧
    k.validate (trimmed code) secret c.now = true

/-- The request draws a new secret for an account whose second factor is on,
and the update goes through. -/
def Restarts (c : FactorCall) (u : Credentials) : Prop :=
  u.totpEnabled = true ∧ c.found = true ∧ c.stored = true ∧
    ∃ secret, c.request = .totpSetup (some secret)

end Handlers

variable {k : CodeChecks} {c : FactorCall} {u : Credentials}

theorem not_losesFactor_update {stored : Bool} {status : ℕ} {u' : Credentials}
    (hkept : u.totpEnabled = true → u'.totpEnabled = true ∧ u'.totpSecret = u.totpSecret) :
    ¬ LosesFactor u (update stored status u u').2 := by
  rintro ⟨henabled, hlost⟩
  obtain ⟨hon, hsecret⟩ := hkept henabled
  cases stored with
  | true => simp [update, hon, hsecret] at hlost
  | false => simp [update, henabled] at hlost

theorem not_losesFactor_refl : ¬ LosesFactor u u := by
  rintro ⟨henabled, hoff | hother⟩
  · rw [henabled] at hoff
    cases hoff
  · exact hother rfl

theorem losesFactor_totpSetup_iff (generated : Option String) :
    LosesFactor u (totpSetup c generated u).2 ↔
      u.totpEnabled = true ∧ c.found = true ∧ c.stored = true ∧ generated ≠ none := by
  unfold totpSetup
  cases c.found with
  | false => simpa using not_losesFactor_refl
  | true =>
    cases generated with
    | none => simpa using not_losesFactor_refl
    | some secret =>
      cases c.stored with
      | false => simpa [update] using not_losesFactor_refl
      | true => simp [update, setTOTP, LosesFactor]

theorem not_losesFactor_totpConfirm (code : String) :
    ¬ LosesFactor u (totpConfirm k c code u).2 := by
  unfold totpConfirm
  split_ifs
  · exact not_losesFactor_refl
  · split
    · exact not_losesFactor_refl
    · rename_i secret hsecret
      split_ifs
      · exact not_losesFactor_update (fun _ => ⟨rfl, hsecret.symm⟩)
      · exact not_losesFactor_refl
  · exact not_losesFactor_refl

theorem losesFactor_totpDisable {code : String}
    (hlost : LosesFactor u (totpDisable k c code u).2) :
    ∃ secret, u.totpSecret = some secret ∧ k.validate (trimmed code) secret c.now = true := by
  unfold totpDisable at hlost
  split_ifs at hlost
  · exact absurd hlost not_losesFactor_refl
  · split at hlost
    · exact absurd hlost not_losesFactor_refl
    · rename_i secret hsecret
      split_ifs at hlost with hvalid
      · exact ⟨secret, hsecret, (Bool.and_eq_true_iff.mp hvalid).2⟩
      · exact absurd hlost not_losesFactor_refl
  · exact absurd hlost not_losesFactor_refl

theorem not_losesFactor_changePassword (currentPassword newPassword : String)
    (hash : Option String) :
    ¬ LosesFactor u (changePassword k c currentPassword newPassword hash u).2 := by
  unfold changePassword
  split_ifs
  · exact not_losesFactor_refl
  · split
    · exact not_losesFactor_refl
    · exact not_losesFactor_update (fun henabled => ⟨henabled, rfl⟩)
  · exact not_losesFactor_refl
  · exact not_losesFactor_refl

/-- One request: it takes the factor off without a code exactly if it is a
setup. -/
theorem guarded_iff_not_restarts :
    (LosesFactor u (handle k c u).2 → HoldsFactor k c u) ↔ ¬ Restarts c u := by
  unfold handle
  cases hrequest : c.request with
  | totpSetup generated =>
    have hnone : ¬ HoldsFactor k c u := by
      rintro ⟨code, secret, hcode, -⟩
      simp [hrequest, FactorRequest.code] at hcode
    have hrestarts : Restarts c u ↔ LosesFactor u (totpSetup c generated u).2 := by
      rw [losesFactor_totpSetup_iff]
      simp [Restarts, hrequest, Option.ne_none_iff_exists']
    rw [hrestarts]
    exact ⟨fun hguarded hlost => hnone (hguarded hlost), fun hkept hlost => absurd hlost hkept⟩
  | totpConfirm code =>
    have hother : ¬ Restarts c u := by simp [Restarts, hrequest]
    exact ⟨fun _ => hother, fun _ hlost => absurd hlost (not_losesFactor_totpConfirm code)⟩
  | totpDisable code =>
    have hother : ¬ Restarts c u := by simp [Restarts, hrequest]
    refine ⟨fun _ => hother, fun _ hlost => ?_⟩
    obtain ⟨secret, hsecret, hvalid⟩ := losesFactor_totpDisable hlost
    exact ⟨code, secret, by simp [hrequest, FactorRequest.code], hsecret, hvalid⟩
  | changePassword currentPassword newPassword hash =>
    have hother : ¬ Restarts c u := by simp [Restarts, hrequest]
    exact ⟨fun _ => hother, fun _ hlost =>
      absurd hlost (not_losesFactor_changePassword currentPassword newPassword hash)⟩

/-- In a sequence of requests the second factor is lost to nobody who does not
hold it exactly if no request sets up a new one while it is on. -/
theorem second_factor_guarded_iff (k : CodeChecks) (calls : List FactorCall) (u : Credentials) :
    Along (factorStep k) (fun c u => LosesFactor u (handle k c u).2 → HoldsFactor k c u) calls u ↔
      Along (factorStep k) (fun c u => ¬ Restarts c u) calls u :=
  along_congr (fun _ _ => guarded_iff_not_restarts) calls u

def sampleGuarded : Credentials := ⟨"hash", some "OLD", true⟩

def sampleSetup : FactorCall := ⟨.totpSetup (some "NEW"), 0, true, true⟩

def sampleChecks : CodeChecks :=
  ⟨fun code secret _ => code == secret, fun given hash => given == hash⟩

/-- A setup switches the factor off without a code. -/
theorem setup_switches_factor_off :
    handle sampleChecks sampleSetup sampleGuarded = (200, ⟨"hash", some "NEW", false⟩) ∧
      LosesFactor sampleGuarded (handle sampleChecks sampleSetup sampleGuarded).2 ∧
      ¬ HoldsFactor sampleChecks sampleSetup sampleGuarded := by
  refine ⟨rfl, ⟨rfl, .inl rfl⟩, ?_⟩
  rintro ⟨code, secret, hcode, -, -⟩
  cases hcode

end SuperSbc.Admin

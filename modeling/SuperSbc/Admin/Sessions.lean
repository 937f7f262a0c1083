import SuperSbc.Interleaving.Trace
import SuperSbc.Model

/-!
The refresh sessions of one user. Every SQL statement is a step, so requests
interleave between them. `SetPassword` is a transaction: it holds the user's
row from its first statement on, so that two of them queue up, and the sessions
it revokes stay visible as live to others, and locked, until it commits.

A session remembers which token it was issued for and how many password changes
had been committed at that time; neither is a column. New tokens are random, so
that they come with the label; an insert of a token that exists is refused.
-/

namespace SuperSbc.Admin.Sessions

open Interleaving

/-- A row of `sessions`, by the hash of its refresh token. -/
structure Session where
  tokenHash : String
  expiresAt : Time
  revoked : Bool
  issuedFor : Option String
  epoch : ℕ
deriving DecidableEq

/-- Where a request is. -/
inductive Request where
  | idle
  | found (token : String)
  | active (token : String)
  | rotated (token : String)
  | verified
  | changing
  | done
deriving DecidableEq

/-- The token a refresh is working on. -/
def Request.refreshing : Request → Option String
  | .found token | .active token | .rotated token => some token
  | .idle | .verified | .changing | .done => none

/-- An open `SetPassword` and, once its second statement has run, the sessions
it revokes. -/
structure PasswordTx (ι : Type) where
  owner : ι
  revoking : Option (List String)

structure State (ι : Type) where
  requests : ι → Request
  sessions : List Session
  passwordTx : Option (PasswordTx ι)
  changes : ℕ

def initial {ι : Type} : State ι := ⟨fun _ => .idle, [], none, 0⟩

inductive Label (ι : Type) where
  /-- `SessionByToken` of a refresh -/
  | lookup (i : ι) (token : String) (now : Time)
  /-- `UserByID` of a refresh, and whether the user is there and active -/
  | user (i : ι) (ok : Bool)
  /-- `RevokeSession` of a refresh, and whether the statement succeeds -/
  | revoke (i : ι) (ok : Bool)
  /-- the credentials of a login are right -/
  | verify (i : ι)
  /-- `CreateSession` of a refresh or a login -/
  | create (i : ι) (token : String) (expiresAt : Time)
  /-- a refresh or a login ends with an error -/
  | fail (i : ι)
  /-- `RevokeSession` of a logout -/
  | logout (i : ι) (token : String) (ok : Bool)
  /-- the first statement of `SetPassword` -/
  | beginChange (i : ι)
  /-- its second statement -/
  | revokeAll (i : ι)
  | commit (i : ι)
  | rollback (i : ι)

/-- Revoke every session a test picks. -/
def revokeWhere (picks : String → Bool) (sessions : List Session) : List Session :=
  sessions.map (fun x => if picks x.tokenHash then { x with revoked := true } else x)

section Step

variable {ι : Type} [DecidableEq ι]

instance : Phased (State ι) ι Request :=
  ⟨State.requests, fun s requests => { s with requests := requests }, fun _ _ => rfl⟩

/-- The rows an open `SetPassword` has locked. -/
def State.locked (s : State ι) : List String :=
  (s.passwordTx.bind (·.revoking)).getD []

/-- `RevokeSession`, which waits for a locked row and drops errors. -/
def State.revokeSession (s : State ι) (token : String) (ok : Bool) : Option (State ι) :=
  if ok = false then some s
  else if token ∈ s.locked then none
  else some { s with sessions := revokeWhere (· = token) s.sessions }

def State.createSession (s : State ι) (token : String) (expiresAt : Time)
    (issuedFor : Option String) : Option (State ι) :=
  if token ∈ s.sessions.map (·.tokenHash) then none
  else some { s with sessions := s.sessions ++ [⟨token, expiresAt, false, issuedFor, s.changes⟩] }

def step (l : Label ι) (s : State ι) : Option (State ι) :=
  match l with
  | .lookup i token now =>
    match s.requests i with
    | .idle =>
      if s.sessions.any (fun x => x.tokenHash = token && !x.revoked && now < x.expiresAt) then
        some (enter s i (.found token))
      else some (enter s i .done)
    | _ => none
  | .user i ok =>
    match s.requests i with
    | .found token => some (enter s i (if ok then .active token else .done))
    | _ => none
  | .revoke i ok =>
    match s.requests i with
    | .active token => (s.revokeSession token ok).map (enter · i (.rotated token))
    | _ => none
  | .verify i =>
    match s.requests i with
    | .idle => some (enter s i .verified)
    | _ => none
  | .create i token expiresAt =>
    match s.requests i with
    | .rotated old => (s.createSession token expiresAt (some old)).map (enter · i .done)
    | .verified => (s.createSession token expiresAt none).map (enter · i .done)
    | _ => none
  | .fail i =>
    match s.requests i with
    | .found _ | .active _ | .rotated _ | .verified => some (enter s i .done)
    | _ => none
  | .logout i token ok =>
    match s.requests i with
    | .idle => (s.revokeSession token ok).map (enter · i .done)
    | _ => none
  | .beginChange i =>
    match s.requests i, s.passwordTx with
    | .idle, none => some { enter s i .changing with passwordTx := some ⟨i, none⟩ }
    | _, _ => none
  | .revokeAll i =>
    match s.passwordTx with
    | some ⟨owner, none⟩ =>
      if owner = i then
        some { s with
          passwordTx := some ⟨i, some ((s.sessions.filter (!·.revoked)).map (·.tokenHash))⟩ }
      else none
    | _ => none
  | .commit i =>
    match s.passwordTx with
    | some ⟨owner, some tokens⟩ =>
      if owner = i then
        some { enter s i .done with
          sessions := revokeWhere (· ∈ tokens) s.sessions
          passwordTx := none
          changes := s.changes + 1 }
      else none
    | _ => none
  | .rollback i =>
    match s.passwordTx with
    | some ⟨owner, _⟩ =>
      if owner = i then some { enter s i .done with passwordTx := none } else none
    | none => none

/-- When overlapping requests do no harm. A refresh looks its token up while no
other refresh is between looking it up and revoking it; the revocation goes
through; and a password change commits while no refresh is under way and with
every live session among those it revokes. -/
def Separate (l : Label ι) (s : State ι) : Prop :=
  match l with
  | .lookup _ token _ => ∀ j, s.requests j ≠ .found token ∧ s.requests j ≠ .active token
  | .revoke _ ok => ok = true
  | .commit _ => (∀ j, (s.requests j).refreshing = none) ∧
      ∀ x ∈ s.sessions, x.revoked = false → x.tokenHash ∈ s.locked
  | .user _ _ | .verify _ | .create _ _ _ | .fail _ | .logout _ _ _ | .beginChange _
  | .revokeAll _ | .rollback _ => True

instance Separate.decidable [Fintype ι] : ∀ (l : Label ι) (s : State ι), Decidable (Separate l s)
  | .lookup _ token _, s =>
    inferInstanceAs (Decidable (∀ j, s.requests j ≠ .found token ∧ s.requests j ≠ .active token))
  | .revoke _ ok, _ => inferInstanceAs (Decidable (ok = true))
  | .commit _, s => inferInstanceAs (Decidable ((∀ j, (s.requests j).refreshing = none) ∧
      ∀ x ∈ s.sessions, x.revoked = false → x.tokenHash ∈ s.locked))
  | .user _ _, _ | .verify _, _ | .create _ _ _, _ | .fail _, _ | .logout _ _ _, _
  | .beginChange _, _ | .revokeAll _, _ | .rollback _, _ => inferInstanceAs (Decidable True)

end Step

/-- Every token has been refreshed at most once, and every live session that a
refresh issued was issued for a token as young as the last password change. -/
structure SingleUse {ι : Type} (s : State ι) : Prop where
  once : ∀ token, (s.sessions.filter (·.issuedFor = some token)).length ≤ 1
  fresh : ∀ x ∈ s.sessions, x.revoked = false → ∀ old ∈ s.sessions,
    x.issuedFor = some old.tokenHash → old.epoch = s.changes

section Revoke

variable {picks : String → Bool} {sessions : List Session} {x : Session}

theorem mem_revokeWhere (h : x ∈ revokeWhere picks sessions) :
    ∃ y ∈ sessions, y.tokenHash = x.tokenHash ∧ y.issuedFor = x.issuedFor ∧ y.epoch = x.epoch ∧
      (x.revoked = false → y.revoked = false ∧ picks y.tokenHash = false) := by
  obtain ⟨y, hy, rfl⟩ := List.mem_map.mp h
  refine ⟨y, hy, ?_⟩
  split_ifs with hpick
  · exact ⟨rfl, rfl, rfl, (nomatch ·)⟩
  · exact ⟨rfl, rfl, rfl, fun hlive => ⟨hlive, by simpa using hpick⟩⟩

theorem revoked_of_mem (h : x ∈ revokeWhere picks sessions) (hpick : picks x.tokenHash = true ∨
    ∀ y ∈ sessions, y.tokenHash = x.tokenHash → y.revoked = true) : x.revoked = true := by
  obtain ⟨y, hy, htoken, -, -, hlive⟩ := mem_revokeWhere h
  by_contra hx
  obtain ⟨hunrevoked, hunpicked⟩ := hlive (by simpa using hx)
  rcases hpick with hpick | hrevoked
  · rw [← htoken, hunpicked] at hpick
    cases hpick
  · rw [hrevoked y hy htoken] at hunrevoked
    cases hunrevoked

theorem tokens_revokeWhere :
    (revokeWhere picks sessions).map (·.tokenHash) = sessions.map (·.tokenHash) := by
  rw [revokeWhere, List.map_map]
  apply List.map_congr_left
  intro x _
  simp only [Function.comp_apply]
  split_ifs <;> rfl

theorem revokeWhere_none : revokeWhere (fun _ => false) sessions = sessions := by
  simp [revokeWhere]

end Revoke

section Once

variable {ι : Type} {s : State ι}

variable {r : Request} {token : String}

/-- Why a token is refreshed at most once. -/
structure Rotation (s : State ι) : Prop where
  apart : ∀ i j token, (s.requests i).refreshing = some token →
    (s.requests j).refreshing = some token → i = j
  unspent : ∀ i token, (s.requests i).refreshing = some token →
    ∀ x ∈ s.sessions, x.issuedFor ≠ some token
  single : s.sessions.Pairwise (fun x y => ∀ token, x.issuedFor = some token →
    y.issuedFor ≠ some token)
  rotated : ∀ i token, s.requests i = .rotated token →
    ∀ y ∈ s.sessions, y.tokenHash = token → y.revoked = true
  spent : ∀ x ∈ s.sessions, ∀ y ∈ s.sessions, x.issuedFor = some y.tokenHash → y.revoked = true
  refreshed : ∀ i token, (s.requests i).refreshing = some token →
    token ∈ s.sessions.map (·.tokenHash)
  parents : ∀ x ∈ s.sessions, ∀ token, x.issuedFor = some token →
    token ∈ s.sessions.map (·.tokenHash)

theorem Rotation.initial : Rotation (initial : State ι) := by
  constructor <;> simp [Sessions.initial, Request.refreshing]

/-- Requests that end and sessions that are revoked do no harm. A request may
have revoked its own token. -/
theorem Rotation.frame (hs : Rotation s) (s' : State ι) (picks : String → Bool)
    (hsessions : s'.sessions = revokeWhere picks s.sessions)
    (hrequests : ∀ i token, (s'.requests i).refreshing = some token →
      (s.requests i).refreshing = some token)
    (hrotated : ∀ i token, s'.requests i = .rotated token →
      picks token = true ∨ s.requests i = .rotated token) : Rotation s' := by
  constructor
  · intro i j token hi hj
    exact hs.apart i j token (hrequests i token hi) (hrequests j token hj)
  · intro i token hi x hx
    rw [hsessions] at hx
    obtain ⟨y, hy, -, hissued, -⟩ := mem_revokeWhere hx
    rw [← hissued]
    exact hs.unspent i token (hrequests i token hi) y hy
  · rw [hsessions, revokeWhere, List.pairwise_map]
    apply hs.single.imp
    intro x y hxy token hx
    split_ifs at hx ⊢ <;> exact hxy token hx
  · intro i token hi y hy htoken
    rw [hsessions] at hy
    apply revoked_of_mem hy
    rcases hrotated i token hi with hpick | hi
    · exact .inl (htoken ▸ hpick)
    · exact .inr (fun z hz hsame => hs.rotated i token hi z hz (hsame.trans htoken))
  · intro x hx y hy hissued
    rw [hsessions] at hx hy
    obtain ⟨x', hx', -, hissued', -⟩ := mem_revokeWhere hx
    apply revoked_of_mem hy
    right
    intro z hz hsame
    exact hs.spent x' hx' z hz (hsame ▸ hissued'.trans hissued)
  · intro i token hi
    rw [hsessions, tokens_revokeWhere]
    exact hs.refreshed i token (hrequests i token hi)
  · intro x hx token hissued
    rw [hsessions] at hx ⊢
    obtain ⟨y, hy, -, hissued', -⟩ := mem_revokeWhere hx
    rw [tokens_revokeWhere]
    exact hs.parents y hy token (hissued'.trans hissued)

variable [DecidableEq ι] {i : ι}

theorem refreshing_move (hr : r.refreshing = none ∨
    r.refreshing = (s.requests i).refreshing) (j : ι) (token : String)
    (h : ((enter s i r).requests j).refreshing = some token) :
    (s.requests j).refreshing = some token := by
  refine forall_enter s (P := fun j q => q.refreshing = some token →
    (s.requests j).refreshing = some token) (fun hnew => ?_) (fun _ _ => id) j h
  rcases hr with hr | hr
  · rw [hr] at hnew
    cases hnew
  · rwa [hr] at hnew

theorem rotated_move (j : ι) (token : String) (h : (enter s i r).requests j = .rotated token) :
    (j = i ∧ r = .rotated token) ∨ s.requests j = .rotated token :=
  forall_enter s (P := fun j q => q = .rotated token →
    (j = i ∧ r = .rotated token) ∨ s.requests j = .rotated token)
    (fun hr => .inl ⟨rfl, hr⟩) (fun _ _ => .inr) j h

/-- A request that does not revoke anything goes on or ends. -/
theorem Rotation.move (hs : Rotation s) (hr : r.refreshing = none ∨
    r.refreshing = (s.requests i).refreshing) (hrotated : ∀ token, r ≠ .rotated token) :
    Rotation (enter s i r) := by
  apply hs.frame (enter s i r) (fun _ => false) revokeWhere_none.symm (refreshing_move hr)
  intro j token hj
  rcases rotated_move j token hj with ⟨-, hr⟩ | hj
  · exact absurd hr (hrotated token)
  · exact .inr hj

/-- A live session is found while nobody else is about to revoke it. -/
theorem Rotation.lookup (hs : Rotation s) {y : Session} (hy : y ∈ s.sessions)
    (htoken : y.tokenHash = token) (hlive : y.revoked = false)
    (halone : ∀ j, s.requests j ≠ .found token ∧ s.requests j ≠ .active token) :
    Rotation (enter s i (.found token)) := by
  -- A refresh that has revoked the token, or issued a session for it, would show.
  have hnone : ∀ j, (s.requests j).refreshing ≠ some token := by
    intro j hj
    cases hreq : s.requests j with
    | found other =>
      rw [hreq] at hj
      cases hj
      exact (halone j).1 hreq
    | active other =>
      rw [hreq] at hj
      cases hj
      exact (halone j).2 hreq
    | rotated other =>
      rw [hreq] at hj
      cases hj
      rw [hs.rotated j token hreq y hy htoken] at hlive
      cases hlive
    | idle | verified | changing | done => rw [hreq] at hj; cases hj
  have hunspent : ∀ x ∈ s.sessions, x.issuedFor ≠ some token := by
    intro x hx hissued
    rw [hs.spent x hx y hy (htoken ▸ hissued)] at hlive
    cases hlive
  have hcases : ∀ j other, ((enter s i (.found token)).requests j).refreshing = some other →
      (j = i ∧ other = token) ∨ (j ≠ i ∧ (s.requests j).refreshing = some other) := by
    refine forall_enter s (P := fun j q => ∀ other, q.refreshing = some other → (j = i ∧
      other = token) ∨ (j ≠ i ∧ (s.requests j).refreshing = some other)) ?_
      (fun j hji other hj => .inr ⟨hji, hj⟩)
    rintro _ ⟨⟩
    exact .inl ⟨rfl, rfl⟩
  refine ⟨?_, ?_, hs.single, ?_, hs.spent, ?_, hs.parents⟩
  · intro j k other hj hk
    rcases hcases j other hj with ⟨rfl, rfl⟩ | ⟨-, hj'⟩
    · rcases hcases k _ hk with ⟨rfl, -⟩ | ⟨-, hk'⟩
      · rfl
      · exact absurd hk' (hnone k)
    · rcases hcases k _ hk with ⟨-, rfl⟩ | ⟨-, hk'⟩
      · exact absurd hj' (hnone j)
      · exact hs.apart j k other hj' hk'
  · intro j other hj
    rcases hcases j other hj with ⟨-, rfl⟩ | ⟨-, hj⟩
    · exact hunspent
    · exact hs.unspent j other hj
  · intro j other hj
    rcases rotated_move j other hj with ⟨-, hr⟩ | hj
    · cases hr
    · exact hs.rotated j other hj
  · intro j other hj
    rcases hcases j other hj with ⟨-, rfl⟩ | ⟨-, hj⟩
    · exact htoken ▸ List.mem_map_of_mem hy
    · exact hs.refreshed j other hj

/-- A session is issued by a login, or by a refresh whose token is revoked. -/
theorem Rotation.create (hs : Rotation s) {expiresAt : Time} {issuedFor : Option String}
    {created : State ι} (hcreate : s.createSession token expiresAt issuedFor = some created)
    (hrequest : ∀ old, issuedFor = some old → s.requests i = .rotated old) :
    Rotation (enter created i .done) := by
  unfold State.createSession at hcreate
  split_ifs at hcreate with hnew
  cases hcreate
  have hend : ∀ j other, ((enter s i .done).requests j).refreshing = some other →
      j ≠ i ∧ (s.requests j).refreshing = some other := by
    refine forall_enter s (P := fun j q => ∀ other, q.refreshing = some other →
      j ≠ i ∧ (s.requests j).refreshing = some other) ?_ (fun j hj other h => ⟨hj, h⟩)
    rintro _ ⟨⟩
  have hrefreshing : ∀ old, issuedFor = some old → (s.requests i).refreshing = some old := by
    intro old hold
    rw [hrequest old hold]
    rfl
  constructor
  · intro j k other hj hk
    exact hs.apart j k other (hend j other hj).2 (hend k other hk).2
  · intro j other hj x hx
    obtain ⟨hji, hj⟩ := hend j other hj
    rcases List.mem_append.mp hx with hx | hx
    · exact hs.unspent j other hj x hx
    · obtain rfl := List.mem_singleton.mp hx
      intro hissued
      exact hji (hs.apart j i other hj (hrefreshing other hissued))
  · refine List.pairwise_append.mpr ⟨hs.single, List.pairwise_singleton _ _, ?_⟩
    intro x hx y hy other hissued
    obtain rfl := List.mem_singleton.mp hy
    intro hold
    exact hs.unspent i other (hrefreshing other hold) x hx hissued
  · intro j other hj y hy htoken
    rcases rotated_move j other hj with ⟨-, hr⟩ | hj
    · cases hr
    · rcases List.mem_append.mp hy with hy | hy
      · exact hs.rotated j other hj y hy htoken
      · obtain rfl := List.mem_singleton.mp hy
        obtain rfl : token = other := htoken
        exact absurd (hs.refreshed j token (by rw [hj]; rfl)) hnew
  · intro x hx y hy hissued
    rcases List.mem_append.mp hy with hy | hy
    · rcases List.mem_append.mp hx with hx | hx
      · exact hs.spent x hx y hy hissued
      · obtain rfl := List.mem_singleton.mp hx
        exact hs.rotated i y.tokenHash (hrequest _ hissued) y hy rfl
    · obtain rfl := List.mem_singleton.mp hy
      -- Nothing was issued for a token that did not exist.
      rcases List.mem_append.mp hx with hx | hx
      · exact absurd (hs.parents x hx token hissued) hnew
      · obtain rfl := List.mem_singleton.mp hx
        exact absurd (hs.refreshed i token (hrefreshing token hissued)) hnew
  · intro j other hj
    change _ ∈ List.map _ (_ ++ _)
    rw [List.map_append]
    exact List.mem_append_left _ (hs.refreshed j other (hend j other hj).2)
  · intro x hx other hissued
    change _ ∈ List.map _ (_ ++ _)
    rw [List.map_append]
    apply List.mem_append_left
    rcases List.mem_append.mp hx with hx | hx
    · exact hs.parents x hx other hissued
    · obtain rfl := List.mem_singleton.mp hx
      exact hs.refreshed i other (hrefreshing other hissued)

/-- `RevokeSession`, by a refresh or a logout. -/
theorem Rotation.revoke (hs : Rotation s) {ok : Bool} {revoked : State ι}
    (hrevoke : s.revokeSession token ok = some revoked) (hr : r.refreshing = none ∨
      r.refreshing = (s.requests i).refreshing)
    (hrotated : ∀ other, r = .rotated other → ok = true ∧ other = token) :
    Rotation (enter revoked i r) := by
  unfold State.revokeSession at hrevoke
  split_ifs at hrevoke with hfailed
  · cases hrevoke
    apply hs.move hr
    intro other hother
    rw [(hrotated other hother).1] at hfailed
    cases hfailed
  · cases hrevoke
    refine hs.frame _ (· = token) rfl (refreshing_move hr) ?_
    intro j other hj
    rcases rotated_move j other hj with ⟨-, hr⟩ | hj
    · exact .inl (by simpa using (hrotated other hr).2)
    · exact .inr hj

end Once

section Young

variable {ι : Type} {s : State ι}

/-- Why no token outlives a password change. -/
structure Young (s : State ι) : Prop where
  unique : (s.sessions.map (·.tokenHash)).Nodup
  live : ∀ x ∈ s.sessions, x.revoked = false → x.epoch = s.changes
  parents : ∀ x ∈ s.sessions, x.revoked = false → ∀ old ∈ s.sessions,
    x.issuedFor = some old.tokenHash → old.epoch = s.changes
  refreshing : ∀ i token, (s.requests i).refreshing = some token →
    ∀ y ∈ s.sessions, y.tokenHash = token → y.epoch = s.changes

theorem Young.initial : Young (initial : State ι) := by
  constructor <;> simp [Sessions.initial]

theorem Young.frame (hs : Young s) (s' : State ι) (picks : String → Bool)
    (hsessions : s'.sessions = revokeWhere picks s.sessions) (hchanges : s'.changes = s.changes)
    (hrequests : ∀ i token, (s'.requests i).refreshing = some token →
      (s.requests i).refreshing = some token) : Young s' := by
  constructor
  · rw [hsessions, tokens_revokeWhere]
    exact hs.unique
  · intro x hx hlive
    rw [hsessions] at hx
    obtain ⟨y, hy, -, -, hepoch, hunrevoked⟩ := mem_revokeWhere hx
    rw [← hepoch, hchanges]
    exact hs.live y hy (hunrevoked hlive).1
  · intro x hx hlive old hold hissued
    rw [hsessions] at hx hold
    obtain ⟨y, hy, -, hissued', -, hunrevoked⟩ := mem_revokeWhere hx
    obtain ⟨parent, hparent, htoken, -, hepoch, -⟩ := mem_revokeWhere hold
    rw [← hepoch, hchanges]
    apply hs.parents y hy (hunrevoked hlive).1 parent hparent
    rw [hissued', htoken, hissued]
  · intro i token hi x hx htoken
    rw [hsessions] at hx
    obtain ⟨y, hy, htoken', -, hepoch, -⟩ := mem_revokeWhere hx
    rw [← hepoch, hchanges]
    exact hs.refreshing i token (hrequests i token hi) y hy (htoken'.trans htoken)

/-- A password change that leaves no live session and no refresh under way. -/
theorem Young.commit (hs : Young s) {s' : State ι} {tokens : List String}
    (hsessions : s'.sessions = revokeWhere (· ∈ tokens) s.sessions)
    (hall : ∀ x ∈ s.sessions, x.revoked = false → x.tokenHash ∈ tokens)
    (hrequests : ∀ j, (s'.requests j).refreshing = none) : Young s' := by
  have hnone : ∀ x ∈ s'.sessions, x.revoked = true := by
    intro x hx
    rw [hsessions] at hx
    obtain ⟨y, hy, -, -, -, hlive⟩ := mem_revokeWhere hx
    by_contra hrevoked
    obtain ⟨hunrevoked, hunpicked⟩ := hlive (by simpa using hrevoked)
    exact of_decide_eq_false hunpicked (hall y hy hunrevoked)
  constructor
  · rw [hsessions, tokens_revokeWhere]
    exact hs.unique
  · intro x hx hlive
    rw [hnone x hx] at hlive
    cases hlive
  · intro x hx hlive
    rw [hnone x hx] at hlive
    cases hlive
  · intro j token hj
    rw [hrequests j] at hj
    cases hj

variable [DecidableEq ι] {i : ι}

theorem Young.move (hs : Young s) {r : Request} (hr : r.refreshing = none ∨
    r.refreshing = (s.requests i).refreshing) : Young (enter s i r) :=
  hs.frame _ (fun _ => false) revokeWhere_none.symm rfl (refreshing_move hr)

/-- A live session is as young as the last change. -/
theorem Young.lookup (hs : Young s) {token : String} {y : Session} (hy : y ∈ s.sessions)
    (htoken : y.tokenHash = token) (hlive : y.revoked = false) :
    Young (enter s i (.found token)) := by
  refine ⟨hs.unique, hs.live, hs.parents, forall_enter s (P := fun _ q => ∀ other,
    q.refreshing = some other → ∀ x ∈ s.sessions, x.tokenHash = other → x.epoch = s.changes) ?_
    (fun j _ => hs.refreshing j)⟩
  rintro _ ⟨⟩ x hx hxtoken
  obtain rfl : x = y := List.inj_on_of_nodup_map hs.unique hx hy (hxtoken.trans htoken.symm)
  exact hs.live x hx hlive

theorem Young.create (hs : Young s) {token : String} {expiresAt : Time}
    {issuedFor : Option String} {created : State ι}
    (hcreate : s.createSession token expiresAt issuedFor = some created)
    (hrequest : ∀ old, issuedFor = some old → s.requests i = .rotated old) :
    Young (enter created i .done) := by
  unfold State.createSession at hcreate
  split_ifs at hcreate with hnew
  cases hcreate
  constructor
  · change (List.map _ (_ ++ _)).Nodup
    rw [List.map_append]
    exact List.nodup_append.mpr ⟨hs.unique, List.nodup_singleton _, by
      intro a ha b hb
      obtain rfl := List.mem_singleton.mp hb
      exact ne_of_mem_of_not_mem ha hnew⟩
  · intro x hx hlive
    rcases List.mem_append.mp hx with hx | hx
    · exact hs.live x hx hlive
    · obtain rfl := List.mem_singleton.mp hx
      rfl
  · intro x hx hlive old hold hissued
    rcases List.mem_append.mp hold with hold | hold
    · rcases List.mem_append.mp hx with hx | hx
      · exact hs.parents x hx hlive old hold hissued
      · obtain rfl := List.mem_singleton.mp hx
        apply hs.refreshing i old.tokenHash ?_ old hold rfl
        rw [hrequest _ hissued]
        rfl
    · obtain rfl := List.mem_singleton.mp hold
      rfl
  · intro j other hj y hy htoken
    rcases List.mem_append.mp hy with hy | hy
    · exact hs.refreshing j other (refreshing_move (.inl rfl) j other hj) y hy htoken
    · obtain rfl := List.mem_singleton.mp hy
      rfl

theorem Young.revoke (hs : Young s) {token : String} {ok : Bool} {revoked : State ι}
    (hrevoke : s.revokeSession token ok = some revoked) {r : Request} (hr : r.refreshing = none ∨
      r.refreshing = (s.requests i).refreshing) : Young (enter revoked i r) := by
  unfold State.revokeSession at hrevoke
  split_ifs at hrevoke
  · cases hrevoke
    exact hs.move hr
  · cases hrevoke
    exact hs.frame _ (· = token) rfl rfl (refreshing_move hr)

end Young

section Runs

variable {ι : Type}

/-- What every run keeps. -/
structure Kept (s : State ι) : Prop where
  rotation : Rotation s
  young : Young s

theorem Kept.withTx {s : State ι} (hs : Kept s) (tx : Option (PasswordTx ι)) :
    Kept { s with passwordTx := tx } :=
  ⟨hs.rotation.frame _ (fun _ => false) revokeWhere_none.symm (fun _ _ hj => hj)
      (fun _ _ hj => .inr hj),
    hs.young.frame _ (fun _ => false) revokeWhere_none.symm rfl (fun _ _ hj => hj)⟩

variable [DecidableEq ι]

theorem Kept.move {s : State ι} (hs : Kept s) (i : ι) {r : Request} (hr : r.refreshing = none ∨
    r.refreshing = (s.requests i).refreshing) (hrotated : ∀ token, r ≠ .rotated token) :
    Kept (enter s i r) :=
  ⟨hs.rotation.move hr hrotated, hs.young.move hr⟩

theorem Kept.step (l : Label ι) (s s' : State ι) (hs : Kept s) (hok : Separate l s)
    (h : step l s = some s') : Kept s' := by
  cases l with
  | lookup i token now =>
    simp only [Sessions.step] at h
    split at h
    · split_ifs at h with hfound
      · cases h
        obtain ⟨y, hy, hlive⟩ := List.any_eq_true.mp hfound
        simp only [Bool.and_eq_true, decide_eq_true_eq, Bool.not_eq_true'] at hlive
        obtain ⟨⟨htoken, hlive⟩, -⟩ := hlive
        exact ⟨hs.rotation.lookup hy htoken hlive hok, hs.young.lookup hy htoken hlive⟩
      · cases h
        exact hs.move i (.inl rfl) (by simp)
    · cases h
  | user i ok =>
    simp only [Sessions.step] at h
    split at h
    · rename_i token hfound
      cases h
      cases ok with
      | true => exact hs.move i (.inr (by rw [hfound]; rfl)) (by simp)
      | false => exact hs.move i (.inl rfl) (by simp)
    · cases h
  | revoke i ok =>
    simp only [Sessions.step] at h
    split at h
    · rename_i token hactive
      obtain ⟨revoked, hrevoke, rfl⟩ := Option.map_eq_some_iff.mp h
      have hsame : (Request.rotated token).refreshing = (s.requests i).refreshing := by
        rw [hactive]
        rfl
      refine ⟨hs.rotation.revoke hrevoke (.inr hsame) ?_, hs.young.revoke hrevoke (.inr hsame)⟩
      intro other hother
      exact ⟨hok, (Request.rotated.inj hother).symm⟩
    · cases h
  | verify i =>
    simp only [Sessions.step] at h
    split at h
    · cases h
      exact hs.move i (.inl rfl) (by simp)
    · cases h
  | create i token expiresAt =>
    simp only [Sessions.step] at h
    split at h
    · rename_i old hrotated
      obtain ⟨created, hcreate, rfl⟩ := Option.map_eq_some_iff.mp h
      have hrequest : ∀ other, some old = some other → s.requests i = .rotated other := by
        intro other hother
        rw [hrotated, Option.some.inj hother]
      exact ⟨hs.rotation.create hcreate hrequest, hs.young.create hcreate hrequest⟩
    · obtain ⟨created, hcreate, rfl⟩ := Option.map_eq_some_iff.mp h
      exact ⟨hs.rotation.create hcreate (by simp), hs.young.create hcreate (by simp)⟩
    · cases h
  | fail i =>
    simp only [Sessions.step] at h
    split at h <;> cases h <;> exact hs.move i (.inl rfl) (by simp)
  | logout i token ok =>
    simp only [Sessions.step] at h
    split at h
    · obtain ⟨revoked, hrevoke, rfl⟩ := Option.map_eq_some_iff.mp h
      exact ⟨hs.rotation.revoke hrevoke (.inl rfl) (by simp),
        hs.young.revoke hrevoke (.inl rfl)⟩
    · cases h
  | beginChange i =>
    simp only [Sessions.step] at h
    split at h
    · cases h
      exact (hs.move i (r := .changing) (.inl rfl) (by simp)).withTx _
    · cases h
  | revokeAll i =>
    simp only [Sessions.step] at h
    split at h
    · split_ifs at h
      cases h
      exact hs.withTx _
    · cases h
  | commit i =>
    simp only [Sessions.step] at h
    split at h
    · rename_i owner tokens htx
      split_ifs at h
      cases h
      have hlocked : s.locked = tokens := by rw [State.locked, htx]; rfl
      have hended : ∀ j, ((enter s i .done).requests j).refreshing = none := by
        intro j
        by_contra hj
        obtain ⟨token, hj⟩ := Option.ne_none_iff_exists'.mp hj
        have hbefore := refreshing_move (.inl rfl) j token hj
        rw [hok.1 j] at hbefore
        cases hbefore
      refine ⟨?_, hs.young.commit rfl (hlocked ▸ hok.2) hended⟩
      exact (hs.rotation.move (i := i) (r := .done) (.inl rfl) (by simp)).frame _ (· ∈ tokens) rfl
        (fun _ _ hj => hj) (fun _ _ hj => .inr hj)
    · cases h
  | rollback i =>
    simp only [Sessions.step] at h
    split at h
    · split_ifs at h
      cases h
      exact (hs.move i (r := .done) (.inl rfl) (by simp)).withTx _
    · cases h

end Runs

theorem Kept.singleUse {ι : Type} {s : State ι} (hs : Kept s) : SingleUse s := by
  refine ⟨fun token => ?_, hs.young.parents⟩
  have hpair := hs.rotation.single.filter (·.issuedFor = some token)
  have hmem : ∀ z ∈ s.sessions.filter (·.issuedFor = some token), z.issuedFor = some token := by
    intro z hz
    simpa using (List.mem_filter.mp hz).2
  generalize s.sessions.filter (·.issuedFor = some token) = issued at hpair hmem ⊢
  rcases issued with _ | ⟨x, _ | ⟨y, rest⟩⟩
  · exact Nat.zero_le 1
  · exact le_rfl
  · have hdiffer := (List.pairwise_cons.mp hpair).1 y List.mem_cons_self
    exact absurd (hmem y (List.mem_cons_of_mem _ List.mem_cons_self))
      (hdiffer token (hmem x List.mem_cons_self))

/-- In every interleaving whose steps keep overlapping requests apart, each
refresh token yields at most one session, and after a password change no live
session was issued for a token from before it. -/
theorem refresh_tokens_single_use {ι : Type} [DecidableEq ι] (labels : List (Label ι))
    (final : State ι)
    (hok : Along step Separate labels initial) (hrun : trace step labels initial = some final) :
    SingleUse final :=
  (invariant_of_along Kept.step ⟨.initial, .initial⟩ hok hrun).singleUse

section Revoked

variable {ι : Type} {s s' : State ι} {token : String}

/-- A token is in the table, and revoked. -/
structure Spent (token : String) (s : State ι) : Prop where
  known : token ∈ s.sessions.map (·.tokenHash)
  revoked : ∀ x ∈ s.sessions, x.tokenHash = token → x.revoked = true

theorem Spent.frame (hs : Spent token s) (picks : String → Bool)
    (h : s'.sessions = revokeWhere picks s.sessions) : Spent token s' := by
  refine ⟨by rw [h, tokens_revokeWhere]; exact hs.known, fun x hx htoken => ?_⟩
  exact revoked_of_mem (h ▸ hx) (.inr (fun y hy hsame => hs.revoked y hy (hsame.trans htoken)))

theorem Spent.of_eq (hs : Spent token s) (h : s'.sessions = s.sessions) : Spent token s' :=
  hs.frame _ (h.trans revokeWhere_none.symm)

theorem Spent.revoke (hs : Spent token s) {hash : String} {ok : Bool}
    (h : s.revokeSession hash ok = some s') : Spent token s' := by
  unfold State.revokeSession at h
  split_ifs at h <;> cases h
  · exact hs
  · exact hs.frame (· = hash) rfl

theorem Spent.create (hs : Spent token s) {hash : String} {expiresAt : Time}
    {issuedFor : Option String} (h : s.createSession hash expiresAt issuedFor = some s') :
    Spent token s' := by
  unfold State.createSession at h
  split_ifs at h with hfresh
  cases h
  refine ⟨by simp [hs.known], fun x hx htoken => ?_⟩
  rcases List.mem_append.mp hx with hold | hnew
  · exact hs.revoked x hold htoken
  · rw [List.mem_singleton.mp hnew] at htoken
    obtain rfl : hash = token := htoken
    exact absurd hs.known hfresh

variable [DecidableEq ι]

theorem Spent.step {l : Label ι} (hs : Spent token s) (h : step l s = some s') :
    Spent token s' := by
  cases l with
  | lookup | user | verify | fail | beginChange | revokeAll | rollback =>
    simp only [Sessions.step] at h
    split at h <;> first | cases h | (split_ifs at h <;> cases h)
    all_goals exact hs.of_eq rfl
  | revoke | logout =>
    simp only [Sessions.step] at h
    split at h
    · obtain ⟨r, hr, rfl⟩ := Option.map_eq_some_iff.mp h
      exact (hs.revoke hr).of_eq rfl
    · cases h
  | create =>
    simp only [Sessions.step] at h
    split at h
    · obtain ⟨r, hr, rfl⟩ := Option.map_eq_some_iff.mp h
      exact (hs.create hr).of_eq rfl
    · obtain ⟨r, hr, rfl⟩ := Option.map_eq_some_iff.mp h
      exact (hs.create hr).of_eq rfl
    · cases h
  | commit i =>
    simp only [Sessions.step] at h
    split at h
    · rename_i tokens _
      split_ifs at h
      cases h
      exact hs.frame (· ∈ tokens) rfl
    · cases h

/-- Whatever runs afterwards, a refresh with a revoked token is turned away. -/
theorem revoked_for_good (labels : List (Label ι)) (final : State ι) (hspent : Spent token s)
    (hrun : trace step labels s = some final) (i : ι) (hidle : final.requests i = .idle)
    (now : Time) : step (.lookup i token now) final = some (enter final i .done) := by
  have hfinal := invariant_of_trace (fun _ _ _ hs h => Spent.step hs h) hspent hrun
  have hnone : final.sessions.any
      (fun x => x.tokenHash = token && !x.revoked && now < x.expiresAt) = false := by
    rw [List.any_eq_false]
    intro x hx
    by_cases htoken : x.tokenHash = token
    · simp [hfinal.revoked x hx htoken]
    · simp [htoken]
  simp [Sessions.step, hidle, hnone]

end Revoked

section Sample

/-- A login, a refresh, and a change of the password by the third request. -/
def sampleRotation : List (Label (Fin 3)) :=
  [.verify 0, .create 0 "A" 100, .lookup 1 "A" 10, .user 1 true, .revoke 1 true, .create 1 "B" 200,
    .beginChange 2, .revokeAll 2, .commit 2]

theorem refresh_tokens_single_use_sampleRotation :
    ∃ final, trace step sampleRotation initial = some final ∧ final.changes = 1 ∧
      final.sessions.map (fun x => (x.tokenHash, x.revoked)) = [("A", true), ("B", true)] ∧
      SingleUse final := by
  have hrun : (trace step sampleRotation initial).map (fun s =>
      (s.changes, s.sessions.map (fun x => (x.tokenHash, x.revoked)))) =
        some (1, [("A", true), ("B", true)]) := by
    decide +kernel
  obtain ⟨final, hfinal, hafter⟩ := Option.map_eq_some_iff.mp hrun
  obtain ⟨hchanges, hsessions⟩ := Prod.mk.inj hafter
  exact ⟨final, hfinal, hchanges, hsessions,
    refresh_tokens_single_use sampleRotation final (by decide +kernel) hfinal⟩

/-- Two refreshes find the token before either revokes it. -/
def sampleTwice : List (Label (Fin 3)) :=
  [.verify 0, .create 0 "A" 100, .lookup 1 "A" 10, .lookup 2 "A" 10, .user 1 true, .user 2 true,
    .revoke 1 true, .revoke 2 true, .create 1 "B" 200, .create 2 "C" 200]

/-- A refresh finds the token before the password is changed and issues its
session afterwards. -/
def sampleSurvivor : List (Label (Fin 3)) :=
  [.verify 0, .create 0 "A" 100, .lookup 1 "A" 10, .beginChange 2, .revokeAll 2, .commit 2,
    .user 1 true, .revoke 1 true, .create 1 "B" 200]

theorem refresh_token_used_twice_or_survives :
    (∃ final, trace step sampleTwice initial = some final ∧
      (final.sessions.filter (·.issuedFor = some "A")).map (·.tokenHash) = ["B", "C"]) ∧
    ∃ final, trace step sampleSurvivor initial = some final ∧ final.changes = 1 ∧
      final.sessions = [⟨"A", 100, true, none, 0⟩, ⟨"B", 200, false, some "A", 1⟩] := by
  have htwice : (trace step sampleTwice initial).map (fun s =>
      (s.sessions.filter (·.issuedFor = some "A")).map (·.tokenHash)) = some ["B", "C"] := by
    decide +kernel
  have hsurvivor : (trace step sampleSurvivor initial).map (fun s => (s.changes, s.sessions)) =
      some (1, [⟨"A", 100, true, none, 0⟩, ⟨"B", 200, false, some "A", 1⟩]) := by
    decide +kernel
  obtain ⟨final, hfinal, hafter⟩ := Option.map_eq_some_iff.mp hsurvivor
  obtain ⟨hchanges, hsessions⟩ := Prod.mk.inj hafter
  exact ⟨Option.map_eq_some_iff.mp htwice, final, hfinal, hchanges, hsessions⟩

theorem revoked_for_good_sampleRotation : ∃ s final : State (Fin 3),
    trace step (sampleRotation.take 5) initial = some s ∧ Spent "A" s ∧
      trace step [.create 1 "B" 200] s = some final ∧
      step (.lookup 2 "A" 20) final = some (enter final 2 .done) := by
  have hview : (trace step (sampleRotation.take 5) initial).map (fun s =>
      (s.sessions, (trace step [.create 1 "B" 200] s).map (·.requests 2))) =
        some ([⟨"A", 100, true, none, 0⟩], some .idle) := by
    decide +kernel
  obtain ⟨s, hs, hafter⟩ := Option.map_eq_some_iff.mp hview
  obtain ⟨hsessions, hmore⟩ := Prod.mk.inj hafter
  obtain ⟨final, hfinal, hidle⟩ := Option.map_eq_some_iff.mp hmore
  have hspent : Spent "A" s := by
    constructor <;> simp [hsessions]
  exact ⟨s, final, hs, hspent, hfinal, revoked_for_good _ final hspent hfinal 2 hidle 20⟩

end Sample

end SuperSbc.Admin.Sessions

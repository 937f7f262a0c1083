import SuperSbc.Security.Bans

/-!
How long a ban lasts. The list has one row for an address, and a new ban
replaces the expiry of the row it finds: an operator's ban without an end is
followed by an automatic one that ends in an hour. So a ban holds until its
end only if no later one ends earlier.
-/

namespace SuperSbc.Security

open CallControl

/-- `expires_at IS NULL OR expires_at > now()`. -/
def BannedIP.inForce (b : BannedIP) (now : Time) : Bool := b.expiresAt.all (now < ·)

def unban (ip : Inet) (bans : List BannedIP) : List BannedIP := bans.filter (·.ip ≠ ip)

def expireBans (now : Time) (bans : List BannedIP) : List BannedIP :=
  bans.filter (·.inForce now)

def isBanned (ip : Inet) (now : Time) (bans : List BannedIP) : Bool :=
  bans.any (fun b => b.ip = ip && b.inForce now)

structure BanInput where
  ip : Inet
  reason : String
  minutes : ℤ

/-- What an operator's request asks for: no end for zero minutes. The duration
is a 64 bit number of nanoseconds. -/
def createBan (now : Time) (input : BanInput) : BannedIP where
  ip := input.ip
  reason := input.reason
  hits := 0
  manual := true
  expiresAt :=
    if 0 < input.minutes then some (now + Int.bmod (input.minutes * 60000000000) (2 ^ 64))
    else none

/-- The calls on the list. A lookup changes nothing. -/
inductive BanCall where
  | ban (new : BannedIP)
  | unban (ip : Inet)
  | expireBans
  | isBanned (ip : Inet)

structure TimedCall where
  time : Time
  call : BanCall

def TimedCall.apply (c : TimedCall) (bans : List BannedIP) : List BannedIP :=
  match c.call with
  | .ban new => ban new bans
  | .unban ip => unban ip bans
  | .expireBans => expireBans c.time bans
  | .isBanned _ => bans

def afterCalls (calls : List TimedCall) : List BannedIP :=
  calls.foldl (fun bans c => c.apply bans) []

/-- One of the calls banned the address beyond a time, and none lifted it
since. -/
def Promised (calls : List TimedCall) (ip : Inet) (t : Time) : Prop :=
  ∃ before made new since, calls = before ++ ⟨made, .ban new⟩ :: since ∧ new.ip = ip ∧
    new.inForce t = true ∧ ∀ c ∈ since, c.call ≠ .unban ip

/-- No ban ends before one that it finds in force. -/
def NeverShortened (calls : List TimedCall) : Prop :=
  ∀ before made new rest, calls = before ++ ⟨made, .ban new⟩ :: rest →
    ∀ old ∈ afterCalls before, old.ip = new.ip → ∀ t, made ≤ t → old.inForce t = true →
      new.inForce t = true

/-- After each call and until the next, what was promised is reported. -/
def PromisesKept (calls : List TimedCall) : Prop :=
  ∀ done rest, calls = done ++ rest → ∀ ip t, (∀ c ∈ done, c.time ≤ t) →
    Promised done ip t → isBanned ip t (afterCalls done) = true

section List

variable {bans : List BannedIP} {new b : BannedIP} {ip : Inet} {now t : Time}

theorem inForce_of_le (hle : now ≤ t) (h : b.inForce t = true) : b.inForce now = true := by
  unfold BannedIP.inForce at h ⊢
  cases hexp : b.expiresAt with
  | none => rfl
  | some expiry =>
    rw [hexp, Option.all_some, decide_eq_true_eq] at h
    rw [Option.all_some, decide_eq_true_eq]
    exact hle.trans_lt h

theorem isBanned_iff :
    isBanned ip t bans = true ↔ ∃ b ∈ bans, b.ip = ip ∧ b.inForce t = true := by
  simp [isBanned]

theorem inForce_of_mem_ban (hb : b ∈ ban new bans) (hip : b.ip = new.ip) :
    b.inForce t = new.inForce t := by
  unfold ban at hb
  split_ifs at hb with hfound
  · obtain ⟨old, -, rfl⟩ := List.mem_map.mp hb
    split_ifs at hip ⊢ with hsame
    · rfl
    · exact absurd hip hsame
  · rcases List.mem_append.mp hb with hold | hnew
    · have hany : bans.any (·.ip = new.ip) = true := List.any_eq_true.mpr ⟨b, hold, by simp [hip]⟩
      exact absurd hany hfound
    · rw [List.mem_singleton.mp hnew]

theorem exists_mem_ban (new : BannedIP) (bans : List BannedIP) :
    ∃ b ∈ ban new bans, b.ip = new.ip := by
  unfold ban
  split_ifs with hfound
  · obtain ⟨old, hold, hip⟩ := List.any_eq_true.mp hfound
    rw [decide_eq_true_eq] at hip
    exact ⟨_, List.mem_map_of_mem hold, by rw [if_pos hip]⟩
  · exact ⟨new, by simp, rfl⟩

theorem mem_ban_of_ne (hne : b.ip ≠ new.ip) : b ∈ ban new bans ↔ b ∈ bans := by
  unfold ban
  split_ifs with hfound
  · constructor
    · intro hb
      obtain ⟨old, hold, rfl⟩ := List.mem_map.mp hb
      split_ifs at hne ⊢ with hsame
      · exact absurd rfl hne
      · exact hold
    · intro hb
      exact List.mem_map.mpr ⟨b, hb, if_neg hne⟩
  · have hnew : b ≠ new := fun h => hne (congrArg _ h)
    simp [hnew]

/-- An address is reported right after its ban as long as the ban lasts. -/
theorem isBanned_ban : isBanned new.ip t (ban new bans) = new.inForce t := by
  rw [Bool.eq_iff_iff, isBanned_iff]
  constructor
  · rintro ⟨b, hb, hip, hforce⟩
    rwa [inForce_of_mem_ban hb hip] at hforce
  · intro hforce
    obtain ⟨b, hb, hip⟩ := exists_mem_ban new bans
    exact ⟨b, hb, hip, by rwa [inForce_of_mem_ban hb hip]⟩

end List

section Calls

variable {calls : List TimedCall} {c : TimedCall} {ip : Inet} {t : Time}

theorem afterCalls_concat : afterCalls (calls ++ [c]) = c.apply (afterCalls calls) := by
  simp [afterCalls]

theorem Promised.concat (h : Promised calls ip t) (hc : c.call ≠ .unban ip) :
    Promised (calls ++ [c]) ip t := by
  obtain ⟨before, made, new, since, rfl, hip, hforce, hkept⟩ := h
  refine ⟨before, made, new, since ++ [c], by simp, hip, hforce, ?_⟩
  intro d hd
  rcases List.mem_append.mp hd with hd | hd
  · exact hkept d hd
  · rwa [List.mem_singleton.mp hd]

/-- A promise comes from the last call or is an earlier one the last call did
not lift. -/
theorem Promised.of_concat (h : Promised (calls ++ [c]) ip t) :
    (∃ new, c.call = .ban new ∧ new.ip = ip ∧ new.inForce t = true) ∨
      (Promised calls ip t ∧ c.call ≠ .unban ip) := by
  obtain ⟨before, made, new, since, heq, hip, hforce, hkept⟩ := h
  rcases List.eq_nil_or_concat since with rfl | ⟨since, last, rfl⟩
  · obtain ⟨-, rfl⟩ := List.append_inj' heq rfl |>.imp_right List.singleton_inj.mp
    exact .inl ⟨new, rfl, hip, hforce⟩
  · rw [List.concat_eq_append] at heq hkept
    have hsplit : calls ++ [c] = (before ++ ⟨made, .ban new⟩ :: since) ++ [last] := by
      rw [heq]
      simp
    obtain ⟨rfl, rfl⟩ := List.append_inj' hsplit rfl |>.imp_right List.singleton_inj.mp
    refine .inr ⟨⟨before, made, new, since, rfl, hip, hforce, ?_⟩, hkept c (by simp)⟩
    intro d hd
    exact hkept d (by simp [hd])

theorem promised_of_mem {b : BannedIP} (hb : b ∈ afterCalls calls) (hforce : b.inForce t = true) :
    Promised calls b.ip t := by
  induction calls using List.reverseRecOn generalizing b with
  | nil => cases hb
  | append_singleton calls c ih =>
    rw [afterCalls_concat] at hb
    obtain ⟨made, call⟩ := c
    cases call with
    | ban new =>
      by_cases hip : b.ip = new.ip
      · rw [TimedCall.apply] at hb
        rw [inForce_of_mem_ban hb hip] at hforce
        exact ⟨calls, made, new, [], rfl, hip.symm, hforce, by simp⟩
      · exact (ih ((mem_ban_of_ne hip).mp hb) hforce).concat (by simp)
    | unban gone =>
      obtain ⟨hold, hne⟩ := List.mem_filter.mp hb
      refine (ih hold hforce).concat ?_
      rw [decide_eq_true_eq] at hne
      simpa using Ne.symm hne
    | expireBans => exact (ih (List.mem_filter.mp hb).1 hforce).concat (by simp)
    | isBanned asked => exact (ih hb hforce).concat (by simp)

/-- One call keeps a promise on the list unless it shortens or lifts it. -/
theorem isBanned_apply (htime : c.time ≤ t) (hbanned : isBanned ip t (afterCalls calls) = true)
    (hlift : c.call ≠ .unban ip)
    (hshort : ∀ new, c.call = .ban new → ∀ old ∈ afterCalls calls, old.ip = new.ip →
      old.inForce t = true → new.inForce t = true) :
    isBanned ip t (c.apply (afterCalls calls)) = true := by
  obtain ⟨b, hb, rfl, hforce⟩ := isBanned_iff.mp hbanned
  obtain ⟨made, call⟩ := c
  cases call with
  | ban new =>
    by_cases hip : b.ip = new.ip
    · rw [hip]
      exact isBanned_ban.trans (hshort new rfl b hb hip hforce)
    · exact isBanned_iff.mpr ⟨b, (mem_ban_of_ne hip).mpr hb, rfl, hforce⟩
  | unban gone =>
    have hne : b.ip ≠ gone := fun h => hlift (by rw [h])
    exact isBanned_iff.mpr ⟨b, List.mem_filter.mpr ⟨hb, by simpa using hne⟩, rfl, hforce⟩
  | expireBans =>
    exact isBanned_iff.mpr
      ⟨b, List.mem_filter.mpr ⟨hb, inForce_of_le htime hforce⟩, rfl, hforce⟩
  | isBanned asked => exact hbanned

theorem isBanned_of_promised (hlong : NeverShortened calls) (htimes : ∀ c ∈ calls, c.time ≤ t)
    (h : Promised calls ip t) : isBanned ip t (afterCalls calls) = true := by
  induction calls using List.reverseRecOn with
  | nil =>
    obtain ⟨before, made, new, since, heq, -⟩ := h
    simp at heq
  | append_singleton calls c ih =>
    rw [afterCalls_concat]
    have hnow : c.time ≤ t := htimes c (by simp)
    rcases h.of_concat with ⟨new, hcall, rfl, hforce⟩ | ⟨hpromised, hlift⟩
    · unfold TimedCall.apply
      rw [hcall]
      exact isBanned_ban.trans hforce
    · have hearlier : NeverShortened calls := by
        rintro before made new rest rfl
        exact hlong before made new (rest ++ [c]) (by simp)
      have hbanned := ih hearlier (fun d hd => htimes d (by simp [hd])) hpromised
      refine isBanned_apply hnow hbanned hlift ?_
      intro new hcall old hold hip hforce
      obtain ⟨made, call⟩ := c
      obtain rfl : call = .ban new := hcall
      exact hlong calls made new [] rfl old hold hip t hnow hforce

end Calls

/-- A ban is reported until its end, at any moment of any history of calls,
exactly when no ban of the history ends before one it finds in force. -/
theorem ban_until_end_iff (calls : List TimedCall) (hordered : calls.Pairwise (·.time ≤ ·.time)) :
    PromisesKept calls ↔ NeverShortened calls := by
  constructor
  · rintro hkept before made new rest rfl old hold hip t hmade hforce
    -- The row that is found is itself a promise, and the new ban is the only row afterwards.
    have hpromised : Promised (before ++ [⟨made, .ban new⟩]) new.ip t := by
      rw [← hip]
      exact (promised_of_mem hold hforce).concat (by simp)
    have htimes : ∀ c ∈ before ++ [⟨made, .ban new⟩], c.time ≤ t := by
      intro c hc
      rcases List.mem_append.mp hc with hc | hc
      · exact ((List.pairwise_append.mp hordered).2.2 c hc _ List.mem_cons_self).trans hmade
      · rw [List.mem_singleton.mp hc]
        exact hmade
    have hbanned := hkept (before ++ [⟨made, .ban new⟩]) rest (by simp) new.ip t htimes hpromised
    rw [afterCalls_concat] at hbanned
    exact isBanned_ban.symm.trans hbanned
  · rintro hlong done rest rfl ip t htimes hpromised
    refine isBanned_of_promised ?_ htimes hpromised
    rintro before made new since rfl
    exact hlong before made new (since ++ rest) (by simp)

/-- The bans of an address that grow longer: ten minutes, then for good. -/
def growingBans : List TimedCall :=
  [⟨0, .ban (createBan 0 ⟨sampleCustomerIP, "spam", 10⟩)⟩, ⟨60000000000, .expireBans⟩,
    ⟨120000000000, .ban (createBan 120000000000 ⟨sampleCustomerIP, "again", 0⟩)⟩]

theorem ban_until_end_growingBans :
    PromisesKept growingBans ∧
    isBanned sampleCustomerIP 900000000000 (afterCalls growingBans) = true := by
  refine ⟨(ban_until_end_iff growingBans (by decide)).mpr ?_, by decide⟩
  intro before made new rest heq old hold hip t hmade hforce
  match before, heq with
  | [], _ => cases hold
  | [_], heq => simp [growingBans] at heq
  | [_, _], heq =>
    simp only [growingBans, List.cons_append, List.nil_append, List.cons.injEq,
      TimedCall.mk.injEq, BanCall.ban.injEq] at heq
    obtain ⟨-, -, ⟨-, rfl⟩, -⟩ := heq
    rfl
  | [_, _, _], heq => simp [growingBans] at heq
  | _ :: _ :: _ :: _ :: _, heq => simp [growingBans] at heq

/-- An operator bans an address for good; then it calls twice. -/
theorem permanent_ban_cut_short :
    ∃ lasting automatic : BannedIP,
      lasting = createBan 0 ⟨sampleCustomerIP, "fraud", 0⟩ ∧ lasting.expiresAt = none ∧
      (countScanner sampleFormats sampleBanConfig 60000000000
        ⟨true, .ran, true, true, true, true, false⟩ "198.51.100.7"
        ⟨fun _ => 1, fun _ => 0, [lasting], []⟩).bans =
        afterCalls [⟨0, .ban lasting⟩, ⟨60000000000, .ban automatic⟩] ∧
      Promised [⟨0, .ban lasting⟩, ⟨60000000000, .ban automatic⟩] sampleCustomerIP
        4000000000000 ∧
      isBanned sampleCustomerIP 4000000000000
        (afterCalls [⟨0, .ban lasting⟩, ⟨60000000000, .ban automatic⟩]) = false := by
  refine ⟨createBan 0 ⟨sampleCustomerIP, "fraud", 0⟩,
    ⟨sampleCustomerIP, "2 unauthorised INVITEs in 10m0s", 2, false, some 3660000000000⟩,
    rfl, rfl, by decide +kernel, ?_, by decide⟩
  exact ⟨[], 0, _, [_], rfl, rfl, rfl, by simp⟩

end SuperSbc.Security

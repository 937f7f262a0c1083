import SuperSbc.ReadCommitted.Server

/-!
A transaction executed alone and the same transaction among others: a body
whose every read is of the store it commits on has the effects of an execution
alone.
-/

namespace SuperSbc.ReadCommitted

variable {Key : Type} {Row : Key → Type} {Entry Err α : Type} [DecidableEq Key]

namespace Transaction

variable {seen : Database Key Row Entry → Prop} {db : Database Key Row Entry}

variable {post : α → Progress Key Row Entry → Prop}

omit [DecidableEq Key] in
theorem sees_only_of_subset {p q : Progress Key Row Entry}
    (hseen : ∀ d, seen d → p.Agrees d db → d = db) (hsub : p.held ⊆ q.held) (d) (hd : seen d)
    (hagree : q.Agrees d db) : d = db :=
  hseen d hd (fun key hkey => hagree key (hsub hkey))

/-- When nothing but the committed store itself can be seen, the weakest
precondition is about the execution alone. -/
theorem wp_of_exec (code : Transaction Key Row Entry Err α) (p : Progress Key Row Entry)
    (hseen : ∀ d, seen d → p.Agrees d db → d = db)
    (hexec : ∀ value q, p.held ⊆ q.held → code.exec db p.effects = .ok (value, q.effects) →
      post value q) : code.wp seen db p post := by
  induction code generalizing p with
  | ret value => exact hexec value p (fun _ h => h) rfl
  | fail error => trivial
  | query next ih =>
    intro d hd hagree
    obtain rfl := hseen d hd hagree
    exact ih _ p hseen hexec
  | lock key next ih =>
    have hinsert := Set.subset_insert key p.held
    refine ⟨fun row hrow => ?_, fun d hd hagree hrow => ?_⟩
    · refine ih _ (p.hold key) (sees_only_of_subset hseen hinsert)
        (fun value q hsub hok => hexec value q (hinsert.trans hsub) ?_)
      rw [exec, hrow]
      exact hok
    · obtain rfl := hseen d hd hagree
      refine ih _ p hseen (fun value q hsub hok => hexec value q hsub ?_)
      rw [exec, hrow]
      exact hok
  | insert key row next ih =>
    have hinsert := Set.subset_insert key p.held
    refine ⟨fun hrow => ?_, fun d hd hagree hrow => ?_⟩
    · refine ih _ (p.write key (some row)) (sees_only_of_subset hseen hinsert)
        (fun value q hsub hok => hexec value q (hinsert.trans hsub) ?_)
      rw [exec, hrow]
      exact hok
    · obtain rfl := hseen d hd hagree
      refine ih _ p hseen (fun value q hsub hok => hexec value q hsub ?_)
      obtain ⟨found, hfound⟩ := Option.ne_none_iff_exists'.mp hrow
      rw [exec, hfound]
      exact hok
  | update key change next ih =>
    have hinsert := Set.subset_insert key p.held
    refine ⟨fun row row' hrow hput => ?_, fun d hd hagree hskip => ?_⟩
    · refine ih _ (p.write key (some row')) (sees_only_of_subset hseen hinsert)
        (fun value q hsub hok => hexec value q (hinsert.trans hsub) ?_)
      simp only [exec, hrow, hput]
      exact hok
    · obtain rfl := hseen d hd hagree
      refine ih _ p hseen (fun value q hsub hok => hexec value q hsub ?_)
      cases hrow : (d.apply p.effects).row key with
      | none => simpa only [exec, hrow] using hok
      | some row => simpa only [exec, hrow, hskip row hrow] using hok
  | delete key next ih =>
    have hinsert := Set.subset_insert key p.held
    refine ⟨fun hrow => ?_, fun d hd hagree hrow => ?_⟩
    · refine ih (p.write key none) (sees_only_of_subset hseen hinsert)
        (fun value q hsub hok => hexec value q (hinsert.trans hsub) ?_)
      obtain ⟨found, hfound⟩ := Option.ne_none_iff_exists'.mp hrow
      rw [exec, hfound]
      exact hok
    · obtain rfl := hseen d hd hagree
      refine ih p hseen (fun value q hsub hok => hexec value q hsub ?_)
      rw [exec, hrow]
      exact hok
  | append entry next ih => exact ih (p.push entry) hseen hexec

/-- The weakest precondition over the committed store alone holds of an
execution alone. -/
theorem exec_of_wp (code : Transaction Key Row Entry Err α) (p : Progress Key Row Entry) {value : α}
    {effects : List (Effect Key Row Entry)} (hwp : code.wp (fun d => d = db) db p post)
    (hexec : code.exec db p.effects = .ok (value, effects)) :
    ∃ q, q.effects = effects ∧ post value q := by
  have hself : p.Agrees db db := fun _ _ => rfl
  induction code generalizing p with
  | ret result =>
    obtain ⟨rfl, rfl⟩ := Prod.mk.inj (Except.ok.inj hexec)
    exact ⟨p, rfl, hwp⟩
  | fail error => cases hexec
  | query next ih => exact ih _ p (hwp db rfl hself) hexec hself
  | lock key next ih =>
    rw [exec] at hexec
    cases hrow : (db.apply p.effects).row key with
    | none => exact ih _ p (hwp.2 db rfl hself hrow) (hrow ▸ hexec) hself
    | some row => exact ih _ (p.hold key) (hwp.1 row hrow) (hrow ▸ hexec) (fun _ _ => rfl)
  | insert key row next ih =>
    rw [exec] at hexec
    cases hrow : (db.apply p.effects).row key with
    | none =>
      rw [hrow] at hexec
      exact ih _ (p.write key (some row)) (hwp.1 hrow) hexec (fun _ _ => rfl)
    | some found =>
      rw [hrow] at hexec
      exact ih _ p (hwp.2 db rfl hself (by simp [hrow])) hexec hself
  | update key change next ih =>
    rw [exec] at hexec
    cases hrow : (db.apply p.effects).row key with
    | none =>
      rw [hrow] at hexec
      exact ih _ p (hwp.2 db rfl hself (by simp [hrow])) hexec hself
    | some row =>
      rw [hrow] at hexec
      dsimp only at hexec
      cases hchange : change row with
      | skip =>
        rw [hchange] at hexec
        exact ih _ p (hwp.2 db rfl hself (by simp [hrow, hchange])) hexec hself
      | put row' =>
        rw [hchange] at hexec
        exact ih _ (p.write key (some row')) (hwp.1 row row' hrow hchange) hexec
          (fun _ _ => rfl)
      | violate =>
        rw [hchange] at hexec
        cases hexec
  | delete key next ih =>
    rw [exec] at hexec
    cases hrow : (db.apply p.effects).row key with
    | none =>
      rw [hrow] at hexec
      exact ih p (hwp.2 db rfl hself hrow) hexec hself
    | some found =>
      rw [hrow] at hexec
      exact ih (p.write key none) (hwp.1 (by simp [hrow])) hexec (fun _ _ => rfl)
  | append entry next ih => exact ih (p.push entry) hwp hexec hself

theorem run_of_wp {code : Transaction Key Row Entry Err α} {value : α}
    {after : Database Key Row Entry} (hwp : code.wp (fun d => d = db) db .start post)
    (hrun : code.run db = .ok (value, after)) : ∃ q, db.apply q.effects = after ∧ post value q := by
  obtain ⟨effects, hexec, rfl⟩ := exec_of_run hrun
  obtain ⟨q, rfl, hpost⟩ := exec_of_wp code .start hwp hexec
  exact ⟨q, rfl, hpost⟩

/-- An execution alone is found again in a transaction that saw nothing but
the store it commits on. -/
theorem wp_of_run {code : Transaction Key Row Entry Err α} (hseen : ∀ d, seen d → d = db)
    (hrun : ∀ value q, code.run db = .ok (value, db.apply q.effects) → post value q) :
    code.wp seen db .start post := by
  refine wp_of_exec code .start (fun d hd _ => hseen d hd) (fun value q _ hexec => hrun value q ?_)
  unfold run
  rw [Progress.effects_start] at hexec
  rw [hexec]

end Transaction

end SuperSbc.ReadCommitted

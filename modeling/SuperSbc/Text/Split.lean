import Mathlib.Data.List.TakeWhile
import SuperSbc.Text.Reading

/-!
Texts cut into parts, at one character or at white space.
-/

namespace SuperSbc.Text

section Parts

variable {α : Type}

theorem of_mem_splitOnP {p : α → Bool} {s part : List α} (h : part ∈ s.splitOnP p) :
    ∀ c ∈ part, p c = false := by
  induction s generalizing part with
  | nil =>
    rw [List.splitOnP_nil, List.mem_singleton] at h
    rw [h]
    exact fun c hc => absurd hc List.not_mem_nil
  | cons d rest ih =>
    rw [List.splitOnP_cons_eq_if_modifyHead] at h
    split_ifs at h with hd
    · rcases List.mem_cons.mp h with rfl | hrest
      · exact fun c hc => absurd hc List.not_mem_nil
      · exact ih hrest
    · obtain ⟨first, others, hparts⟩ := List.exists_cons_of_ne_nil (List.splitOnP_ne_nil p rest)
      rw [hparts, List.modifyHead_cons] at h
      rw [hparts] at ih
      rcases List.mem_cons.mp h with rfl | hrest
      · intro c hc
        rcases List.mem_cons.mp hc with rfl | hc
        · simpa using hd
        · exact ih List.mem_cons_self c hc
      · exact ih (List.mem_cons_of_mem _ hrest)

theorem notMem_of_mem_splitOn [BEq α] [LawfulBEq α] {c : α} {s part : List α}
    (h : part ∈ s.splitOn c) : c ∉ part := by
  intro hc
  have hcut := of_mem_splitOnP h c hc
  simp at hcut

end Parts

/-- `strings.Split` at a comma. -/
def commaParts (s : String) : List String := (s.toList.splitOn ',').map String.ofList

theorem commaParts_intercalate {names : List String} (hne : names ≠ [])
    (hcomma : ∀ name ∈ names, ',' ∉ name.toList) :
    commaParts (",".intercalate names) = names := by
  have hjoined : (",".intercalate names).toList = [','].intercalate (names.map String.toList) :=
    String.toList_intercalate
  have hback : (names.map String.toList).map String.ofList = names := by
    rw [List.map_map]
    exact List.map_id'' (fun name => String.ofList_toList) names
  rw [commaParts, hjoined, List.splitOn_intercalate ',' ?_ (by simpa using hne), hback]
  intro l hl
  obtain ⟨name, hname, rfl⟩ := List.mem_map.mp hl
  exact hcomma name hname

theorem mem_of_mem_trimSpace {c : Char} {s : List Char} (h : c ∈ trimSpace s) : c ∈ s := by
  rw [trimSpace, List.mem_reverse] at h
  have hreversed := (List.dropWhile_sublist _).mem h
  exact (List.dropWhile_sublist _).mem (List.mem_reverse.mp hreversed)

theorem trimSpace_of_forall {s : List Char} (h : ∀ c ∈ s, isSpace c = false) :
    trimSpace s = s := by
  have hkept {l : List Char} (hl : ∀ c ∈ l, isSpace c = false) : l.dropWhile isSpace = l :=
    List.dropWhile_eq_self_iff.mpr (fun hpos => by simp [hl _ (List.getElem_mem hpos)])
  rw [trimSpace, hkept h, hkept (fun c hc => h c (List.mem_reverse.mp hc)), List.reverse_reverse]

section Decimal

theorem digitsValue_toDigits (n : ℕ) : digitsValue 10 (Nat.toDigits 10 n) = some n := by
  induction n using Nat.strong_induction_on with
  | h n ih =>
    have hlast : ∀ d < 10, (digitValue (Nat.digitChar d)).filter (· < 10) = some d := by
      decide +kernel
    by_cases hn : n < 10
    · rw [Nat.toDigits_of_lt_base hn]
      simp [digitsValue, hlast n hn]
    · rw [Nat.toDigits_of_base_le (by norm_num) (not_lt.mp hn), digitsValue_append,
        ih _ (Nat.div_lt_self (by omega) (by norm_num)), Option.bind_some,
        hlast _ (Nat.mod_lt _ (by norm_num)), Option.map_some, Nat.div_add_mod]

theorem isSpace_of_isDigit {c : Char} (h : c.isDigit = true) : isSpace c = false := by
  have hrange : 48 ≤ c.toNat ∧ c.toNat ≤ 57 := by
    simpa [Char.isDigit, UInt32.le_iff_toNat_le] using h
  unfold isSpace
  simp
  omega

/-- A number is read back from its decimal text. -/
theorem readInt_toString (n : ℤ) : readInt (trimSpace (toString n).toList) = some n := by
  have htext (n : ℕ) : (Nat.repr n).toList = Nat.toDigits 10 n := by
    rw [Nat.repr_eq_ofList_toDigits, String.toList_ofList]
  have hdigit {n : ℕ} {c : Char} (hc : c ∈ Nat.toDigits 10 n) : c.isDigit = true :=
    Nat.isDigit_of_mem_toDigits (by norm_num) (by norm_num) hc
  have hspace {n : ℕ} : ∀ c ∈ Nat.toDigits 10 n, isSpace c = false :=
    fun c hc => isSpace_of_isDigit (hdigit hc)
  cases n with
  | ofNat n =>
    change readInt (trimSpace (Nat.repr n).toList) = _
    rw [htext, trimSpace_of_forall hspace]
    have hvalue := digitsValue_toDigits n
    cases hall : Nat.toDigits 10 n with
    | nil => exact absurd hall Nat.toDigits_ne_nil
    | cons c rest =>
      have hc : c.isDigit = true := hdigit (hall ▸ List.mem_cons_self)
      have hminus : c ≠ '-' := by
        rintro rfl
        cases hc
      have hplus : c ≠ '+' := by
        rintro rfl
        cases hc
      rw [hall] at hvalue
      simp [readInt, hminus, hplus, hvalue]
  | negSucc n =>
    rw [toList_negSucc, htext,
      trimSpace_of_forall (List.forall_mem_cons.mpr ⟨by decide, hspace⟩), readInt, if_pos rfl,
      if_neg Nat.toDigits_ne_nil, digitsValue_toDigits]
    rfl

end Decimal

/-- `strings.Fields`. -/
def fields (s : List Char) : List (List Char) := (s.splitOnP isSpace).filter (· ≠ [])

theorem isSpace_of_mem_fields {s field : List Char} (h : field ∈ fields s) :
    ∀ c ∈ field, isSpace c = false :=
  of_mem_splitOnP (List.mem_filter.mp h).1

end SuperSbc.Text

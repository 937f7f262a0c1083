import SuperSbc.Text.Case

/-!
Upper case and case folding over all of Unicode, as Go's `unicode` package has
them. The tables are a parameter; what is known of them is their ASCII part and
the two characters beyond ASCII that fold to it, the long s and the Kelvin sign.
Of these the Kelvin sign is its own upper case.
-/

namespace SuperSbc.Text

abbrev longS : Char := '\u017f'

abbrev kelvin : Char := '\u212a'

structure CaseTable where
  /-- `unicode.ToUpper`. -/
  upper : Char → Char
  /-- The least character that `unicode.SimpleFold` leads to. -/
  folded : Char → Char
  upper_ascii : ∀ c : Char, c.toNat < 128 → upper c = c.toUpper
  folded_ascii : ∀ c : Char, c.toNat < 128 → folded c = c.toUpper
  upper_longS : upper longS = 'S'
  folded_longS : folded longS = 'S'
  upper_kelvin : upper kelvin = kelvin
  folded_kelvin : folded kelvin = 'K'
  ascii_of_folded : ∀ c : Char, (folded c).toNat < 128 →
    c.toNat < 128 ∨ c = longS ∨ c = kelvin

/-- The table in which no other character has a case. -/
def plainCase : CaseTable where
  upper c := if c = longS then 'S' else c.toUpper
  folded c := if c = longS then 'S' else if c = kelvin then 'K' else c.toUpper
  upper_ascii c hc := by
    rw [if_neg]
    rintro rfl
    exact absurd hc (by decide)
  folded_ascii c hc := by
    rw [if_neg, if_neg]
    · rintro rfl
      exact absurd hc (by decide)
    · rintro rfl
      exact absurd hc (by decide)
  upper_longS := rfl
  folded_longS := rfl
  upper_kelvin := rfl
  folded_kelvin := rfl
  ascii_of_folded c hc := by
    split_ifs at hc with hlong hkelvin
    · exact .inr (.inl hlong)
    · exact .inr (.inr hkelvin)
    · rw [toNat_toUpper] at hc
      split_ifs at hc <;> exact .inl (by omega)

namespace CaseTable

variable (u : CaseTable)

/-- `strings.EqualFold`. -/
def equalFold (s t : String) : Bool := s.toList.map u.folded = t.toList.map u.folded

/-- `strings.ToUpper`. -/
def toUpper (s : String) : String := String.ofList (s.toList.map u.upper)

variable {u} {r s t : String}

theorem equalFold_iff : u.equalFold s t = true ↔ s.toList.map u.folded = t.toList.map u.folded :=
  decide_eq_true_iff

theorem equalFold_symm (h : u.equalFold s t = true) : u.equalFold t s = true :=
  equalFold_iff.mpr (equalFold_iff.mp h).symm

theorem equalFold_trans (hrs : u.equalFold r s = true) (hst : u.equalFold s t = true) :
    u.equalFold r t = true :=
  equalFold_iff.mpr ((equalFold_iff.mp hrs).trans (equalFold_iff.mp hst))

theorem toUpper_eq_iff : u.toUpper s = u.toUpper t ↔ s.toList.map u.upper = t.toList.map u.upper :=
  String.ofList_inj

/-- A text of ASCII characters. -/
def Ascii (s : String) : Prop := ∀ c ∈ s.toList, c.toNat < 128

instance : DecidablePred Ascii := fun s => List.decidableBAll _ s.toList

theorem toNat_toUpper_lt {c : Char} (h : c.toNat < 128) : c.toUpper.toNat < 128 := by
  rw [toNat_toUpper]
  split_ifs <;> omega

/-- Of a character that folds to ASCII the upper case is what it folds to, but
for the Kelvin sign. -/
theorem upper_eq_folded {c : Char} (h : (u.folded c).toNat < 128) (hkelvin : c ≠ kelvin) :
    u.upper c = u.folded c := by
  rcases u.ascii_of_folded c h with hascii | rfl | rfl
  · rw [u.upper_ascii c hascii, u.folded_ascii c hascii]
  · rw [u.upper_longS, u.folded_longS]
  · exact absurd rfl hkelvin

/-- Among the characters that fold to ASCII, upper case tells as much apart as
folding does, or more. -/
theorem folded_eq_of_upper_eq {c d : Char} (hc : (u.folded c).toNat < 128)
    (hd : (u.folded d).toNat < 128) (h : u.upper c = u.upper d) : u.folded c = u.folded d := by
  have hbeyond {c d : Char} (hd : (u.folded d).toNat < 128) (hc : c = kelvin)
      (h : u.upper c = u.upper d) : d = kelvin := by
    by_contra hne
    rw [hc, u.upper_kelvin, upper_eq_folded hd hne] at h
    rw [← h] at hd
    exact absurd hd (by decide)
  by_cases hkelvin : c = kelvin
  · rw [hkelvin, hbeyond hd hkelvin h]
  · by_cases hkelvin' : d = kelvin
    · exact absurd (hbeyond hc hkelvin' h.symm) hkelvin
    · rw [← upper_eq_folded hc hkelvin, ← upper_eq_folded hd hkelvin', h]

/-- A text whose characters fold to ASCII. -/
def FoldsToAscii (u : CaseTable) (s : String) : Prop := ∀ c ∈ s.toList, (u.folded c).toNat < 128

theorem Ascii.folds (hs : Ascii s) : FoldsToAscii u s := fun c hc => by
  rw [u.folded_ascii c (hs c hc)]
  exact toNat_toUpper_lt (hs c hc)

theorem FoldsToAscii.congr (hs : FoldsToAscii u s) (h : u.equalFold s t = true) :
    FoldsToAscii u t := by
  intro c hc
  have hmem : u.folded c ∈ s.toList.map u.folded := by
    rw [equalFold_iff.mp h]
    exact List.mem_map_of_mem hc
  obtain ⟨d, hd, hsame⟩ := List.mem_map.mp hmem
  rw [← hsame]
  exact hs d hd

/-- Texts that fold to ASCII and have one upper case fold to one text. -/
theorem equalFold_of_toUpper_eq (hs : FoldsToAscii u s) (ht : FoldsToAscii u t)
    (h : u.toUpper s = u.toUpper t) : u.equalFold s t = true := by
  unfold FoldsToAscii at hs ht
  rw [equalFold_iff]
  rw [toUpper_eq_iff] at h
  generalize s.toList = l at hs h ⊢
  generalize t.toList = m at ht h ⊢
  induction l generalizing m with
  | nil =>
    rw [List.map_nil, eq_comm, List.map_eq_nil_iff] at h
    rw [h]
  | cons c l ih =>
    cases m with
    | nil => cases h
    | cons d m =>
      obtain ⟨hcd, hrest⟩ := List.cons.inj h
      rw [List.map_cons, List.map_cons, folded_eq_of_upper_eq (hs c List.mem_cons_self)
        (ht d List.mem_cons_self) hcd, ih (fun c hc => hs c (List.mem_cons_of_mem _ hc)) m
        (fun d hd => ht d (List.mem_cons_of_mem _ hd)) hrest]

theorem eq_of_folded_sign {c d : Char} (hc : c.toNat < 65) (h : u.folded d = u.folded c) :
    d = c := by
  have hsign {e : Char} (he : e.toNat < 128) (hupper : e.toUpper.toNat < 65) : e.toUpper = e := by
    rw [toNat_toUpper] at hupper
    rw [← Char.toNat_inj, toNat_toUpper]
    split_ifs at hupper ⊢ <;> omega
  have hself : u.folded c = c := by
    rw [u.folded_ascii c (by omega), hsign (by omega) ?_]
    rw [toNat_toUpper]
    split_ifs <;> omega
  rw [hself] at h
  rcases u.ascii_of_folded d (by rw [h]; omega) with hascii | rfl | rfl
  · rw [u.folded_ascii d hascii] at h
    rw [← hsign hascii (by rw [h]; exact hc), h]
  · rw [u.folded_longS] at h
    exact absurd hc (by rw [← h]; decide)
  · rw [u.folded_kelvin] at h
    exact absurd hc (by rw [← h]; decide)

theorem mem_sign_of_equalFold {c : Char} (hc : c.toNat < 65) (h : u.equalFold s t = true)
    (hmem : c ∈ s.toList) : c ∈ t.toList := by
  have hfolded : u.folded c ∈ t.toList.map u.folded := by
    rw [← equalFold_iff.mp h]
    exact List.mem_map_of_mem hmem
  obtain ⟨d, hd, hsame⟩ := List.mem_map.mp hfolded
  rwa [← eq_of_folded_sign hc hsame]

/-- Without a Kelvin sign folding and upper case say the same of texts that
fold to ASCII. -/
theorem toUpper_eq_of_equalFold (hs : FoldsToAscii u s) (hkelvin : kelvin ∉ s.toList)
    (hkelvin' : kelvin ∉ t.toList) (h : u.equalFold s t = true) :
    u.toUpper s = u.toUpper t := by
  have ht := hs.congr h
  rw [toUpper_eq_iff, List.map_congr_left (fun c hc => upper_eq_folded (hs c hc)
      (fun hc' => hkelvin (hc' ▸ hc))),
    List.map_congr_left (fun c hc => upper_eq_folded (ht c hc) (fun hc' => hkelvin' (hc' ▸ hc)))]
  exact equalFold_iff.mp h

end CaseTable

end SuperSbc.Text

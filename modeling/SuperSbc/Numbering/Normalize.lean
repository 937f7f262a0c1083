import Mathlib.Data.List.DropRight
import SuperSbc.CallControl.Setup
import SuperSbc.Text.Split

/-!
Dialled and calling numbers as E.164 digits. What a customer sends is cut down
to its digits; an international prefix is taken off, a national number gets the
customer's country code. A called number has to come out with 7 to 15
characters and no leading zero, a caller may be anything.
-/

namespace SuperSbc.Text

/-- The number of bytes of a text. -/
def byteLength (s : List Char) : ℕ := (s.map Char.utf8Size).sum

theorem byteLength_append (s t : List Char) :
    byteLength (s ++ t) = byteLength s + byteLength t := by
  simp [byteLength]

theorem byteLength_digits {s : List Char} (hdigits : ∀ c ∈ s, c.isDigit) :
    byteLength s = s.length := by
  induction s with
  | nil => rfl
  | cons c rest ih =>
    have hsize : c.utf8Size = 1 := by
      have hdigit := hdigits c List.mem_cons_self
      simp only [Char.isDigit, Bool.and_eq_true, decide_eq_true_eq] at hdigit
      exact Char.utf8Size_eq_one_iff.mpr (UInt32.le_trans hdigit.2 (by decide))
    have hrest := ih (fun d hd => hdigits d (List.mem_cons_of_mem c hd))
    simp only [byteLength, List.map_cons, List.sum_cons, List.length_cons] at hrest ⊢
    omega

theorem trimSpace_trimSpace (s : List Char) : trimSpace (trimSpace s) = trimSpace s := by
  have hfront : (trimSpace s).dropWhile isSpace = trimSpace s := by
    cases htrim : trimSpace s with
    | nil => rfl
    | cons c rest =>
      have hpre : c :: rest <+: s.dropWhile isSpace := by
        rw [← htrim]
        exact List.rdropWhile_prefix isSpace _
      obtain ⟨more, hmore⟩ := hpre
      have hhead : isSpace c = false := by
        have hnot := List.head?_dropWhile_not isSpace s
        simpa [← hmore] using hnot
      rw [List.dropWhile_cons_of_neg (by simp [hhead])]
  have hback : List.rdropWhile isSpace (trimSpace s) = trimSpace s :=
    List.rdropWhile_idempotent isSpace (s.dropWhile isSpace)
  calc trimSpace (trimSpace s)
      = List.rdropWhile isSpace ((trimSpace s).dropWhile isSpace) := rfl
    _ = trimSpace s := by rw [hfront, hback]

theorem isSpace_digit {c : Char} (hdigit : c.isDigit) : isSpace c = false := by
  simp only [Char.isDigit, Bool.and_eq_true, decide_eq_true_eq] at hdigit
  have hlow : 48 ≤ c.toNat := UInt32.le_iff_toNat_le.mp hdigit.1
  have hhigh : c.toNat ≤ 57 := UInt32.le_iff_toNat_le.mp hdigit.2
  simp only [isSpace, List.mem_cons, List.not_mem_nil, or_false, Bool.or_eq_false_iff,
    decide_eq_false_iff_not, Bool.and_eq_false_iff]
  omega

end SuperSbc.Text

namespace SuperSbc.Numbering

open Text CallControl

/-- The text of `ErrMalformed`. -/
def malformed : String := "malformed number"

/-- Without what follows a `;` or an `@`. -/
def userPart (s : List Char) : List Char := s.takeWhile (fun c => c ≠ ';' && c ≠ '@')

/-- The customer's international prefix, or the usual one. -/
def intl (o : NormOptions) : List Char :=
  if o.intlPrefix = "" then ['0', '0'] else o.intlPrefix.toList

/-- Without the customer's tech prefix. -/
def withoutTech (o : NormOptions) (s : List Char) : List Char :=
  if o.techPrefix ≠ "" ∧ o.techPrefix.toList <+: s then s.drop o.techPrefix.toList.length else s

/-- The switch of `Normalize`: digits after a plus are international as they
are. -/
def international (o : NormOptions) (plus : Bool) (digits : List Char) : List Char :=
  if plus then digits
  else if intl o <+: digits ∧ (intl o).length < digits.length then digits.drop (intl o).length
  else if digits.head? = some '0' ∧ o.defaultCountryCode ≠ "" then
    o.defaultCountryCode.toList ++ digits.dropWhile (· = '0')
  else digits

theorem international_dialled (o : NormOptions) (digits : List Char) :
    international o false digits =
      if intl o <+: digits ∧ (intl o).length < digits.length then digits.drop (intl o).length
      else if digits.head? = some '0' ∧ o.defaultCountryCode ≠ "" then
        o.defaultCountryCode.toList ++ digits.dropWhile (· = '0')
      else digits :=
  rfl

def normalize (o : NormOptions) (raw : String) : Except String String :=
  let s := userPart (withoutTech o (trimSpace raw.toList))
  let digits := s.filter Char.isDigit
  if digits = [] then .error malformed
  else
    let number := international o (s.head? = some '+') digits
    if number = [] ∨ number.head? = some '0' then .error malformed
    else if byteLength number < 7 ∨ 15 < byteLength number then .error malformed
    else .ok (String.ofList number)

/-- A caller's tech prefix stays, and a single zero is no national number. -/
def normalizeCaller (o : NormOptions) (raw : String) : String :=
  let s := userPart (trimSpace raw.toList)
  let digits := s.filter Char.isDigit
  if s = [] then ""
  else if digits = [] then String.ofList s
  else if s.head? = some '+' then String.ofList digits
  else if intl o <+: digits ∧ (intl o).length < digits.length then
    String.ofList (digits.drop (intl o).length)
  else if digits.head? = some '0' ∧ o.defaultCountryCode ≠ "" ∧ 1 < digits.length then
    String.ofList (o.defaultCountryCode.toList ++ digits.dropWhile (· = '0'))
  else String.ofList digits

/-- What the last checks let through. -/
structure Dialable (number : List Char) : Prop where
  head : number.head? ≠ some '0'
  long : 7 ≤ byteLength number
  short : byteLength number ≤ 15

variable {o : NormOptions} {raw n : String}

/-- The part of a dialled text that is looked at. -/
def dialled (o : NormOptions) (raw : String) : List Char :=
  userPart (withoutTech o (trimSpace raw.toList))

/-- The number a dialled text stands for, before it is checked. -/
def numberOf (o : NormOptions) (raw : String) : List Char :=
  international o ((dialled o raw).head? = some '+') ((dialled o raw).filter Char.isDigit)

theorem normalize_ok_iff : normalize o raw = .ok n ↔
    (dialled o raw).filter Char.isDigit ≠ [] ∧ Dialable (numberOf o raw) ∧
      n = String.ofList (numberOf o raw) := by
  change (if (dialled o raw).filter Char.isDigit = [] then Except.error malformed
    else if numberOf o raw = [] ∨ (numberOf o raw).head? = some '0' then Except.error malformed
    else if byteLength (numberOf o raw) < 7 ∨ 15 < byteLength (numberOf o raw) then
      Except.error malformed
    else Except.ok (String.ofList (numberOf o raw))) = .ok n ↔ _
  split_ifs with hnone hhead hlength
  · exact ⟨fun h => (by cases h), fun h => absurd hnone h.1⟩
  · refine ⟨fun h => (by cases h), fun ⟨_, hdial, _⟩ => ?_⟩
    rcases hhead with hnil | hzero
    · have hlong := hdial.long
      rw [hnil] at hlong
      exact absurd hlong (by decide)
    · exact absurd hzero hdial.head
  · refine ⟨fun h => (by cases h), fun ⟨_, hdial, _⟩ => ?_⟩
    have hlong := hdial.long
    have hshort := hdial.short
    omega
  · constructor
    · intro h
      exact ⟨hnone, ⟨fun hzero => hhead (.inr hzero), by omega, by omega⟩,
        (Except.ok.inj h).symm⟩
    · rintro ⟨-, -, rfl⟩
      rfl

/-- The digits of a dialled text, or country code and digits. -/
theorem numberOf_cases (o : NormOptions) (raw : String) :
    (∀ c ∈ numberOf o raw, c.isDigit) ∨
      ∃ rest : List Char, (∀ c ∈ rest, c.isDigit) ∧ o.defaultCountryCode ≠ "" ∧
        numberOf o raw = o.defaultCountryCode.toList ++ rest := by
  have hdigits : ∀ c ∈ (dialled o raw).filter Char.isDigit, c.isDigit :=
    fun c hc => List.of_mem_filter hc
  unfold numberOf international
  split_ifs with hplus hintl hnational
  · exact .inl hdigits
  · exact .inl (fun c hc => hdigits c (List.mem_of_mem_drop hc))
  · exact .inr ⟨_, fun c hc => hdigits c (List.dropWhile_sublist _ |>.mem hc), hnational.2, rfl⟩
  · exact .inl hdigits

section Digits

variable {d : List Char}

theorem dialled_plain (htech : o.techPrefix = "") (front : List Char)
    (hfront : front = [] ∨ front = ['+']) (hd : ∀ c ∈ d, c.isDigit) :
    dialled o (String.ofList (front ++ d)) = front ++ d := by
  have hplain : ∀ c ∈ front ++ d, isSpace c = false ∧ (c ≠ ';' && c ≠ '@') = true := by
    intro c hc
    rcases List.mem_append.mp hc with hplus | hdigit
    · rcases hfront with rfl | rfl
      · cases hplus
      · obtain rfl := List.mem_singleton.mp hplus
        decide
    · refine ⟨isSpace_digit (hd c hdigit), ?_⟩
      have hcdigit := hd c hdigit
      simp only [ne_eq, decide_not, Bool.and_eq_true, Bool.not_eq_true', decide_eq_false_iff_not]
      constructor
      · rintro rfl
        exact absurd hcdigit (by decide)
      · rintro rfl
        exact absurd hcdigit (by decide)
  rw [dialled, String.toList_ofList, trimSpace_of_forall (fun c hc => (hplain c hc).1),
    withoutTech, if_neg (by simp [htech]), userPart]
  exact List.takeWhile_eq_self_iff.mpr (fun c hc => (hplain c hc).2)

theorem normalize_plain (htech : o.techPrefix = "") (hd : ∀ c ∈ d, c.isDigit) (hne : d ≠ []) :
    normalize o (String.ofList d) = .ok n ↔
      Dialable (international o false d) ∧ n = String.ofList (international o false d) := by
  have hdialled : dialled o (String.ofList d) = d := dialled_plain htech [] (.inl rfl) hd
  have hfilter : d.filter Char.isDigit = d := List.filter_eq_self.mpr hd
  have hplus : d.head? ≠ some '+' := by
    intro hhead
    exact absurd (hd '+' (List.mem_of_head? hhead)) (by decide)
  rw [normalize_ok_iff, numberOf, hdialled, hfilter, decide_eq_false hplus]
  exact ⟨fun h => h.2, fun h => ⟨hne, h⟩⟩

theorem normalize_plus (htech : o.techPrefix = "") (hd : ∀ c ∈ d, c.isDigit) (hne : d ≠ []) :
    normalize o (String.ofList ('+' :: d)) = .ok n ↔ Dialable d ∧ n = String.ofList d := by
  have hdialled : dialled o (String.ofList ('+' :: d)) = '+' :: d :=
    dialled_plain htech ['+'] (.inr rfl) hd
  have hfilter : ('+' :: d).filter Char.isDigit = d := by
    rw [List.filter_cons_of_neg (by decide)]
    exact List.filter_eq_self.mpr hd
  rw [normalize_ok_iff, numberOf, hdialled, hfilter, international, List.head?_cons,
    if_pos (by simp)]
  exact ⟨fun h => h.2, fun h => ⟨hne, h⟩⟩

end Digits

end SuperSbc.Numbering

import SuperSbc.CallControl.Exits
import SuperSbc.Numbering.Normalize

/-!
The number the routing simulator works with, next to the one a setup works
with. Both normalise what a customer dials with options made from the
customer's settings, but each makes its own options: the simulator passes the
international prefix on, the setup does not.
-/

namespace SuperSbc.Admin

open Text CallControl SuperSbc.Numbering

/-- A customer with the settings numbers are normalised by. -/
structure DialSettings extends Customer where
  intlPrefix : String

/-- The options `simulate` makes. -/
def simulateOptions (cust : DialSettings) : NormOptions where
  techPrefix := cust.techPrefix.getD ""
  defaultCountryCode := cust.defaultCountryCode.getD ""
  intlPrefix := cust.intlPrefix

/-- The number a simulation goes on with. -/
def simulatedNumber (cust : DialSettings) (raw : String) : Except String String :=
  let number := trimSpace raw.toList
  if number = [] then .error "customer_id and number required"
  else normalize (simulateOptions cust) (String.ofList number)

/-- The number a setup goes on with. -/
def setupNumber (cust : DialSettings) (raw : String) : Except String String :=
  normalize (normOptions cust.toCustomer) raw

/-- The configured international prefix; empty means the usual one. -/
def DialSettings.dialPrefix (cust : DialSettings) : List Char :=
  if cust.intlPrefix = "" then ['0', '0'] else cust.intlPrefix.toList

/-- 7 to 15 digits, the first of them not zero. -/
structure Subscriber (d : List Char) : Prop where
  digits : ∀ c ∈ d, c.isDigit
  long : 7 ≤ d.length
  short : d.length ≤ 15
  head : d.head? ≠ some '0'

/-- Number normalisation as the settings of a customer ask for it: every way of
dialling an international number is understood, the simulator shows what a
setup does, and accepted numbers are well formed. -/
structure Honoured (cust : DialSettings) : Prop where
  understood : ∀ d, Subscriber d → ¬ cust.dialPrefix <+: d →
    setupNumber cust (String.ofList ('+' :: d)) = .ok (String.ofList d) ∧
      setupNumber cust (String.ofList (cust.dialPrefix ++ d)) = .ok (String.ofList d) ∧
      setupNumber cust (String.ofList d) = .ok (String.ofList d)
  simulated : ∀ raw, (simulatedNumber cust raw).toOption = (setupNumber cust raw).toOption
  accepted : ∀ raw n, setupNumber cust raw = .ok n → Subscriber n.toList

/-- A country code that puts nothing but digits in front of a number that is
accepted: none at all, one of digits, or one no number with which is accepted. -/
def CodeOfDigits (code : List Char) : Prop :=
  code = [] ∨ (∀ c ∈ code, c.isDigit) ∨ code.head? = some '0' ∨ 15 < byteLength code

theorem Subscriber.dialable {d : List Char} (h : Subscriber d) : Dialable d where
  head := h.head
  long := by rw [byteLength_digits h.digits]; exact h.long
  short := by rw [byteLength_digits h.digits]; exact h.short

theorem Subscriber.ne_nil {d : List Char} (h : Subscriber d) : d ≠ [] := by
  rintro rfl
  exact absurd h.long (by decide)

variable {cust : DialSettings}

section Setup

variable {d : List Char}

theorem international_subscriber {o : NormOptions} (hd : Subscriber d) (hintl : ¬ intl o <+: d) :
    international o false d = d := by
  rw [international_dialled, if_neg (fun h => hintl h.1), if_neg (fun h => hd.head h.1)]

theorem zeros_not_front (hd : Subscriber d) : ¬ ['0', '0'] <+: d := by
  rintro ⟨rest, rfl⟩
  exact hd.head rfl

theorem international_append {o : NormOptions} (hne : d ≠ []) :
    international o false (intl o ++ d) = d := by
  have hlength : (intl o).length < (intl o ++ d).length := by
    have hpos := List.length_pos_iff.mpr hne
    rw [List.length_append]
    omega
  rw [international_dialled, if_pos ⟨List.prefix_append _ _, hlength⟩, List.drop_left]

theorem international_national {cust : Customer} {rest : List Char}
    (hcode : cust.defaultCountryCode.getD "" ≠ "") (hrest : rest.head? ≠ some '0') :
    international (normOptions cust) false ('0' :: rest) =
      (cust.defaultCountryCode.getD "").toList ++ rest := by
  have hintl : ¬ intl (normOptions cust) <+: '0' :: rest := by
    rintro ⟨more, hmore⟩
    exact hrest (by rw [← (List.cons.inj hmore).2]; rfl)
  have hzeros : ('0' :: rest).dropWhile (· = '0') = rest := by
    rw [List.dropWhile_cons_of_pos (by decide)]
    cases rest with
    | nil => rfl
    | cons c rest =>
      refine List.dropWhile_cons_of_neg (fun hc => hrest ?_)
      rw [List.head?_cons, of_decide_eq_true hc]
  rw [international_dialled, if_neg (fun h => hintl h.1), if_pos ⟨rfl, hcode⟩, hzeros]
  rfl

theorem digits_zeros (hd : ∀ c ∈ d, c.isDigit) : ∀ c ∈ ['0', '0'] ++ d, c.isDigit := by
  intro c hc
  rcases List.mem_append.mp hc with hzero | hdigit
  · simp only [List.mem_cons, List.not_mem_nil, or_false, or_self] at hzero
    rw [hzero]
    decide
  · exact hd c hdigit

/-- A setup understands `00` in front of a number, whatever is configured. -/
theorem setupNumber_zeros (htech : cust.techPrefix.getD "" = "") (hd : Subscriber d) :
    setupNumber cust (String.ofList (['0', '0'] ++ d)) = .ok (String.ofList d) := by
  have hnumber : international (normOptions cust.toCustomer) false (['0', '0'] ++ d) = d :=
    international_append hd.ne_nil
  refine (normalize_plain htech (digits_zeros hd.digits) (by simp)).mpr ?_
  rw [hnumber]
  exact ⟨hd.dialable, rfl⟩

theorem understood_of_zeros (htech : cust.techPrefix.getD "" = "")
    (hzeros : cust.dialPrefix = ['0', '0']) (hd : Subscriber d) :
    setupNumber cust (String.ofList ('+' :: d)) = .ok (String.ofList d) ∧
      setupNumber cust (String.ofList (cust.dialPrefix ++ d)) = .ok (String.ofList d) ∧
      setupNumber cust (String.ofList d) = .ok (String.ofList d) := by
  refine ⟨?_, ?_, ?_⟩
  · exact (normalize_plus htech hd.digits hd.ne_nil).mpr ⟨hd.dialable, rfl⟩
  · rw [hzeros]
    exact setupNumber_zeros htech hd
  · have hnumber : international (normOptions cust.toCustomer) false d = d :=
      international_subscriber hd (zeros_not_front hd)
    refine (normalize_plain htech hd.digits hd.ne_nil).mpr ?_
    rw [hnumber]
    exact ⟨hd.dialable, rfl⟩

/-- What a setup accepts is well formed when the country code is. -/
theorem subscriber_of_accepted (hcode : CodeOfDigits (cust.defaultCountryCode.getD "").toList)
    {raw n : String} (h : setupNumber cust raw = .ok n) : Subscriber n.toList := by
  obtain ⟨-, hdial, rfl⟩ := normalize_ok_iff.mp h
  have hdigits : ∀ c ∈ numberOf (normOptions cust.toCustomer) raw, c.isDigit := by
    rcases numberOf_cases (normOptions cust.toCustomer) raw with hall | ⟨rest, hrest, hne, hnumber⟩
    · exact hall
    · rw [hnumber] at hdial ⊢
      rcases hcode with hnone | hcode | hzero | hlong
      · exact absurd (String.toList_eq_nil_iff.mp hnone) hne
      · intro c hc
        rcases List.mem_append.mp hc with hfront | hback
        · exact hcode c hfront
        · exact hrest c hback
      · refine absurd ?_ hdial.head
        rw [List.head?_append, show (normOptions cust.toCustomer).defaultCountryCode.toList.head? =
          some '0' from hzero]
        rfl
      · have hshort := hdial.short
        rw [byteLength_append] at hshort
        exact absurd (show 15 < byteLength (normOptions cust.toCustomer).defaultCountryCode.toList
          from hlong) (by omega)
  rw [String.toList_ofList]
  have hlength := byteLength_digits hdigits
  exact ⟨hdigits, hlength ▸ hdial.long, hlength ▸ hdial.short, hdial.head⟩

end Setup

section Simulator

theorem normalize_nil (o : NormOptions) (htech : o.techPrefix = "") :
    (normalize o "").toOption = none := by
  have hnone : dialled o "" = [] := by
    rw [dialled, withoutTech, if_neg (by simp [htech])]
    rfl
  cases h : normalize o "" with
  | error => rfl
  | ok n => exact absurd (by rw [hnone]; rfl) (normalize_ok_iff.mp h).1

theorem toOption_simulatedNumber (htech : cust.techPrefix.getD "" = "") (raw : String) :
    (simulatedNumber cust raw).toOption = (normalize (simulateOptions cust) raw).toOption := by
  have htrim : normalize (simulateOptions cust) (String.ofList (trimSpace raw.toList)) =
      normalize (simulateOptions cust) raw := by
    unfold Numbering.normalize
    rw [String.toList_ofList, trimSpace_trimSpace]
  unfold simulatedNumber
  simp only
  split_ifs with hempty
  · rw [← htrim, hempty]
    exact (normalize_nil _ htech).symm
  · rw [htrim]

theorem simulated_of_zeros (htech : cust.techPrefix.getD "" = "")
    (hzeros : cust.dialPrefix = ['0', '0']) (raw : String) :
    (simulatedNumber cust raw).toOption = (setupNumber cust raw).toOption := by
  have hintl : intl (simulateOptions cust) = intl (normOptions cust.toCustomer) := hzeros
  have hnumber : ∀ plus digits, international (simulateOptions cust) plus digits =
      international (normOptions cust.toCustomer) plus digits := by
    intro plus digits
    unfold international
    rw [hintl]
    rfl
  rw [toOption_simulatedNumber htech]
  unfold setupNumber Numbering.normalize
  simp only [hnumber]
  rfl

/-- A number that shows another prefix: dialled after `00`, it begins otherwise
than the prefix goes on. -/
def probe (dialPrefix : List Char) : List Char :=
  if ['0', '0', '1'] <+: dialPrefix then "2345678".toList else "1234567".toList

theorem subscriber_probe (dialPrefix : List Char) : Subscriber (probe dialPrefix) := by
  unfold probe
  split_ifs
  · exact ⟨List.all_eq_true.mp (by decide), by decide, by decide, by decide⟩
  · exact ⟨List.all_eq_true.mp (by decide), by decide, by decide, by decide⟩

/-- A prefix of the dialled text that is not `00` is a single zero. -/
theorem eq_zero_of_front {p : List Char} (hne : p ≠ []) (hzeros : p ≠ ['0', '0'])
    (hpre : p <+: ['0', '0'] ++ probe p) : p = ['0'] := by
  match p, hne, hzeros, hpre with
  | [a], _, _, hpre =>
    have ha := (List.cons_prefix_cons.mp hpre).1
    rw [ha]
  | [a, b], _, hzeros, hpre =>
    obtain ⟨rfl, hb⟩ := List.cons_prefix_cons.mp hpre
    obtain ⟨rfl, -⟩ := List.cons_prefix_cons.mp hb
    exact absurd rfl hzeros
  | a :: b :: c :: rest, _, _, hpre =>
    obtain ⟨rfl, hb⟩ := List.cons_prefix_cons.mp hpre
    obtain ⟨rfl, hc⟩ := List.cons_prefix_cons.mp hb
    by_cases hone : c = '1'
    · subst hone
      rw [probe, if_pos (by simp [List.cons_prefix_cons])] at hc
      exact absurd (List.cons_prefix_cons.mp hc).1 (by decide)
    · rw [probe, if_neg (by simp [List.cons_prefix_cons, Ne.symm hone])] at hc
      exact absurd (List.cons_prefix_cons.mp hc).1 hone

/-- With any other prefix the simulator does not take `00` off. -/
theorem simulated_probe (htech : cust.techPrefix.getD "" = "")
    (hzeros : cust.dialPrefix ≠ ['0', '0']) (hne : cust.dialPrefix ≠ []) :
    (simulatedNumber cust (String.ofList (['0', '0'] ++ probe cust.dialPrefix))).toOption ≠
      some (String.ofList (probe cust.dialPrefix)) := by
  have hprobe := subscriber_probe cust.dialPrefix
  rw [toOption_simulatedNumber htech]
  cases hok : normalize (simulateOptions cust)
      (String.ofList (['0', '0'] ++ probe cust.dialPrefix)) with
  | error => exact Option.some_ne_none _ ∘ Eq.symm
  | ok n =>
    intro hsome
    obtain rfl : n = String.ofList (probe cust.dialPrefix) := Option.some.inj hsome
    obtain ⟨hdial, hsame⟩ :=
      (normalize_plain htech (digits_zeros hprobe.digits) (by simp)).mp hok
    have hintl : intl (simulateOptions cust) = cust.dialPrefix := rfl
    rw [international_dialled, hintl] at hdial hsame
    split_ifs at hdial hsame with hpre hnational
    · rw [eq_zero_of_front hne hzeros hpre.1] at hdial
      exact hdial.head rfl
    · -- the country code makes the number longer
      have hrest : (['0', '0'] ++ probe cust.dialPrefix).dropWhile (· = '0') =
          probe cust.dialPrefix := by
        unfold probe
        split_ifs <;> rfl
      rw [hrest] at hsame
      have hlength := congrArg List.length (String.ofList_injective hsame)
      rw [List.length_append] at hlength
      have hcode : (simulateOptions cust).defaultCountryCode.toList ≠ [] :=
        fun hnil => hnational.2 (String.toList_eq_nil_iff.mp hnil)
      have hpos := List.length_pos_iff.mpr hcode
      omega
    · exact hdial.head rfl

theorem dialPrefix_ne_nil (cust : DialSettings) : cust.dialPrefix ≠ [] := by
  unfold DialSettings.dialPrefix
  split_ifs with hempty
  · simp
  · exact fun hnil => hempty (String.toList_eq_nil_iff.mp hnil)

theorem dialPrefix_eq_zeros : cust.dialPrefix = ['0', '0'] ↔
    cust.intlPrefix = "" ∨ cust.intlPrefix = "00" := by
  unfold DialSettings.dialPrefix
  split_ifs with hempty
  · simp [hempty]
  · rw [or_iff_right hempty]
    exact ⟨fun h => String.toList_inj.mp h, fun h => by rw [h]; rfl⟩

end Simulator

/-- Any other country code gets into a number that is accepted: a national
number with it in front, long enough. -/
theorem accepted_national (htech : cust.techPrefix.getD "" = "")
    (hcode : ¬ CodeOfDigits (cust.defaultCountryCode.getD "").toList) :
    ∃ raw n, setupNumber cust raw = .ok n ∧ ¬ Subscriber n.toList := by
  obtain ⟨code, hcountry⟩ : ∃ code, (cust.defaultCountryCode.getD "").toList = code := ⟨_, rfl⟩
  rw [hcountry] at hcode
  simp only [CodeOfDigits, not_or] at hcode
  obtain ⟨hne, hletters, hzero, hshort⟩ := hcode
  obtain ⟨ones, hones⟩ : ∃ ones, ones = List.replicate (7 - byteLength code) '1' := ⟨_, rfl⟩
  have hdigits : ∀ c ∈ ones, c.isDigit := by
    intro c hc
    rw [hones] at hc
    rw [List.eq_of_mem_replicate hc]
    decide
  have hhead : ones.head? ≠ some '0' := by
    intro hhead
    rw [hones] at hhead
    exact absurd (List.eq_of_mem_replicate (List.mem_of_head? hhead)) (by decide)
  have hnumber : international (normOptions cust.toCustomer) false ('0' :: ones) =
      code ++ ones := by
    rw [← hcountry] at hne ⊢
    exact international_national (fun hnone => hne (String.toList_eq_nil_iff.mpr hnone)) hhead
  have hdial : Dialable (code ++ ones) := by
    have hlength := byteLength_digits hdigits
    rw [hones, List.length_replicate, ← hones] at hlength
    refine ⟨?_, ?_, ?_⟩
    · rw [List.head?_append_of_ne_nil _ hne]
      exact hzero
    · rw [byteLength_append]
      omega
    · rw [byteLength_append]
      omega
  refine ⟨String.ofList ('0' :: ones), String.ofList (code ++ ones), ?_, ?_⟩
  · refine (normalize_plain htech ?_ (by simp)).mpr ?_
    · intro c hc
      rcases List.mem_cons.mp hc with rfl | hc
      · decide
      · exact hdigits c hc
    · rw [hnumber]
      exact ⟨hdial, rfl⟩
  · intro hsub
    rw [String.toList_ofList] at hsub
    exact hletters (fun c hc => hsub.digits c (List.mem_append_left _ hc))

/-- The settings of a customer without tech prefix are honoured exactly when
the international prefix is the usual one and the country code has nothing but
digits in it. -/
theorem honoured_iff (cust : DialSettings) (htech : cust.techPrefix.getD "" = "") :
    Honoured cust ↔ (cust.intlPrefix = "" ∨ cust.intlPrefix = "00") ∧
      CodeOfDigits (cust.defaultCountryCode.getD "").toList := by
  rw [← dialPrefix_eq_zeros]
  constructor
  · intro honoured
    constructor
    · by_contra hzeros
      refine simulated_probe htech hzeros (dialPrefix_ne_nil cust) ?_
      rw [honoured.simulated, setupNumber_zeros htech (subscriber_probe _)]
      rfl
    · by_contra hcode
      obtain ⟨raw, n, hn, hbad⟩ := accepted_national htech hcode
      exact hbad (honoured.accepted raw n hn)
  · rintro ⟨hzeros, hcode⟩
    exact ⟨fun d hd _ => understood_of_zeros htech hzeros hd,
      simulated_of_zeros htech hzeros, fun raw n h => subscriber_of_accepted hcode h⟩

def sampleSettings (intlPrefix : String) (code : Option String) : DialSettings :=
  { sampleCustomer with intlPrefix := intlPrefix, defaultCountryCode := code }

theorem honoured_sampleSettings : Honoured (sampleSettings "00" (some "44")) :=
  (honoured_iff _ rfl).mpr ⟨.inr rfl, .inr (.inl (List.all_eq_true.mp (by decide)))⟩

/-- A customer who dials `011` gets nowhere with it, while the simulator shows
that the call is set up. -/
theorem configured_prefix_refused :
    setupNumber (sampleSettings "011" none) "0114930123456" = .error malformed ∧
      simulatedNumber (sampleSettings "011" none) "0114930123456" = .ok "4930123456" ∧
      ¬ Honoured (sampleSettings "011" none) := by
  have hsetup : setupNumber (sampleSettings "011" none) "0114930123456" = .error malformed := by
    decide +kernel
  have hsimulated : simulatedNumber (sampleSettings "011" none) "0114930123456" =
      .ok "4930123456" := by
    decide +kernel
  refine ⟨hsetup, hsimulated, fun honoured => ?_⟩
  have hsame := honoured.simulated "0114930123456"
  rw [hsetup, hsimulated] at hsame
  cases hsame

end SuperSbc.Admin

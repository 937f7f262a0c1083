import Mathlib.Tactic

/-!
Texts read as numbers and as 128 bit identifiers, the way Go's `strings`,
`strconv` and `uuid` packages read them. Texts are worked on as lists of
characters.
-/

namespace SuperSbc.Text

/-- `unicode.IsSpace`. -/
def isSpace (c : Char) : Bool :=
  c.toNat ∈ [9, 10, 11, 12, 13, 32, 0x85, 0xa0, 0x1680, 0x2028, 0x2029, 0x202f, 0x205f, 0x3000] ||
    (0x2000 ≤ c.toNat && c.toNat ≤ 0x200a)

def trimSpace (s : List Char) : List Char :=
  ((s.dropWhile isSpace).reverse.dropWhile isSpace).reverse

def hasPrefix (front s : String) : Bool := front.toList.isPrefixOf s.toList

/-- `strings.TrimPrefix` of a text that has the front. -/
def dropFront (front s : String) : String := String.ofList (s.toList.drop front.toList.length)

theorem hasPrefix_append (front s : String) : hasPrefix front (front ++ s) = true := by
  simp [hasPrefix, String.toList_append]

theorem dropFront_append (front s : String) : dropFront front (front ++ s) = s := by
  simp [dropFront, String.toList_append]

/-- The value of a digit, in a base of at most sixteen. -/
def digitValue (c : Char) : Option ℕ :=
  if '0' ≤ c ∧ c ≤ '9' then some (c.toNat - '0'.toNat)
  else if 'a' ≤ c ∧ c ≤ 'f' then some (c.toNat - 'a'.toNat + 10)
  else if 'A' ≤ c ∧ c ≤ 'F' then some (c.toNat - 'A'.toNat + 10)
  else none

/-- The value of digits in a base, most significant first. -/
def digitsValue (base : ℕ) (s : List Char) : Option ℕ :=
  s.foldlM (fun n c => ((digitValue c).filter (· < base)).map (base * n + ·)) 0

theorem digitsValue_append (base : ℕ) (s : List Char) (c : Char) :
    digitsValue base (s ++ [c]) = (digitsValue base s).bind
      (fun n => ((digitValue c).filter (· < base)).map (base * n + ·)) := by
  unfold digitsValue
  rw [List.foldlM_append]
  simp

/-- An optional sign and at least one decimal digit. -/
def readInt : List Char → Option ℤ
  | [] => none
  | c :: rest =>
    if c = '-' then if rest = [] then none else (digitsValue 10 rest).map (fun n => -(n : ℤ))
    else if c = '+' then if rest = [] then none else (digitsValue 10 rest).map (fun n => (n : ℤ))
    else (digitsValue 10 (c :: rest)).map (fun n => (n : ℤ))

/-- `strconv.ParseInt(strings.TrimSpace(s), 10, 64)` when it has no error. -/
def parseInt (s : String) : Option ℤ :=
  (readInt (trimSpace s.toList)).filter (fun n => -2 ^ 63 ≤ n ∧ n < 2 ^ 63)

/-- `strconv.Atoi` with its error dropped: zero for what is no number, the
nearest bound for what does not fit. -/
def atoi (s : String) : ℤ :=
  match readInt (trimSpace s.toList) with
  | none => 0
  | some n => max (-2 ^ 63) (min n (2 ^ 63 - 1))

theorem digitsValue_ten_none {s : List Char} {c : Char} (hmem : c ∈ s)
    (hletter : ∀ d ∈ digitValue c, 10 ≤ d) : digitsValue 10 s = none := by
  unfold digitsValue
  induction s using List.reverseRecOn with
  | nil => cases hmem
  | append_singleton front last ih =>
    rw [List.foldlM_append]
    rcases List.mem_append.mp hmem with hfront | hlast
    · rw [ih hfront]
      rfl
    · obtain rfl := List.mem_singleton.mp hlast
      have hnone : (digitValue c).filter (· < 10) = none := by
        cases hvalue : digitValue c with
        | none => rfl
        | some d => simpa [Option.filter] using hletter d hvalue
      simp [hnone]

theorem mem_dropWhile {α : Type} {p : α → Bool} {x : α} {s : List α} (hmem : x ∈ s)
    (hx : p x = false) : x ∈ s.dropWhile p := by
  induction s with
  | nil => cases hmem
  | cons y rest ih =>
    by_cases hy : p y = true
    · rw [List.dropWhile_cons_of_pos hy]
      rcases List.mem_cons.mp hmem with rfl | hrest
      · rw [hx] at hy
        cases hy
      · exact ih hrest
    · rw [List.dropWhile_cons_of_neg hy]
      exact hmem

theorem mem_trimSpace {c : Char} {s : List Char} (hmem : c ∈ s) (hc : isSpace c = false) :
    c ∈ trimSpace s := by
  unfold trimSpace
  exact List.mem_reverse.mpr
    (mem_dropWhile (List.mem_reverse.mpr (mem_dropWhile hmem hc)) hc)

theorem readInt_exponent {s : List Char} (hmem : 'e' ∈ s) : readInt s = none := by
  have hletter : ∀ d ∈ digitValue 'e', 10 ≤ d := by decide
  cases s with
  | nil => cases hmem
  | cons c rest =>
    have hrest : c ≠ 'e' → digitsValue 10 rest = none := fun hc =>
      digitsValue_ten_none ((List.mem_cons.mp hmem).resolve_left (Ne.symm hc)) hletter
    unfold readInt
    by_cases hminus : c = '-'
    · simp [hminus, hrest (by simp [hminus])]
    · by_cases hplus : c = '+'
      · simp [hplus, hrest (by simp [hplus])]
      · simp [hminus, hplus, digitsValue_ten_none hmem hletter]

section Decimal

theorem notMem_repr {c : Char} (hc : c.isDigit = false) (n : ℕ) : c ∉ (Nat.repr n).toList := by
  rw [Nat.repr_eq_ofList_toDigits, String.toList_ofList]
  intro hmem
  have hdigit := Nat.isDigit_of_mem_toDigits (by norm_num) (by norm_num) hmem
  rw [hc] at hdigit
  cases hdigit

theorem toList_negSucc (n : ℕ) :
    (toString (Int.negSucc n)).toList = '-' :: (Nat.repr (n + 1)).toList := by
  change ("-" ++ Nat.repr (n + 1)).toList = _
  rw [String.toList_append]
  rfl

theorem notMem_toString {c : Char} (hc : c.isDigit = false) (hminus : c ≠ '-') (n : ℤ) :
    c ∉ (toString n).toList := by
  cases n with
  | ofNat n => exact notMem_repr hc n
  | negSucc n =>
    intro hmem
    rw [toList_negSucc] at hmem
    rcases List.mem_cons.mp hmem with hmem | hmem
    · exact hminus hmem
    · exact notMem_repr hc _ hmem

theorem repr_inj {m n : ℕ} (h : Nat.repr m = Nat.repr n) : m = n := by
  have hvalue := congrArg (fun s => Nat.ofDigitChars 10 s.toList 0) h
  simpa [Nat.repr_eq_ofList_toDigits] using hvalue

theorem decimal_inj {m n : ℤ} (h : toString m = toString n) : m = n := by
  -- Only the text of a negative number has a sign.
  have hsign {m n : ℕ} : Nat.repr m ≠ "-" ++ Nat.repr n := by
    intro h
    apply notMem_repr (c := '-') rfl m
    rw [h, String.toList_append]
    exact List.mem_append_left _ (by decide)
  cases m with
  | ofNat m =>
    cases n with
    | ofNat n => exact congrArg _ (repr_inj h)
    | negSucc n => exact absurd h hsign
  | negSucc m =>
    cases n with
    | ofNat n => exact absurd h.symm hsign
    | negSucc n => exact congrArg _ (Nat.succ.inj (repr_inj ((String.append_right_inj "-").mp h)))

/-- The last separator of a text cuts it in one way. -/
theorem append_separator_inj {α : Type} {c : α} {s s' t t' : List α} (ht : c ∉ t) (ht' : c ∉ t')
    (h : s ++ c :: t = s' ++ c :: t') : s = s' ∧ t = t' := by
  rcases List.append_eq_append_iff.mp h with ⟨more, hs, hcut⟩ | ⟨more, hs, hcut⟩
  · cases more with
    | nil => exact ⟨by simpa using hs.symm, by simpa using hcut⟩
    | cons x more => exact absurd ((List.cons.inj hcut).2 ▸ by simp) ht
  · cases more with
    | nil => exact ⟨by simpa using hs, by simpa using hcut.symm⟩
    | cons x more => exact absurd ((List.cons.inj hcut).2 ▸ by simp) ht'

end Decimal

section Hex

/-- Lower case hexadecimal digit. -/
def hexChar (n : ℕ) : Char :=
  if n < 10 then Char.ofNat ('0'.toNat + n) else Char.ofNat ('a'.toNat + (n - 10))

theorem digitValue_hexChar {n : ℕ} (h : n < 16) : digitValue (hexChar n) = some n := by
  interval_cases n <;> decide +kernel

/-- A number in so many hexadecimal digits. -/
def hexText : ℕ → ℕ → List Char
  | 0, _ => []
  | width + 1, n => hexText width (n / 16) ++ [hexChar (n % 16)]

theorem length_hexText (width n : ℕ) : (hexText width n).length = width := by
  induction width generalizing n with
  | zero => rfl
  | succ width ih => simp [hexText, ih]

theorem mem_hexText {c : Char} {width n : ℕ} (h : c ∈ hexText width n) :
    ∃ k < 16, c = hexChar k := by
  induction width generalizing n with
  | zero => exact absurd h List.not_mem_nil
  | succ width ih =>
    rcases List.mem_append.mp h with hfront | hlast
    · exact ih hfront
    · exact ⟨n % 16, Nat.mod_lt _ (by norm_num), List.mem_singleton.mp hlast⟩

theorem digitsValue_hexText (width n : ℕ) :
    digitsValue 16 (hexText width n) = some (n % 16 ^ width) := by
  induction width generalizing n with
  | zero => simp [hexText, digitsValue, Nat.mod_one]
  | succ width ih =>
    have hdigit : n % 16 < 16 := Nat.mod_lt _ (by norm_num)
    have hsplit : 16 * (n / 16 % 16 ^ width) + n % 16 = n % 16 ^ (width + 1) := by
      rw [pow_succ', Nat.mod_mul, add_comm]
    rw [hexText, digitsValue_append, ih, Option.bind_some, digitValue_hexChar hdigit]
    simp [Option.filter, hdigit, hsplit]

end Hex

section Identifiers

/-- The hexadecimal digits of the form `8-4-4-4-12`. -/
def undashed (s : List Char) : Option (List Char) :=
  if s[8]? = some '-' ∧ s[13]? = some '-' ∧ s[18]? = some '-' ∧ s[23]? = some '-' then
    some (s.take 8 ++ (s.drop 9).take 4 ++ (s.drop 14).take 4 ++ (s.drop 19).take 4 ++
      (s.drop 24).take 12)
  else none

def dashed (s : List Char) : List Char :=
  s.take 8 ++ '-' :: (s.drop 8).take 4 ++ '-' :: (s.drop 12).take 4 ++ '-' ::
    (s.drop 16).take 4 ++ '-' :: s.drop 20

/-- `uuid.Parse`: plain, in braces, as a URN, or without dashes. -/
def parseUUID (s : String) : Option (BitVec 128) :=
  let digits :=
    match s.toList.length with
    | 36 => undashed s.toList
    | 45 => if hasPrefix "urn:uuid:" s.toLower then undashed (s.toList.drop 9) else none
    | 38 => undashed (s.toList.drop 1)
    | 32 => some s.toList
    | _ => none
  (digits.bind (digitsValue 16)).map (BitVec.ofNat 128)

/-- `uuid.UUID.String`. -/
def uuidText (id : BitVec 128) : String := String.ofList (dashed (hexText 32 id.toNat))

theorem undashed_dashed {s : List Char} (h : s.length = 32) :
    undashed (dashed s) = some s ∧ (dashed s).length = 36 := by
  match s, h with
  | [a0, a1, a2, a3, a4, a5, a6, a7, b0, b1, b2, b3, c0, c1, c2, c3, d0, d1, d2, d3, e0, e1, e2,
      e3, e4, e5, e6, e7, e8, e9, e10, e11], _ => exact ⟨rfl, rfl⟩

theorem mem_uuidText {c : Char} {id : BitVec 128} (h : c ∈ (uuidText id).toList) :
    c = '-' ∨ ∃ k < 16, c = hexChar k := by
  rw [uuidText, String.toList_ofList, dashed] at h
  simp only [List.mem_append, List.mem_cons] at h
  have hdigits : c = '-' ∨ c ∈ hexText 32 id.toNat := by
    rcases h with (((h | h | h) | h | h) | h | h) | h | h
    · exact .inr (List.mem_of_mem_take h)
    · exact .inl h
    · exact .inr (List.mem_of_mem_drop (List.mem_of_mem_take h))
    · exact .inl h
    · exact .inr (List.mem_of_mem_drop (List.mem_of_mem_take h))
    · exact .inl h
    · exact .inr (List.mem_of_mem_drop (List.mem_of_mem_take h))
    · exact .inl h
    · exact .inr (List.mem_of_mem_drop h)
  exact hdigits.imp_right mem_hexText

theorem parseUUID_uuidText (id : BitVec 128) : parseUUID (uuidText id) = some id := by
  obtain ⟨hdigits, hlength⟩ := undashed_dashed (length_hexText 32 id.toNat)
  have hsmall : id.toNat % 16 ^ 32 = id.toNat := Nat.mod_eq_of_lt id.isLt
  unfold parseUUID uuidText
  rw [String.toList_ofList, hlength]
  change ((undashed (dashed (hexText 32 id.toNat))).bind (digitsValue 16)).map _ = _
  rw [hdigits, Option.bind_some, digitsValue_hexText, hsmall]
  simp

theorem parseUUID_short {s : String} (h : s.toList.length < 32) : parseUUID s = none := by
  unfold parseUUID
  dsimp only
  split
  all_goals first | omega | rfl

end Identifiers

end SuperSbc.Text

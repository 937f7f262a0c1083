import SuperSbc.CallControl.DialString
import SuperSbc.Text.Gsub

/-!
Header passthrough in `pipeline.lua`: headers of the customer's INVITE are put in
front of the variables of a dial string, one after the other. Lua works on bytes.
-/

namespace SuperSbc.CallControl

open Text

def comma : UInt8 := 44

def backslash : UInt8 := 92

def openBrace : UInt8 := 123

def closeBrace : UInt8 := 125

theorem comma_ne_closeBrace : comma ≠ closeBrace := by decide

theorem backslash_ne_comma_byte : backslash ≠ comma := by decide

theorem backslash_ne_closeBrace : backslash ≠ closeBrace := by decide

def luaMarks : Marks UInt8 where
  opening := openBrace
  separator := comma
  closing := closeBrace
  escape := backslash
  separator_ne_closing := comma_ne_closeBrace
  escape_ne_separator := backslash_ne_comma_byte
  escape_ne_closing := backslash_ne_closeBrace

/-- A header that rules can name. -/
structure HeaderName where
  text : String
  ok : HeaderOK text

/-- What is put in front of a value. -/
def HeaderName.front (name : HeaderName) : Bytes :=
  asciiBytes "sip_h_" ++ asciiBytes name.text ++ asciiBytes "="

def headerValue (v : Bytes) : Bytes := gsubByte closeBrace [] (gsubByte comma [backslash, comma] v)

def addHeader (dial : Bytes) (name : HeaderName) (v : Bytes) : Option Bytes :=
  gsubFront openBrace (openBrace :: (name.front ++ headerValue v ++ [comma])) dial

def passHeaders (getVariable : String → Option Bytes) : List HeaderName → Bytes → Option Bytes
  | [], dial => some dial
  | name :: rest, dial =>
    match (getVariable ("sip_h_" ++ name.text)).filter (· ≠ []) with
    | none => passHeaders getVariable rest dial
    | some v => (addHeader dial name v).bind (passHeaders getVariable rest)

/-- Every name that is listed is a header. -/
def headerNames (names : List String) : List HeaderName :=
  names.filterMap (fun name => if h : HeaderOK name then some ⟨name, h⟩ else none)

def utf8Bytes (s : String) : Bytes := s.toUTF8.data.toList

/-- The headers that are passed on, with their values. -/
def passed (getVariable : String → Option Bytes) (names : List HeaderName) :
    List (HeaderName × Bytes) :=
  names.filterMap (fun name =>
    ((getVariable ("sip_h_" ++ name.text)).filter (· ≠ [])).map (name, ·))

/-- The variable a header should become. -/
def headerEntry (p : HeaderName × Bytes) : Bytes := p.1.front ++ luaMarks.without p.2

/-- A value that survives both conventions. -/
def Survives (v : Bytes) : Prop := percent ∉ v ∧ backslash ∉ v

section Value

theorem gsubByte_cons (c d : UInt8) (new s : Bytes) :
    gsubByte c new (d :: s) = (if d = c then new else [d]) ++ gsubByte c new s :=
  List.flatMap_cons

theorem headerValue_eq (v : Bytes) :
    headerValue v = gsubByte comma [backslash, comma] (luaMarks.without v) := by
  unfold headerValue
  induction v with
  | nil => rfl
  | cons c v ih =>
    rw [gsubByte_cons]
    by_cases hcomma : c = comma
    · have hkept : luaMarks.without (c :: v) = c :: luaMarks.without v :=
        Marks.without_cons (hcomma ▸ comma_ne_closeBrace)
      rw [hkept, gsubByte_cons, if_pos hcomma, ← ih]
      rfl
    · rw [if_neg hcomma, List.singleton_append, gsubByte_cons, ih]
      by_cases hclose : c = closeBrace
      · have hleft : luaMarks.without (c :: v) = luaMarks.without v := by
          rw [hclose]
          exact Marks.without_closing
        rw [hleft, if_pos hclose]
        rfl
      · have hkept : luaMarks.without (c :: v) = c :: luaMarks.without v :=
          Marks.without_cons hclose
        rw [hkept, gsubByte_cons, if_neg hcomma, if_neg hclose]

/-- Without backslashes in the value, everything is escaped as it should be. -/
theorem headerValue_escaped {v : Bytes} (hv : backslash ∉ v) :
    headerValue v = luaMarks.escaped v := by
  unfold headerValue gsubByte Marks.escaped
  rw [List.flatMap_assoc]
  refine List.flatMap_congr (fun c hc => ?_)
  rcases luaMarks.plain_or_mark c with hplain | rfl | rfl | rfl
  · have hcomma : c ≠ comma := hplain.1
    have hclose : c ≠ closeBrace := hplain.2.1
    rw [if_neg hplain.2.2, if_neg hplain.1, if_neg hplain.2.1, if_neg hcomma,
      List.flatMap_singleton, if_neg hclose]
  · rfl
  · rfl
  · exact absurd hc hv

/-- What a value can become in the replacement string: a comma gets a backslash,
and a percent sign takes the byte after it along. -/
inductive Becomes : Bytes → Bytes → Prop
  | nil : Becomes [] []
  | plain {c : UInt8} {t x : Bytes} (hc : c ≠ comma) (hc' : c ≠ percent) (h : Becomes t x) :
      Becomes (c :: t) (c :: x)
  | comma {t x : Bytes} (h : Becomes t x) : Becomes (comma :: t) (backslash :: comma :: x)
  | pair {c d : UInt8} {t x : Bytes} (hc : c ≠ comma) (hd : d ≠ comma) (h : Becomes t x) :
      Becomes (percent :: d :: t) (c :: x)

theorem Becomes.count_comma {t x : Bytes} (h : Becomes t x) :
    x.count CallControl.comma = t.count CallControl.comma := by
  induction h with
  | nil => rfl
  | plain hc hc' h ih => rw [List.count_cons_of_ne hc, List.count_cons_of_ne hc, ih]
  | comma h ih =>
    rw [List.count_cons_of_ne backslash_ne_comma_byte, List.count_cons_self,
      List.count_cons_self, ih]
  | pair hc hd h ih =>
    rw [List.count_cons_of_ne hc, List.count_cons_of_ne (by decide), List.count_cons_of_ne hd, ih]

theorem Becomes.length_le {t x : Bytes} (h : Becomes t x) :
    x.length ≤ t.length + t.count CallControl.comma ∧
      (percent ∈ t → x.length < t.length + t.count CallControl.comma) := by
  induction h with
  | nil => exact ⟨Nat.le_refl 0, fun hp => absurd hp List.not_mem_nil⟩
  | plain hc hc' h ih =>
    rw [List.count_cons_of_ne hc, List.length_cons, List.length_cons]
    refine ⟨by omega, fun hp => ?_⟩
    have hlt := ih.2 (List.mem_of_ne_of_mem (Ne.symm hc') hp)
    omega
  | comma h ih =>
    rw [List.count_cons_self, List.length_cons, List.length_cons, List.length_cons]
    refine ⟨by omega, fun hp => ?_⟩
    have hlt := ih.2 (List.mem_of_ne_of_mem (by decide) hp)
    omega
  | pair hc hd h ih =>
    rw [List.count_cons_of_ne (by decide), List.count_cons_of_ne hd, List.length_cons,
      List.length_cons, List.length_cons]
    exact ⟨by omega, fun _ => by omega⟩

theorem becomes_of_replacement {t y : Bytes}
    (h : replacementString [openBrace] (gsubByte comma [backslash, comma] t ++ [comma]) = some y) :
    ∃ x, y = x ++ [comma] ∧ Becomes t x := by
  induction hn : t.length using Nat.strong_induction_on generalizing t y with
  | _ n ih =>
    subst hn
    cases t with
    | nil => exact ⟨[], (Option.some.inj h).symm, .nil⟩
    | cons c t =>
      rw [gsubByte_cons, List.append_assoc] at h
      by_cases hcomma : c = comma
      · rw [if_pos hcomma, replacementString_append _ _ (by decide)] at h
        obtain ⟨y', hy', rfl⟩ := Option.map_eq_some_iff.mp h
        obtain ⟨x, rfl, hx⟩ := ih t.length (Nat.lt_succ_self _) hy' rfl
        exact ⟨backslash :: comma :: x, rfl, hcomma ▸ .comma hx⟩
      · rw [if_neg hcomma, List.singleton_append] at h
        by_cases hpercent : c = percent
        · subst hpercent
          -- the byte after it is of the value, or the error is here
          cases t with
          | nil =>
            rw [gsubByte, List.flatMap_nil, List.nil_append,
              replacementString_error (by decide) (by decide)] at h
            cases h
          | cons d t =>
            rw [gsubByte_cons, List.append_assoc] at h
            have hshorter : t.length < (percent :: d :: t).length :=
              Nat.lt_succ_of_lt (Nat.lt_succ_self _)
            by_cases hd : d = comma
            · rw [if_pos hd, List.cons_append,
                replacementString_error (by decide) (by decide)] at h
              cases h
            · rw [if_neg hd, List.singleton_append] at h
              by_cases hpercent : d = percent
              · rw [hpercent, replacementString_percent] at h
                obtain ⟨y', hy', rfl⟩ := Option.map_eq_some_iff.mp h
                obtain ⟨x, rfl, hx⟩ := ih t.length hshorter hy' rfl
                exact ⟨percent :: x, rfl, .pair (by decide) hd hx⟩
              · by_cases hmatch : d = 48 ∨ d = 49
                · rw [replacementString_match hmatch] at h
                  obtain ⟨y', hy', rfl⟩ := Option.map_eq_some_iff.mp h
                  obtain ⟨x, rfl, hx⟩ := ih t.length hshorter hy' rfl
                  exact ⟨openBrace :: x, rfl, .pair (by decide) hd hx⟩
                · rw [replacementString_error hpercent hmatch] at h
                  cases h
        · rw [replacementString_cons hpercent] at h
          obtain ⟨y', hy', rfl⟩ := Option.map_eq_some_iff.mp h
          obtain ⟨x, rfl, hx⟩ := ih t.length (Nat.lt_succ_self _) hy' rfl
          exact ⟨c :: x, rfl, .plain hcomma hpercent hx⟩

/-- An escaped comma behind a percent sign, and the comma at the end, are no pairs. -/
theorem percentsPaired_escaped (t : Bytes) :
    percentsPaired (gsubByte comma [backslash, comma] t ++ [comma]) = percentsPaired t := by
  fun_induction percentsPaired t with
  | case1 => rfl
  | case2 => rfl
  | case3 d rest ih =>
    have hpercent : percent ≠ comma := by decide
    rw [gsubByte_cons, if_neg hpercent, gsubByte_cons]
    by_cases hd : d = comma
    · rw [if_pos hd, hd]
      rfl
    · simp [if_neg hd, ih]
  | case4 c rest hc ih =>
    rw [gsubByte_cons]
    by_cases hcomma : c = comma
    · rw [if_pos hcomma, List.append_assoc, List.cons_append, percentsPaired_cons (by decide),
        List.singleton_append, percentsPaired_cons (by decide), ih]
    · rw [if_neg hcomma, List.append_assoc, List.singleton_append, percentsPaired_cons hc, ih]

end Value

section Loop

variable {v z out target : Bytes} {name : HeaderName} {others : List Bytes}

theorem header_sign_iff (c : Char) : (c.isAlphanum || c = '-') = true ↔
    c.toNat = 45 ∨ 48 ≤ c.toNat ∧ c.toNat ≤ 57 ∨ 65 ≤ c.toNat ∧ c.toNat ≤ 90 ∨
      97 ≤ c.toNat ∧ c.toNat ≤ 122 := by
  have hupper : c.isUpper = true ↔ 65 ≤ c.toNat ∧ c.toNat ≤ 90 := by
    change decide _ = true ↔ _
    rw [decide_eq_true_eq]
    exact and_congr UInt32.le_iff_toNat_le UInt32.le_iff_toNat_le
  have hlower : c.isLower = true ↔ 97 ≤ c.toNat ∧ c.toNat ≤ 122 := by
    change (decide _ && decide _) = true ↔ _
    rw [Bool.and_eq_true, decide_eq_true_eq, decide_eq_true_eq]
    exact and_congr UInt32.le_iff_toNat_le UInt32.le_iff_toNat_le
  have hdigit : c.isDigit = true ↔ 48 ≤ c.toNat ∧ c.toNat ≤ 57 := by
    change (decide _ && decide _) = true ↔ _
    rw [Bool.and_eq_true, decide_eq_true_eq, decide_eq_true_eq]
    exact and_congr UInt32.le_iff_toNat_le UInt32.le_iff_toNat_le
  have hdash : c = '-' ↔ c.toNat = 45 := Char.toNat_inj.symm
  change (((c.isUpper || c.isLower) || c.isDigit) || decide (c = '-')) = true ↔ _
  rw [Bool.or_eq_true, Bool.or_eq_true, Bool.or_eq_true, hupper, hlower, hdigit,
    decide_eq_true_eq, hdash]
  omega

theorem HeaderName.notMem_front (name : HeaderName) {b : UInt8}
    (hb : b ∈ [comma, closeBrace, backslash, percent]) : b ∉ name.front := by
  simp only [List.mem_cons, List.not_mem_nil, or_false] at hb
  have hconst : b ∉ asciiBytes "sip_h_" ∧ b ∉ asciiBytes "=" := by
    rcases hb with rfl | rfl | rfl | rfl <;> decide
  unfold HeaderName.front
  rw [List.mem_append, List.mem_append, not_or, not_or]
  refine ⟨⟨hconst.1, fun hmem => ?_⟩, hconst.2⟩
  obtain ⟨c, hc, rfl⟩ := List.mem_map.mp hmem
  have hrange := (header_sign_iff c).mp (List.all_eq_true.mp name.ok.2 c hc)
  have hbyte : (UInt8.ofNat c.toNat).toNat = c.toNat := by
    rw [UInt8.toNat_ofNat']
    omega
  have hvalues : comma.toNat = 44 ∧ closeBrace.toNat = 125 ∧ backslash.toNat = 92 ∧
      percent.toNat = 37 := ⟨rfl, rfl, rfl, rfl⟩
  rcases hb with hb | hb | hb | hb <;>
    · rw [hb] at hbyte
      omega

theorem HeaderName.front_clean (name : HeaderName) : luaMarks.Clean name.front := by
  intro c hc
  refine ⟨?_, ?_, ?_⟩ <;>
    · rintro rfl
      exact name.notMem_front (by decide) hc

theorem addHeader_eq (z : Bytes) (name : HeaderName) (v : Bytes) :
    addHeader (openBrace :: z) name v =
      (replacementString [openBrace] (headerValue v ++ [comma])).map
        (fun y => openBrace :: (name.front ++ (y ++ z))) := by
  have hfront : percent ∉ openBrace :: name.front := by
    rw [List.mem_cons, not_or]
    exact ⟨by decide, name.notMem_front (by decide)⟩
  rw [addHeader, gsubFront, if_pos rfl, List.append_assoc, ← List.cons_append,
    replacementString_append _ _ hfront, Option.map_map]
  congr 1
  funext y
  simp

theorem percent_notMem_headerValue (hv : percent ∉ v) : percent ∉ headerValue v := by
  unfold headerValue gsubByte
  rw [List.flatMap_assoc, List.mem_flatMap]
  rintro ⟨c, hc, hmem⟩
  have hne : percent ≠ c := fun h => hv (h ▸ hc)
  split_ifs at hmem with hcomma
  · revert hmem
    decide
  · rw [List.flatMap_singleton] at hmem
    split_ifs at hmem
    · exact List.not_mem_nil hmem
    · exact hne (List.mem_singleton.mp hmem)

theorem addHeader_survives (hv : Survives v) (z : Bytes) (name : HeaderName) :
    addHeader (openBrace :: z) name v =
      some (openBrace :: (name.front ++ (luaMarks.escaped v ++ comma :: z))) := by
  have hpercent : percent ∉ headerValue v ++ [comma] := by
    rw [List.mem_append, not_or]
    exact ⟨percent_notMem_headerValue hv.1, by decide⟩
  rw [addHeader_eq, replacementString_self hpercent, headerValue_escaped hv.2, Option.map_some,
    List.append_assoc, List.singleton_append]

theorem parse_openBrace (z : Bytes) : luaMarks.parse (openBrace :: z) = luaMarks.read z :=
  Marks.parse_opening

theorem parse_added (v z : Bytes) (name : HeaderName) :
    luaMarks.parse (openBrace :: (name.front ++ (luaMarks.escaped v ++ comma :: z))) =
      (luaMarks.read z).map (fun b => ⟨headerEntry (name, v), b.entries, b.target⟩) := by
  have hseparator : luaMarks.read (comma :: z) =
      (luaMarks.read z).map (fun b => ⟨[], b.entries, b.target⟩) := Marks.read_separator
  rw [parse_openBrace, Marks.read_clean name.front_clean, Marks.read_escaped, hseparator,
    Bracketed.map_push_push, Option.map_map]
  congr 1
  funext b
  simp [Bracketed.push, headerEntry]

/-- A value that is read as it should be survives both conventions. -/
theorem survives_of_parse (hothers : others ≠ [])
    (hadd : addHeader (openBrace :: z) name v = some out)
    (hparse : luaMarks.parse out = some ⟨headerEntry (name, v), others, target⟩) : Survives v := by
  rw [addHeader_eq] at hadd
  obtain ⟨y, hy, rfl⟩ := Option.map_eq_some_iff.mp hadd
  rw [headerValue_eq] at hy
  obtain ⟨x, rfl, hx⟩ := becomes_of_replacement hy
  rw [parse_openBrace, Marks.read_clean name.front_clean, List.append_assoc] at hparse
  obtain ⟨b, hb, hpush⟩ := Option.map_eq_some_iff.mp hparse
  obtain ⟨hentry, hothers', -⟩ := Bracketed.mk.inj hpush
  have hvalue : b.entry = luaMarks.without v := List.append_cancel_left hentry
  have hclosing : b.entry.count luaMarks.closing = 0 := by
    rw [hvalue]
    exact Marks.count_without
  have hspells : luaMarks.Spells x b.entry := by
    refine Marks.spells_of_read hb (.inl ⟨z, rfl, hothers' ▸ hothers⟩) ?_ hclosing
    rw [hvalue]
    exact hx.count_comma
  have hlong := hspells.length_le
  obtain ⟨hshort, hshorter⟩ := hx.length_le
  rw [hvalue] at hlong
  change _ + (luaMarks.without v).count comma + (luaMarks.without v).count backslash ≤ _ at hlong
  constructor
  · intro hpercent
    have hlt := hshorter (List.mem_filter.mpr ⟨hpercent, by decide⟩)
    omega
  · intro hbackslash
    have hpos : 0 < (luaMarks.without v).count backslash :=
      List.count_pos_iff.mpr (List.mem_filter.mpr ⟨hbackslash, by decide⟩)
    omega

theorem addHeader_iff (hothers : others ≠ []) :
    (∃ out, addHeader (openBrace :: z) name v = some out ∧
        luaMarks.parse out = some ⟨headerEntry (name, v), others, target⟩) ↔
      Survives v ∧ ∃ b, luaMarks.read z = some b ∧ b.entries = others ∧ b.target = target := by
  constructor
  · rintro ⟨out, hadd, hparse⟩
    have hv := survives_of_parse hothers hadd hparse
    rw [addHeader_survives hv] at hadd
    rw [← Option.some.inj hadd, parse_added] at hparse
    obtain ⟨b, hb, hsame⟩ := Option.map_eq_some_iff.mp hparse
    obtain ⟨-, hentries, htarget⟩ := Bracketed.mk.inj hsame
    exact ⟨hv, b, hb, hentries, htarget⟩
  · rintro ⟨hv, b, hb, rfl, rfl⟩
    refine ⟨_, addHeader_survives hv z name, ?_⟩
    rw [parse_added, hb, Option.map_some]

/-- The loop over headers that are passed on. -/
def addHeaders (l : List (HeaderName × Bytes)) (dial : Bytes) : Option Bytes :=
  l.foldlM (fun dial p => addHeader dial p.1 p.2) dial

theorem addHeaders_cons (p : HeaderName × Bytes) (l : List (HeaderName × Bytes)) (dial : Bytes) :
    addHeaders (p :: l) dial = (addHeader dial p.1 p.2).bind (addHeaders l) :=
  List.foldlM_cons

theorem passHeaders_eq (getVariable : String → Option Bytes) (names : List HeaderName)
    (dial : Bytes) :
    passHeaders getVariable names dial = addHeaders (passed getVariable names) dial := by
  induction names generalizing dial with
  | nil => rfl
  | cons name rest ih =>
    rw [passHeaders, passed, List.filterMap_cons]
    cases hvalue : (getVariable ("sip_h_" ++ name.text)).filter (· ≠ []) with
    | none => exact ih dial
    | some v =>
      rw [Option.map_some, addHeaders_cons]
      exact congrArg (Option.bind (addHeader dial name v)) (funext ih)

theorem addHeader_opening (h : addHeader (openBrace :: z) name v = some out) :
    ∃ z', out = openBrace :: z' := by
  rw [addHeader_eq] at h
  obtain ⟨y, -, rfl⟩ := Option.map_eq_some_iff.mp h
  exact ⟨_, rfl⟩

theorem addHeaders_concat (l : List (HeaderName × Bytes)) (p : HeaderName × Bytes) (dial : Bytes) :
    addHeaders (l ++ [p]) dial = (addHeaders l dial).bind (fun mid => addHeader mid p.1 p.2) := by
  unfold addHeaders
  rw [List.foldlM_append]
  simp only [List.foldlM_cons, List.foldlM_nil, bind_pure]
  rfl

theorem addHeaders_opening {l : List (HeaderName × Bytes)}
    (h : addHeaders l (openBrace :: z) = some out) : ∃ z', out = openBrace :: z' := by
  induction l generalizing z with
  | nil => exact ⟨z, (Option.some.inj h).symm⟩
  | cons p l ih =>
    rw [addHeaders_cons] at h
    obtain ⟨mid, hmid, hrest⟩ := Option.bind_eq_some_iff.mp h
    obtain ⟨z', rfl⟩ := addHeader_opening hmid
    exact ih hrest

theorem addHeader_isSome (z : Bytes) (name : HeaderName) (v : Bytes) :
    (addHeader (openBrace :: z) name v).isSome = percentsPaired (luaMarks.without v) := by
  rw [addHeader_eq, Option.isSome_map, isSome_replacementString, headerValue_eq,
    percentsPaired_escaped]

/-- The script stops with an error exactly at a percent sign without a pair, in
a value that is put into a dial string with variables. -/
theorem passHeaders_eq_none_iff (getVariable : String → Option Bytes) (names : List HeaderName)
    (dial : Bytes) :
    passHeaders getVariable names dial = none ↔
      dial.head? = some openBrace ∧
        ∃ p ∈ passed getVariable names, percentsPaired (luaMarks.without p.2) = false := by
  rw [passHeaders_eq]
  induction passed getVariable names generalizing dial with
  | nil => simp [addHeaders]
  | cons p l ih =>
    rw [addHeaders_cons]
    by_cases hopening : dial.head? = some openBrace
    · obtain ⟨z, rfl⟩ := List.head?_eq_some_iff.mp hopening
      have hsome := addHeader_isSome z p.1 p.2
      cases hadd : addHeader (openBrace :: z) p.1 p.2 with
      | none =>
        rw [hadd] at hsome
        simp [← hsome]
      | some out =>
        rw [hadd] at hsome
        obtain ⟨z', rfl⟩ := addHeader_opening hadd
        simp [ih, ← hsome]
    · have hadd : addHeader dial p.1 p.2 = some dial := by
        cases dial with
        | nil => rfl
        | cons c z =>
          have hc : c ≠ openBrace := by simpa using hopening
          rw [addHeader, gsubFront, if_neg hc]
      simp [hadd, ih, hopening]

/-- What the loop leaves is read as it should be. -/
def ReadsAs (out : Bytes) (entries : List Bytes) (target : Bytes) : Prop :=
  ∃ b, luaMarks.parse out = some b ∧ b.entries = entries ∧ b.target = target

theorem readsAs_cons {entry : Bytes} :
    ReadsAs out (entry :: others) target ↔
      luaMarks.parse out = some ⟨entry, others, target⟩ := by
  constructor
  · rintro ⟨⟨entry', others', target'⟩, hparse, hentries, rfl⟩
    obtain ⟨rfl, rfl⟩ := List.cons.inj hentries
    exact hparse
  · exact fun hparse => ⟨_, hparse, rfl, rfl⟩

theorem addHeaders_iff {b : Bracketed UInt8} (hdial : luaMarks.parse (openBrace :: z) = some b)
    (l : List (HeaderName × Bytes)) :
    (∃ out, addHeaders l (openBrace :: z) = some out ∧
        ReadsAs out (l.reverse.map headerEntry ++ b.entries) b.target) ↔
      ∀ p ∈ l, Survives p.2 := by
  -- the last header is the first one in the brackets
  induction l using List.reverseRecOn with
  | nil =>
    have hnone : ∀ p ∈ ([] : List (HeaderName × Bytes)), Survives p.2 :=
      fun p hp => absurd hp List.not_mem_nil
    exact ⟨fun _ => hnone, fun _ => ⟨_, rfl, b, hdial, rfl, rfl⟩⟩
  | append_singleton l p ih =>
    have hne : l.reverse.map headerEntry ++ b.entries ≠ [] :=
      List.append_ne_nil_of_right_ne_nil _ (List.cons_ne_nil _ _)
    rw [List.forall_mem_append, List.forall_mem_singleton, List.reverse_append,
      List.reverse_singleton, List.singleton_append, List.map_cons, List.cons_append]
    constructor
    · rintro ⟨out, hout, hreads⟩
      rw [addHeaders_concat] at hout
      obtain ⟨mid, hmid, hadd⟩ := Option.bind_eq_some_iff.mp hout
      obtain ⟨z', rfl⟩ := addHeaders_opening hmid
      obtain ⟨hp, b', hb', hentries, htarget⟩ :=
        (addHeader_iff hne).mp ⟨out, hadd, readsAs_cons.mp hreads⟩
      exact ⟨ih.mp ⟨_, hmid, b', hb', hentries, htarget⟩, hp⟩
    · rintro ⟨hl, hp⟩
      obtain ⟨mid, hmid, b', hb', hentries, htarget⟩ := ih.mpr hl
      obtain ⟨z', rfl⟩ := addHeaders_opening hmid
      rw [parse_openBrace] at hb'
      obtain ⟨out, hadd, hparse⟩ := (addHeader_iff hne).mpr ⟨hp, b', hb', hentries, htarget⟩
      refine ⟨out, ?_, readsAs_cons.mpr hparse⟩
      rw [addHeaders_concat, hmid, Option.bind_some, hadd]

/-- The passthrough loop leaves the dial string with the headers in front, exactly
if no value has a percent sign or a backslash. -/
theorem passthrough_preserves_iff (getVariable : String → Option Bytes) (names : List HeaderName)
    (dial : Bytes) (b : Bracketed UInt8) (hdial : luaMarks.parse dial = some b) :
    (∃ out, passHeaders getVariable names dial = some out ∧
        ReadsAs out ((passed getVariable names).reverse.map headerEntry ++ b.entries) b.target) ↔
      ∀ p ∈ passed getVariable names, percent ∉ p.2 ∧ backslash ∉ p.2 := by
  have hopening : ∃ z, dial = openBrace :: z := by
    cases dial with
    | nil => cases hdial
    | cons c z =>
      rw [Marks.parse] at hdial
      split_ifs at hdial with hc
      exact ⟨z, by rw [hc]; rfl⟩
  obtain ⟨z, rfl⟩ := hopening
  rw [passHeaders_eq]
  exact addHeaders_iff hdial (passed getVariable names)

section Sample

def sampleDialBytes : Bytes :=
  asciiBytes "\x7bsip_h_X-SBC-Call=42,sbc_attempt_seq=1\x7dsofia/gateway/a/49"

theorem sampleHeader_ok : HeaderOK "X-Account-Id" := by decide

def sampleHeader : HeaderName := ⟨"X-Account-Id", sampleHeader_ok⟩

end Sample

theorem passthrough_preserves_account :
    luaMarks.parse sampleDialBytes = some ⟨asciiBytes "sip_h_X-SBC-Call=42",
        [asciiBytes "sbc_attempt_seq=1"], asciiBytes "sofia/gateway/a/49"⟩ ∧
      ∃ out, passHeaders (fun _ => some (asciiBytes "a,b\x7dc")) [sampleHeader] sampleDialBytes =
          some out ∧
        ReadsAs out [asciiBytes "sip_h_X-Account-Id=a,bc", asciiBytes "sip_h_X-SBC-Call=42",
          asciiBytes "sbc_attempt_seq=1"] (asciiBytes "sofia/gateway/a/49") := by
  have hdial : luaMarks.parse sampleDialBytes = some ⟨asciiBytes "sip_h_X-SBC-Call=42",
      [asciiBytes "sbc_attempt_seq=1"], asciiBytes "sofia/gateway/a/49"⟩ := by decide +kernel
  have hpassed : passed (fun _ => some (asciiBytes "a,b\x7dc")) [sampleHeader] =
      [(sampleHeader, asciiBytes "a,b\x7dc")] := rfl
  have hentry : headerEntry (sampleHeader, asciiBytes "a,b\x7dc") =
      asciiBytes "sip_h_X-Account-Id=a,bc" := by decide +kernel
  have hout := (passthrough_preserves_iff (fun _ => some (asciiBytes "a,b\x7dc")) [sampleHeader]
    sampleDialBytes _ hdial).mpr (by decide +kernel)
  rw [hpassed, List.reverse_singleton, List.map_singleton, hentry] at hout
  exact ⟨hdial, hout⟩

/-- A percent sign ends the call with an error, and a backslash at the end of a
value takes the variable after it into the value. -/
theorem passthrough_breaks :
    passHeaders (fun _ => some (asciiBytes "100%")) [sampleHeader] sampleDialBytes = none ∧
      (passHeaders (fun _ => some (asciiBytes "a\\")) [sampleHeader] sampleDialBytes).bind
          luaMarks.parse =
        some ⟨asciiBytes "sip_h_X-Account-Id=a,sip_h_X-SBC-Call=42",
          [asciiBytes "sbc_attempt_seq=1"], asciiBytes "sofia/gateway/a/49"⟩ := by
  decide +kernel

end Loop

end SuperSbc.CallControl

import SuperSbc.Tables.Decks

/-!
Area codes. A call's number is looked up in a trie while the call is set up;
records without an area are filled in later by one statement that joins them
with the table on the longest prefix. The statement only touches records it
finds an entry for, so an entry that is gone leaves its name on the records.
-/

namespace SuperSbc.Tables

open Prefix Query

/-- A row of `area_codes` with its checks. -/
structure AreaCode where
  countryCode : String
  areaCode : String
  description : String
  operator : String
  enabled : Bool
  countryCode_length : 1 ≤ countryCode.length ∧ countryCode.length ≤ 4
  countryCode_digits : ∀ c ∈ countryCode.toList, c.isDigit = true
  areaCode_digits : ∀ c ∈ areaCode.toList, c.isDigit = true

/-- `GENERATED ALWAYS AS (country_code || area_code)`. -/
def AreaCode.dialPrefix (a : AreaCode) : String := a.countryCode ++ a.areaCode

structure AreaCodes where
  rows : List AreaCode
  prefixes_unique : (rows.map AreaCode.dialPrefix).Nodup

/-- The enabled rows, `ORDER BY length(prefix) DESC`. -/
def AreaCodes.allAreaCodes (t : AreaCodes) : List AreaCode :=
  orderBy (fun a => OrderDual.toDual a.dialPrefix.length) (t.rows.filter (·.enabled))

/-- The table of area codes as `Area` loads it. -/
def AreaCodes.trie (t : AreaCodes) : Trie AreaCode := fill AreaCode.dialPrefix t.allAreaCodes

/-- `Tables.Area` on a table just loaded. -/
def AreaCodes.area (t : AreaCodes) (number : String) : Option AreaCode :=
  (t.trie.match number).map (·.1)

/-- `x.enabled AND d.called_number LIKE x.prefix || '%'`. -/
def AreaCode.fits (number : String) (a : AreaCode) : Bool :=
  a.enabled && like number.toList (a.dialPrefix ++ "%").toList

/-- `max(length(x.prefix))` over the rows that fit; NULL over none. -/
def AreaCodes.longest (t : AreaCodes) (number : String) : Option ℕ :=
  ((t.rows.filter (AreaCode.fits number)).map (·.dialPrefix.length)).max?

/-- The rows a record is joined with. -/
def AreaCodes.joined (t : AreaCodes) (number : String) : List AreaCode :=
  t.rows.filter (fun a => number ≠ "" && a.fits number &&
    t.longest number = some a.dialPrefix.length)

/-- The three columns of an entry, or NULL in all of them. -/
def withAreaColumns (found : Option AreaCode) (d : CDR) : CDR :=
  { d with
    areaPrefix := found.map (·.dialPrefix)
    areaDescription := found.map (·.description)
    operatorName := found.map (·.operator) }

/-- The condition on the record: every one, or those without an area. -/
def selected (all : Bool) (d : CDR) : Bool := all || d.areaPrefix.isNone

/-- What the statement does to one record. -/
def AreaCodes.backfill (t : AreaCodes) (all : Bool) (d : CDR) : CDR :=
  match if selected all d then (t.joined d.calledNumber).head? else none with
  | some a => withAreaColumns (some a) d
  | none => d

/-- `BackfillCDRAreaCodes`: the records, and how many of them were updated. -/
def AreaCodes.backfillCDRAreaCodes (t : AreaCodes) (all : Bool) (cdrs : List CDR) :
    List CDR × ℕ :=
  (cdrs.map (t.backfill all),
    cdrs.countP (fun d => selected all d && !(t.joined d.calledNumber).isEmpty))

/-- No area on the record. -/
def Arealess (d : CDR) : Prop :=
  d.areaPrefix = none ∧ d.areaDescription = none ∧ d.operatorName = none

section Match

variable {t : AreaCodes} {number : String}

variable {a : AreaCode}

theorem AreaCode.dialPrefix_digits (a : AreaCode) :
    ∀ c ∈ a.dialPrefix.toList, c.isDigit = true := by
  intro c hc
  rw [dialPrefix, String.toList_append] at hc
  rcases List.mem_append.mp hc with hc | hc
  · exact a.countryCode_digits c hc
  · exact a.areaCode_digits c hc

theorem AreaCode.dialPrefix_length_pos (a : AreaCode) : 0 < a.dialPrefix.length := by
  have hcountry := a.countryCode_length.1
  rw [dialPrefix, String.length_append]
  omega

theorem AreaCode.fits_iff :
    a.fits number = true ↔ a.enabled = true ∧ a.dialPrefix.toList <+: number.toList := by
  rw [fits, Bool.and_eq_true, String.toList_append]
  refine and_congr Iff.rfl (like_front (fun c hc => ?_) _)
  have hdigit := a.dialPrefix_digits c hc
  refine ⟨?_, ?_, ?_⟩ <;> (rintro rfl; revert hdigit; decide)

theorem AreaCodes.mem_allAreaCodes :
    a ∈ t.allAreaCodes ↔ a ∈ t.rows ∧ a.enabled = true :=
  mem_orderBy.trans List.mem_filter

theorem AreaCodes.trie_get {word : List Char} :
    t.trie.root.get word = some a ↔
      (a ∈ t.rows ∧ a.enabled = true) ∧ a.dialPrefix.toList = word := by
  rw [← mem_allAreaCodes]
  refine fill_get (fun a _ c hc => digit_isSome_of_isDigit (a.dialPrefix_digits c hc)) ?_
  have hnodup : (t.allAreaCodes.map AreaCode.dialPrefix).Nodup :=
    ((List.perm_insertionSort _ _).map _).nodup_iff.mpr
      ((List.filter_sublist.map AreaCode.dialPrefix).nodup t.prefixes_unique)
  exact List.pairwise_map.mp hnodup

theorem AreaCodes.mem_joined :
    a ∈ t.joined number ↔ (a ∈ t.rows ∧ a.fits number = true) ∧
      ∀ b ∈ t.rows, b.fits number = true → b.dialPrefix.length ≤ a.dialPrefix.length := by
  have hmax : a ∈ t.rows → a.fits number = true →
      (t.longest number = some a.dialPrefix.length ↔
        ∀ b ∈ t.rows, b.fits number = true → b.dialPrefix.length ≤ a.dialPrefix.length) := by
    intro hrow hfits
    rw [longest, List.max?_eq_some_iff]
    constructor
    · rintro ⟨-, hle⟩ b hb hbfits
      exact hle _ (List.mem_map_of_mem (List.mem_filter.mpr ⟨hb, hbfits⟩))
    · intro hle
      refine ⟨List.mem_map_of_mem (List.mem_filter.mpr ⟨hrow, hfits⟩), ?_⟩
      intro k hk
      obtain ⟨b, hb, rfl⟩ := List.mem_map.mp hk
      obtain ⟨hb, hbfits⟩ := List.mem_filter.mp hb
      exact hle b hb hbfits
  have hnonempty : a.fits number = true → number ≠ "" := by
    rintro hfits rfl
    have hlength := (AreaCode.fits_iff.mp hfits).2.length_le
    have hpos := a.dialPrefix_length_pos
    rw [String.length_toList, String.length_toList] at hlength
    exact absurd hlength (not_le.mpr hpos)
  rw [joined, List.mem_filter]
  simp only [Bool.and_eq_true, decide_eq_true_eq]
  constructor
  · rintro ⟨hrow, ⟨-, hfits⟩, hlongest⟩
    exact ⟨⟨hrow, hfits⟩, (hmax hrow hfits).mp hlongest⟩
  · rintro ⟨⟨hrow, hfits⟩, hlongest⟩
    exact ⟨hrow, ⟨hnonempty hfits, hfits⟩, (hmax hrow hfits).mpr hlongest⟩

theorem AreaCodes.joined_ne_nil (ha : a ∈ t.rows) (hfits : a.fits number = true) :
    t.joined number ≠ [] := by
  have hmem : a ∈ t.rows.filter (AreaCode.fits number) := List.mem_filter.mpr ⟨ha, hfits⟩
  obtain ⟨m, hm⟩ : ∃ m, t.longest number = some m := by
    refine Option.ne_none_iff_exists'.mp (fun hnone => ?_)
    rw [longest, List.max?_eq_none_iff, List.map_eq_nil_iff] at hnone
    rw [hnone] at hmem
    cases hmem
  obtain ⟨hattained, hle⟩ := List.max?_eq_some_iff.mp hm
  obtain ⟨best, hbest, rfl⟩ := List.mem_map.mp hattained
  obtain ⟨hrow, hbestFits⟩ := List.mem_filter.mp hbest
  refine List.ne_nil_of_mem (mem_joined.mpr ⟨⟨hrow, hbestFits⟩, ?_⟩)
  intro b hb hbfits
  exact hle _ (List.mem_map_of_mem (List.mem_filter.mpr ⟨hb, hbfits⟩))

theorem AreaCodes.joined_longest (t : AreaCodes) (number : String) :
    Longest t.trie.root.get number.toList
      ((t.joined number).head?.map (fun a => (a, a.dialPrefix.length))) := by
  -- what the trie stores under a prefix of the number fits it
  have hstored : ∀ k a, t.trie.root.get (number.toList.take k) = some a →
      a ∈ t.rows ∧ a.fits number = true ∧ a.dialPrefix.toList = number.toList.take k := by
    intro k a hget
    obtain ⟨⟨hrow, henabled⟩, hword⟩ := trie_get.mp hget
    exact ⟨hrow, AreaCode.fits_iff.mpr ⟨henabled, hword ▸ List.take_prefix k _⟩, hword⟩
  cases hhead : (t.joined number).head? with
  | none =>
    intro k _
    cases hget : t.trie.root.get (number.toList.take k) with
    | none => rfl
    | some a =>
      obtain ⟨hrow, hfits, -⟩ := hstored k a hget
      exact absurd (List.head?_eq_none_iff.mp hhead) (joined_ne_nil hrow hfits)
  | some a =>
    obtain ⟨⟨hrow, hfits⟩, hlongest⟩ := mem_joined.mp (List.mem_of_head? hhead)
    obtain ⟨henabled, hfront⟩ := AreaCode.fits_iff.mp hfits
    refine ⟨hfront.length_le, ?_, ?_⟩
    · exact trie_get.mpr ⟨⟨hrow, henabled⟩, List.prefix_iff_eq_take.mp hfront⟩
    · intro j hj hlonger
      cases hget : t.trie.root.get (number.toList.take j) with
      | none => rfl
      | some b =>
        obtain ⟨hb, hbfits, hword⟩ := hstored j b hget
        have hlength : b.dialPrefix.length = j := by
          rw [← String.length_toList, hword, List.length_take, min_eq_left hj]
        have hle := hlongest b hb hbfits
        omega

theorem AreaCodes.area_eq (t : AreaCodes) (number : String) :
    t.area number = (t.joined number).head? := by
  obtain ⟨best, hbest, hmatch⟩ := t.trie.match_longest number
  rw [area, hmatch, hbest.unique (t.joined_longest number), Option.map_map, Option.map_map]
  cases (t.joined number).head? <;> rfl

end Match

theorem withAreaColumns_none_iff {d : CDR} : withAreaColumns none d = d ↔ Arealess d := by
  constructor
  · intro h
    rw [← h]
    exact ⟨rfl, rfl, rfl⟩
  · rintro ⟨hdial, hdescription, hoperator⟩
    unfold withAreaColumns
    rw [Option.map_none, ← hdial, Option.map_none, ← hdescription, Option.map_none, ← hoperator]

/-- A record gets what the live lookup finds. Where that is nothing the record
stays as it is. -/
theorem AreaCodes.backfill_eq_iff {t : AreaCodes} {all : Bool} {d : CDR}
    (hselected : selected all d = true) :
    t.backfill all d = withAreaColumns (t.area d.calledNumber) d ↔
      (t.area d.calledNumber = none → Arealess d) := by
  unfold backfill
  rw [if_pos hselected, ← area_eq]
  cases t.area d.calledNumber with
  | some a => simp
  | none => simpa [eq_comm] using withAreaColumns_none_iff

/-- The backfill gives every record it selects the columns of the entry that
the live lookup finds, and NULL without one, exactly when the records that no
entry fits have no area to begin with. Without `all` the other records stay. -/
theorem backfill_matches_live_iff (t : AreaCodes) (all : Bool) (cdrs : List CDR) :
    ((∀ (i : ℕ) (d : CDR), cdrs[i]? = some d → selected all d = true →
        (t.backfillCDRAreaCodes all cdrs).1[i]? =
          some (withAreaColumns (t.area d.calledNumber) d)) ↔
      ∀ d ∈ cdrs, selected all d = true → t.area d.calledNumber = none → Arealess d) ∧
    ∀ (i : ℕ) (d : CDR), cdrs[i]? = some d → selected all d = false →
      (t.backfillCDRAreaCodes all cdrs).1[i]? = some d := by
  have hrow : ∀ (i : ℕ) (d : CDR), cdrs[i]? = some d →
      (t.backfillCDRAreaCodes all cdrs).1[i]? = some (t.backfill all d) := by
    intro i d hd
    rw [AreaCodes.backfillCDRAreaCodes, List.getElem?_map, hd, Option.map_some]
  refine ⟨⟨?_, ?_⟩, ?_⟩
  · intro hlive d hd hselected
    obtain ⟨i, hi⟩ := List.getElem?_of_mem hd
    have hfilled := hlive i d hi hselected
    rw [hrow i d hi, Option.some.injEq] at hfilled
    exact (AreaCodes.backfill_eq_iff hselected).mp hfilled
  · intro harealess i d hi hselected
    rw [hrow i d hi, (AreaCodes.backfill_eq_iff hselected).mpr
      (harealess d (List.mem_of_getElem? hi) hselected)]
  · intro i d hi hselected
    rw [hrow i d hi, AreaCodes.backfill, hselected]
    rfl

def berlin : AreaCode where
  countryCode := "49"
  areaCode := "30"
  description := "Berlin"
  operator := "Telekom"
  enabled := false
  countryCode_length := by decide
  countryCode_digits := List.all_eq_true.mp (by decide)
  areaCode_digits := List.all_eq_true.mp (by decide)

/-- The only entry is disabled. -/
def disabledBerlin : AreaCodes where
  rows := [berlin]
  prefixes_unique := List.nodup_singleton _

/-- A record that has kept the area of an entry no longer in use. -/
theorem backfill_keeps_stale_area :
    ∃ d : CDR, d.areaPrefix = some "4930" ∧ disabledBerlin.area d.calledNumber = none ∧
      (disabledBerlin.backfillCDRAreaCodes true [d]).1[0]? = some d := by
  refine ⟨{ calledNumber := "493012345", areaPrefix := some "4930"
            areaDescription := some "Berlin", operatorName := some "Telekom" }, rfl, ?_, ?_⟩
  · decide
  · rfl

end SuperSbc.Tables

import SuperSbc.Prefix.Trie
import SuperSbc.Store.Rates

/-!
The tables of package `tables`: a rate group's rows in effect, put into a
trie. What the trie finds for a number is what the reference query finds.
-/

namespace SuperSbc.Tables

open Prefix Store

/-- The loop that fills a table: `tr.Insert(r.Prefix, r)` for each row. -/
def fill {Row : Type} (dialPrefix : Row → String) (rows : List Row) : Trie Row :=
  rows.foldl (fun tr row => (tr.insert (dialPrefix row) row).1) Trie.new

/-- The table of a rate group as `rateTrie` loads it. -/
def rateTable (rows : List DeckRow) : Trie DeckRow := fill (·.dialPrefix) rows

section Fill

variable {Row : Type} {dialPrefix : Row → String}

theorem root_insert (tr : Trie Row) (front : String) (row : Row) :
    (tr.insert front row).1.root = (tr.root.insert row front.toList).1 := by
  unfold Trie.insert
  split <;> simp_all

theorem fill_get {rows : List Row} (hdigits : ∀ row ∈ rows, ∀ c ∈ (dialPrefix row).toList,
    (digit c).isSome) (hdistinct : rows.Pairwise (fun a b => dialPrefix a ≠ dialPrefix b))
    {word : List Char} {row : Row} :
    (fill dialPrefix rows).root.get word = some row ↔
      row ∈ rows ∧ (dialPrefix row).toList = word := by
  induction rows using List.reverseRecOn with
  | nil => simp [fill, Trie.new, Node.get_empty]
  | append_singleton rows last ih =>
    obtain ⟨hbefore, -, hlast⟩ := List.pairwise_append.mp hdistinct
    have ih := ih (fun r hr => hdigits r (List.mem_append_left _ hr)) hbefore
    have hstep : fill dialPrefix (rows ++ [last]) =
        ((fill dialPrefix rows).insert (dialPrefix last) last).1 := by
      simp [fill, List.foldl_append]
    rw [hstep, root_insert, Node.get_insert (hdigits last (by simp))]
    by_cases hword : word = (dialPrefix last).toList
    · rw [if_pos hword]
      constructor
      · rintro ⟨⟩
        exact ⟨by simp, hword.symm⟩
      · rintro ⟨hmem, hsame⟩
        rcases List.mem_append.mp hmem with hearlier | hthis
        · exact absurd (String.toList_inj.mp (hsame.trans hword))
            (hlast row hearlier last (List.mem_singleton_self last))
        · rw [List.mem_singleton.mp hthis]
    · rw [if_neg hword, ih]
      constructor
      · rintro ⟨hmem, hsame⟩
        exact ⟨List.mem_append_left _ hmem, hsame⟩
      · rintro ⟨hmem, hsame⟩
        rcases List.mem_append.mp hmem with hearlier | hthis
        · exact ⟨hearlier, hsame⟩
        · rw [List.mem_singleton.mp hthis] at hsame
          exact absurd hsame.symm hword

end Fill

theorem digit_isSome_of_isDigit {c : Char} (h : c.isDigit = true) : (digit c).isSome := by
  have hrange : 48 ≤ c.val ∧ c.val ≤ 57 := by simpa [Char.isDigit] using h
  have hdigit : '0' ≤ c ∧ c ≤ '9' := hrange
  rw [digit, if_pos hdigit]
  rfl

variable {t : RatesTable} {group : UUID} {number : String} {at_ : Time}

theorem rateTable_get {word : List Char} {row : DeckRow} :
    (rateTable (t.effectiveRates group at_)).root.get word = some row ↔
      row ∈ t.effectiveRates group at_ ∧ row.dialPrefix.toList = word :=
  fill_get (fun row _ c hc => digit_isSome_of_isDigit (row.dialPrefix_digits c hc))
    (Query.distinctOn_pairwise _)

/-- The reference query has the table's answer. -/
theorem longestPrefixSQL_longest (t : RatesTable) (group : UUID) (number : String) (at_ : Time) :
    Longest (rateTable (t.effectiveRates group at_)).root.get number.toList
      ((t.longestPrefixSQL group number at_).map (fun row => (row, row.dialPrefix.length))) := by
  -- a row stored under a prefix of the number is a row the query considers
  have hstored : ∀ k row, (rateTable (t.effectiveRates group at_)).root.get
      (number.toList.take k) = some row → row ∈ t.rows ∧ row.inEffect group at_ = true ∧
        row.dialPrefix.toList = number.toList.take k := by
    intro k row hget
    obtain ⟨hmem, hword⟩ := rateTable_get.mp hget
    obtain ⟨hrow, heffect, -⟩ := RatesTable.mem_effectiveRates.mp hmem
    exact ⟨hrow, heffect, hword⟩
  cases hfound : t.longestPrefixSQL group number at_ with
  | none =>
    intro k _
    cases hget : (rateTable (t.effectiveRates group at_)).root.get (number.toList.take k) with
    | none => rfl
    | some row =>
      obtain ⟨hrow, heffect, hword⟩ := hstored k row hget
      exact absurd (hword ▸ List.take_prefix k number.toList)
        (t.longestPrefixSQL_none hfound hrow heffect)
  | some row =>
    obtain ⟨hrow, heffect, hfront, hbest⟩ := t.mem_of_longestPrefixSQL hfound
    have htake : number.toList.take row.dialPrefix.length = row.dialPrefix.toList :=
      (List.prefix_iff_eq_take.mp hfront).symm
    refine ⟨hfront.length_le, ?_, ?_⟩
    · -- rows with this prefix are as long as it, so none of them is later
      refine rateTable_get.mpr ⟨RatesTable.mem_effectiveRates.mpr ⟨hrow, heffect, ?_⟩, htake.symm⟩
      intro other hother hin hsame
      rw [← hsame] at hfront
      exact (hbest other hother hin hfront).2 (by rw [hsame])
    · intro j hj hlonger
      cases hget : (rateTable (t.effectiveRates group at_)).root.get (number.toList.take j) with
      | none => rfl
      | some other =>
        obtain ⟨hother, hin, hword⟩ := hstored j other hget
        have hlength : other.dialPrefix.length = j := by
          rw [← String.length_toList, hword, List.length_take, min_eq_left hj]
        have hle := (hbest other hother hin (hword ▸ List.take_prefix j number.toList)).1
        omega

/-- The trie and the reference query agree: on the row, on the prefix matched,
and on finding none. -/
theorem match_effectiveRates (t : RatesTable) (group : UUID) (number : String) (at_ : Time) :
    (rateTable (t.effectiveRates group at_)).match number =
      (t.longestPrefixSQL group number at_).map (fun row => (row, row.dialPrefix)) := by
  obtain ⟨best, hbest, hmatch⟩ := (rateTable (t.effectiveRates group at_)).match_longest number
  rw [hmatch, hbest.unique (longestPrefixSQL_longest t group number at_), Option.map_map]
  cases hfound : t.longestPrefixSQL group number at_ with
  | none => rfl
  | some row =>
    obtain ⟨-, -, hfront, -⟩ := t.mem_of_longestPrefixSQL hfound
    have htake : number.toList.take row.dialPrefix.length = row.dialPrefix.toList :=
      (List.prefix_iff_eq_take.mp hfront).symm
    simp [htake]

end SuperSbc.Tables

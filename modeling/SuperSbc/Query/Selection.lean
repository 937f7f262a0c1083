import Mathlib.Data.List.Sort
import Mathlib.Data.Prod.Lex
import Mathlib.Tactic

/-!
The part of a query that chooses among rows it has: `ORDER BY`, `LIMIT 1`,
`DISTINCT ON` and `LIKE`. A table is a list in whatever order its rows are
stored; where an order leaves ties, rows keep that order.
-/

namespace SuperSbc.Query

section Order

variable {Row Key : Type} [LinearOrder Key] (key : Row → Key)

variable {rows : List Row} {row : Row}

/-- `ORDER BY`, with the columns it names as a key; a descending column has
the dual order. -/
def orderBy (rows : List Row) : List Row := rows.insertionSort (fun a b => key a ≤ key b)

/-- `ORDER BY … LIMIT 1`. -/
def first (rows : List Row) : Option Row := (orderBy key rows).head?

variable {key}

theorem mem_orderBy : row ∈ orderBy key rows ↔ row ∈ rows :=
  List.mem_insertionSort _

theorem orderBy_pairwise (key : Row → Key) (rows : List Row) :
    (orderBy key rows).Pairwise (fun a b => key a ≤ key b) := by
  have : Std.Total (fun a b : Row => key a ≤ key b) := ⟨fun a b => le_total (key a) (key b)⟩
  have : IsTrans Row (fun a b => key a ≤ key b) := ⟨fun _ _ _ => le_trans⟩
  exact List.pairwise_insertionSort _ rows

theorem first_eq_none : first key rows = none ↔ rows = [] := by
  rw [first, List.head?_eq_none_iff, orderBy, ← List.length_eq_zero_iff,
    List.length_insertionSort, List.length_eq_zero_iff]

theorem mem_of_first (h : first key rows = some row) : row ∈ rows :=
  mem_orderBy.mp (List.mem_of_head? h)

theorem first_le {other : Row} (h : first key rows = some row) (hother : other ∈ rows) :
    key row ≤ key other := by
  have hsorted := orderBy_pairwise key rows
  have hmem : other ∈ orderBy key rows := mem_orderBy.mpr hother
  obtain ⟨rest, hrest⟩ := List.head?_eq_some_iff.mp h
  rw [hrest] at hsorted hmem
  rcases List.mem_cons.mp hmem with rfl | hlater
  · exact le_rfl
  · exact List.rel_of_pairwise_cons hsorted hlater

/-- Where the key tells the rows apart, the order they are stored in does not
matter. -/
theorem first_congr {other : List Row} (hsame : ∀ row, row ∈ rows ↔ row ∈ other)
    (hkeys : ∀ a ∈ rows, ∀ b ∈ rows, key a = key b → a = b) : first key rows = first key other := by
  cases hrow : first key rows with
  | none =>
    have hnil : other = [] := by
      refine List.eq_nil_iff_forall_not_mem.mpr (fun row hmem => ?_)
      rw [first_eq_none.mp hrow] at hsame
      exact absurd ((hsame row).mpr hmem) List.not_mem_nil
    exact (first_eq_none.mpr hnil).symm
  | some a =>
    have ha := mem_of_first hrow
    cases hother : first key other with
    | none =>
      rw [first_eq_none.mp hother] at hsame
      exact absurd ((hsame a).mp ha) List.not_mem_nil
    | some b =>
      have hb := (hsame b).mpr (mem_of_first hother)
      have hle := first_le hrow hb
      have hge := first_le hother ((hsame a).mp ha)
      rw [hkeys a ha b hb (le_antisymm hle hge)]

end Order

section Distinct

variable {Row Key : Type} [DecidableEq Key] (key : Row → Key)

variable {rows : List Row}

/-- `DISTINCT ON`: of the rows with one key, the first. -/
def distinctOn : List Row → List Row
  | [] => []
  | row :: rest => row :: (distinctOn rest).filter (fun other => key other ≠ key row)

variable {key}

theorem mem_of_distinctOn {row : Row} (h : row ∈ distinctOn key rows) : row ∈ rows := by
  induction rows with
  | nil => exact h
  | cons head rest ih =>
    rcases List.mem_cons.mp h with rfl | hlater
    · exact List.mem_cons_self
    · exact List.mem_cons_of_mem _ (ih (List.mem_filter.mp hlater).1)

theorem distinctOn_pairwise (rows : List Row) :
    (distinctOn key rows).Pairwise (fun a b => key a ≠ key b) := by
  induction rows with
  | nil => exact List.Pairwise.nil
  | cons head rest ih =>
    refine List.Pairwise.cons ?_ (ih.filter _)
    intro other hother
    have hne := (List.mem_filter.mp hother).2
    exact fun hkey => of_decide_eq_true hne hkey.symm

variable (key) in
theorem exists_distinctOn {row : Row} (h : row ∈ rows) :
    ∃ kept ∈ distinctOn key rows, key kept = key row := by
  induction rows with
  | nil => cases h
  | cons head rest ih =>
    by_cases hkey : key head = key row
    · exact ⟨head, List.mem_cons_self, hkey⟩
    · rcases List.mem_cons.mp h with rfl | hrest
      · exact absurd rfl hkey
      · obtain ⟨kept, hkept, hsame⟩ := ih hrest
        refine ⟨kept, List.mem_cons_of_mem _ (List.mem_filter.mpr ⟨hkept, ?_⟩), hsame⟩
        rw [hsame]
        exact decide_eq_true (Ne.symm hkey)

/-- Of ordered rows the kept one comes before all others with its key. -/
theorem distinctOn_before {before : Row → Row → Prop} {kept other : Row}
    (hsorted : rows.Pairwise before) (hkept : kept ∈ distinctOn key rows) (hother : other ∈ rows)
    (hkey : key other = key kept) : other = kept ∨ before kept other := by
  induction rows with
  | nil => cases hother
  | cons head rest ih =>
    have hrest := List.Pairwise.of_cons hsorted
    rcases List.mem_cons.mp hkept with rfl | hlater
    · rcases List.mem_cons.mp hother with rfl | hmem
      · exact .inl rfl
      · exact .inr (List.rel_of_pairwise_cons hsorted hmem)
    · obtain ⟨hin, hne⟩ := List.mem_filter.mp hlater
      rcases List.mem_cons.mp hother with rfl | hmem
      · exact absurd hkey.symm (of_decide_eq_true hne)
      · exact ih hrest hin hmem

/-- The kept rows are in the order in which rows of their kind come up first,
among those that pass a test and all others. -/
theorem distinctOn_in_order {p : Row → Bool} {same : Row → Row → Bool}
    (hsame : ∀ a ∈ rows, p a = true → ∀ b ∈ rows,
      (same a b = true ↔ p b = true ∧ key a = key b)) :
    (distinctOn key (rows.filter p)).Pairwise
      (fun a b => rows.findIdx (same a) < rows.findIdx (same b)) := by
  induction rows with
  | nil => exact List.Pairwise.nil
  | cons head rest ih =>
    have hlater := ih (fun a ha hpa b hb =>
      hsame a (List.mem_cons_of_mem _ ha) hpa b (List.mem_cons_of_mem _ hb))
    have hkept {a : Row} (ha : a ∈ distinctOn key (rest.filter p)) :
        a ∈ head :: rest ∧ p a = true := by
      obtain ⟨hmem, hpa⟩ := List.mem_filter.mp (mem_of_distinctOn ha)
      exact ⟨List.mem_cons_of_mem _ hmem, hpa⟩
    have hshift {a : Row} (hne : same a head = false) :
        (head :: rest).findIdx (same a) = rest.findIdx (same a) + 1 := by
      rw [List.findIdx_cons, hne]
      rfl
    by_cases hhead : p head = true
    · rw [List.filter_cons_of_pos hhead]
      have hother {a : Row}
          (ha : a ∈ (distinctOn key (rest.filter p)).filter (fun b => key b ≠ key head)) :
          same a head = false := by
        obtain ⟨hmem, hne⟩ := List.mem_filter.mp ha
        obtain ⟨hin, hpa⟩ := hkept hmem
        rw [Bool.eq_false_iff, ne_eq, hsame a hin hpa head List.mem_cons_self]
        exact fun h => of_decide_eq_true hne h.2
      refine List.Pairwise.cons (fun b hb => ?_) ?_
      · have hself : same head head = true :=
          (hsame head List.mem_cons_self hhead head List.mem_cons_self).mpr ⟨hhead, rfl⟩
        rw [hshift (hother hb), List.findIdx_cons, hself]
        exact Nat.succ_pos _
      · refine (hlater.filter _).imp_of_mem (fun {a b} ha hb hlt => ?_)
        rw [hshift (hother ha), hshift (hother hb)]
        exact Nat.succ_lt_succ hlt
    · rw [List.filter_cons_of_neg hhead]
      have hother {a : Row} (ha : a ∈ distinctOn key (rest.filter p)) : same a head = false := by
        obtain ⟨hin, hpa⟩ := hkept ha
        rw [Bool.eq_false_iff, ne_eq, hsame a hin hpa head List.mem_cons_self]
        exact fun h => hhead h.1
      refine hlater.imp_of_mem (fun {a b} ha hb hlt => ?_)
      rw [hshift (hother ha), hshift (hother hb)]
      exact Nat.succ_lt_succ hlt

/-- A loop that goes on to make something of a row unless it already did so for
a row with the same key. -/
def firsts {Made : Type} (key : Row → Key) (make : Row → Option Made) :
    List Key → List Row → List Made
  | _, [] => []
  | seen, row :: rest =>
    if key row ∈ seen then firsts key make seen rest
    else
      match make row with
      | none => firsts key make seen rest
      | some made => made :: firsts key make (key row :: seen) rest

/-- The loop makes something of one row for each key. -/
theorem firsts_eq {Made : Type} (make : Row → Option Made) (seen : List Key) (rows : List Row) :
    firsts key make seen rows =
      ((distinctOn key (rows.filter (fun row => (make row).isSome))).filter
        (fun row => key row ∉ seen)).filterMap make := by
  induction rows generalizing seen with
  | nil => rfl
  | cons head rest ih =>
    rw [firsts]
    by_cases hseen : key head ∈ seen
    · rw [if_pos hseen, ih]
      cases hmake : make head with
      | none => rw [List.filter_cons_of_neg (by simp [hmake])]
      | some made =>
        rw [List.filter_cons_of_pos (by simp [hmake]), distinctOn,
          List.filter_cons_of_neg (by simpa using hseen), List.filter_filter]
        congr 1
        refine List.filter_congr (fun row _ => ?_)
        by_cases hrow : key row ∈ seen
        · simp [hrow]
        · have hne : key row ≠ key head := fun h => hrow (h ▸ hseen)
          simp [hrow, hne]
    · rw [if_neg hseen]
      cases hmake : make head with
      | none =>
        rw [List.filter_cons_of_neg (by simp [hmake])]
        exact ih seen
      | some made =>
        rw [List.filter_cons_of_pos (by simp [hmake]), distinctOn,
          List.filter_cons_of_pos (by simpa using hseen), List.filterMap_cons_some hmake,
          List.filter_filter]
        change made :: firsts key make (key head :: seen) rest = _
        rw [ih]
        congr 2
        refine List.filter_congr (fun row _ => ?_)
        by_cases hrow : key row ∈ seen <;> by_cases hne : key row = key head <;>
          simp [hrow, hne]

end Distinct

section Like

/-- What one character of a `LIKE` pattern asks for. -/
inductive Piece where
  | anything
  | anyChar
  | char (c : Char)
deriving DecidableEq

/-- A backslash takes the character after it literally. -/
def pieces : Bool → List Char → List Piece
  | _, [] => []
  | true, c :: rest => .char c :: pieces false rest
  | false, c :: rest =>
    if c = '\\' then pieces true rest
    else if c = '%' then .anything :: pieces false rest
    else if c = '_' then .anyChar :: pieces false rest
    else .char c :: pieces false rest

def fits : List Piece → List Char → Bool
  | [], text => text.isEmpty
  | .anything :: rest, text => text.tails.any (fits rest)
  | .anyChar :: rest, text => text.tail?.any (fits rest)
  | .char c :: rest, text => text.head? = some c && fits rest text.tail

/-- `text LIKE pattern`. -/
def like (text pattern : List Char) : Bool := fits (pieces false pattern) text

theorem pieces_plain {front : List Char} (hplain : ∀ c ∈ front, c ≠ '\\' ∧ c ≠ '%' ∧ c ≠ '_')
    (rest : List Char) : pieces false (front ++ rest) = front.map .char ++ pieces false rest := by
  induction front with
  | nil => rfl
  | cons c front ih =>
    obtain ⟨hescape, hpercent, hunderscore⟩ := hplain c List.mem_cons_self
    rw [List.cons_append, pieces, if_neg hescape, if_neg hpercent, if_neg hunderscore,
      ih (fun d hd => hplain d (List.mem_cons_of_mem _ hd))]
    rfl

/-- A text without wildcards and a final `%` fit what begins with the text. -/
theorem like_front {front : List Char} (hplain : ∀ c ∈ front, c ≠ '\\' ∧ c ≠ '%' ∧ c ≠ '_')
    (text : List Char) : like text (front ++ ['%']) = true ↔ front <+: text := by
  rw [like, pieces_plain hplain]
  clear hplain
  induction front generalizing text with
  | nil => simp [pieces, fits]
  | cons c front ih =>
    rw [List.map_cons, List.cons_append, fits]
    cases text with
    | nil => simp
    | cons d text =>
      simp only [List.head?_cons, List.tail_cons, Bool.and_eq_true, ih, List.cons_prefix_cons,
        decide_eq_true_eq, Option.some.injEq]
      rw [eq_comm]

end Like

end SuperSbc.Query

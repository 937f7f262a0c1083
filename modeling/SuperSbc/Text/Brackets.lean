import Mathlib.Tactic

/-!
Lists of entries in brackets in front of a target, as FreeSWITCH reads
`{entry,entry}target`: entries end at a separator, the list at the closing
bracket, and an escape sign takes the meaning from the sign after it. Texts are
over any alphabet with these marks.
-/

namespace SuperSbc.Text

structure Marks (α : Type) where
  opening : α
  separator : α
  closing : α
  escape : α
  separator_ne_closing : separator ≠ closing
  escape_ne_separator : escape ≠ separator
  escape_ne_closing : escape ≠ closing

/-- A list in brackets as it is read: its first entry, the others and what comes
after the brackets. -/
@[ext]
structure Bracketed (α : Type) where
  entry : List α
  others : List (List α)
  target : List α
deriving DecidableEq

namespace Bracketed

variable {α : Type}

def entries (b : Bracketed α) : List (List α) := b.entry :: b.others

/-- With more at the front of the first entry. -/
def push (front : List α) (b : Bracketed α) : Bracketed α := { b with entry := front ++ b.entry }

theorem push_push (front more : List α) (b : Bracketed α) :
    (b.push more).push front = b.push (front ++ more) := by
  simp [push]

theorem map_push_push (front more : List α) (r : Option (Bracketed α)) :
    (r.map (·.push more)).map (·.push front) = r.map (·.push (front ++ more)) := by
  rw [Option.map_map]
  congr 1
  funext b
  exact push_push front more b

end Bracketed

namespace Marks

section Clean

variable {α : Type} (m : Marks α) {c : α} {s t : List α}

/-- A sign that stands for itself. -/
def Plain (c : α) : Prop := c ≠ m.separator ∧ c ≠ m.closing ∧ c ≠ m.escape

/-- A text of signs that stand for themselves. -/
def Clean (t : List α) : Prop := ∀ c ∈ t, m.Plain c

theorem plain_or_mark (c : α) :
    m.Plain c ∨ c = m.separator ∨ c = m.closing ∨ c = m.escape := by
  unfold Plain
  tauto

variable {m}

theorem Clean.cons_iff : m.Clean (c :: t) ↔ m.Plain c ∧ m.Clean t := List.forall_mem_cons

theorem Clean.append_iff : m.Clean (s ++ t) ↔ m.Clean s ∧ m.Clean t := List.forall_mem_append

end Clean

variable {α : Type} [DecidableEq α] (m : Marks α)

instance : DecidablePred m.Plain := fun c =>
  inferInstanceAs (Decidable (c ≠ m.separator ∧ c ≠ m.closing ∧ c ≠ m.escape))

instance : DecidablePred m.Clean := fun t => List.decidableBAll _ t

/-- What follows the opening bracket. -/
def read : List α → Option (Bracketed α)
  | [] => none
  | c :: rest =>
    if c = m.escape then
      match rest with
      | [] => none
      | d :: rest => (read rest).map (·.push [d])
    else if c = m.separator then
      (read rest).map (fun b => ⟨[], b.entries, b.target⟩)
    else if c = m.closing then some ⟨[], [], rest⟩
    else (read rest).map (·.push [c])

/-- A whole text. -/
def parse : List α → Option (Bracketed α)
  | [] => none
  | c :: rest => if c = m.opening then m.read rest else none

/-- A text without closing brackets. -/
def without (t : List α) : List α := t.filter (· ≠ m.closing)

/-- A text with its marks escaped, or left out. -/
def escaped (t : List α) : List α :=
  t.flatMap (fun c =>
    if c = m.escape then [m.escape, m.escape]
    else if c = m.separator then [m.escape, m.separator]
    else if c = m.closing then []
    else [c])

section Read

variable {m} {c d : α} {rest t z : List α} {b : Bracketed α}

theorem parse_opening : m.parse (m.opening :: rest) = m.read rest := by
  rw [parse, if_pos rfl]

theorem read_escape : m.read (m.escape :: d :: rest) = (m.read rest).map (·.push [d]) := by
  rw [read, if_pos rfl]

theorem read_separator :
    m.read (m.separator :: rest) = (m.read rest).map (fun b => ⟨[], b.entries, b.target⟩) := by
  rw [read.eq_def]
  dsimp only
  rw [if_neg m.escape_ne_separator.symm, if_pos rfl]

theorem read_closing : m.read (m.closing :: rest) = some ⟨[], [], rest⟩ := by
  rw [read.eq_def]
  dsimp only
  rw [if_neg m.escape_ne_closing.symm, if_neg m.separator_ne_closing.symm, if_pos rfl]

theorem read_plain (hc : m.Plain c) : m.read (c :: rest) = (m.read rest).map (·.push [c]) := by
  rw [read.eq_def]
  dsimp only
  rw [if_neg hc.2.2, if_neg hc.1, if_neg hc.2.1]

theorem without_cons (hc : c ≠ m.closing) : m.without (c :: t) = c :: m.without t :=
  List.filter_cons_of_pos (decide_eq_true hc)

theorem without_closing : m.without (m.closing :: t) = m.without t :=
  List.filter_cons_of_neg (by simp)

theorem count_without : (m.without t).count m.closing = 0 := by
  rw [without, List.count_eq_zero]
  exact fun hmem => of_decide_eq_true (List.mem_filter.mp hmem).2 rfl

theorem Clean.without (ht : m.Clean t) : m.without t = t :=
  List.filter_eq_self.mpr (fun c hc => decide_eq_true (ht c hc).2.1)

theorem read_clean (ht : m.Clean t) : m.read (t ++ z) = (m.read z).map (·.push t) := by
  induction t with
  | nil => exact (congrFun Option.map_id (m.read z)).symm
  | cons c t ih =>
    obtain ⟨hc, ht⟩ := Clean.cons_iff.mp ht
    rw [List.cons_append, read_plain hc, ih ht, Bracketed.map_push_push]
    rfl

theorem read_escaped (t : List α) :
    m.read (m.escaped t ++ z) = (m.read z).map (·.push (m.without t)) := by
  induction t with
  | nil => exact (congrFun Option.map_id (m.read z)).symm
  | cons c t ih =>
    rw [escaped, List.flatMap_cons, List.append_assoc, ← escaped]
    rcases m.plain_or_mark c with hplain | rfl | rfl | rfl
    · rw [if_neg hplain.2.2, if_neg hplain.1, if_neg hplain.2.1, without_cons hplain.2.1,
        List.singleton_append, read_plain hplain, ih, Bracketed.map_push_push]
      rfl
    · rw [if_neg m.escape_ne_separator.symm, if_pos rfl, without_cons m.separator_ne_closing,
        List.cons_append, List.singleton_append, read_escape, ih, Bracketed.map_push_push]
      rfl
    · rw [if_neg m.escape_ne_closing.symm, if_neg m.separator_ne_closing.symm, if_pos rfl,
        without_closing, List.nil_append, ih]
    · rw [if_pos rfl, without_cons m.escape_ne_closing, List.cons_append,
        List.singleton_append, read_escape, ih, Bracketed.map_push_push]
      rfl

end Read

section Spells

/-- A text in which an entry can be written: signs that stand for themselves, and
any sign after an escape sign. -/
inductive Spells : List α → List α → Prop
  | nil : Spells [] []
  | plain {c : α} {t e : List α} (hc : m.Plain c) (h : Spells t e) : Spells (c :: t) (c :: e)
  | escape {t e : List α} (d : α) (h : Spells t e) : Spells (m.escape :: d :: t) (d :: e)

variable {m} {t e s x z : List α} {b : Bracketed α}

/-- What is read is an entry and then, at the first mark that is not escaped,
the others or the target. -/
theorem exists_spelled (h : m.read s = some b) :
    ∃ t, m.Spells t b.entry ∧
      ((∃ rest, s = t ++ m.separator :: rest ∧ b.others ≠ []) ∨
        s = t ++ m.closing :: b.target ∧ b.others = []) := by
  induction hn : s.length using Nat.strong_induction_on generalizing s b with
  | _ n ih =>
    cases s with
    | nil => cases h
    | cons c s =>
      rw [List.length_cons] at hn
      rcases m.plain_or_mark c with hplain | rfl | rfl | rfl
      · rw [read_plain hplain] at h
        obtain ⟨b', hb', rfl⟩ := Option.map_eq_some_iff.mp h
        obtain ⟨t, ht, hrest⟩ := ih s.length (by omega) hb' rfl
        refine ⟨c :: t, .plain hplain ht, hrest.imp ?_ ?_⟩
        · exact fun ⟨rest, hs, hothers⟩ => ⟨rest, by rw [hs]; rfl, hothers⟩
        · exact fun ⟨hs, hothers⟩ => ⟨by rw [hs]; rfl, hothers⟩
      · rw [read_separator] at h
        obtain ⟨b', -, rfl⟩ := Option.map_eq_some_iff.mp h
        exact ⟨[], .nil, .inl ⟨s, rfl, List.cons_ne_nil _ _⟩⟩
      · rw [read_closing] at h
        obtain rfl := Option.some.inj h
        exact ⟨[], .nil, .inr ⟨rfl, rfl⟩⟩
      · cases s with
        | nil =>
          rw [read, if_pos rfl] at h
          cases h
        | cons d s =>
          rw [read_escape] at h
          obtain ⟨b', hb', rfl⟩ := Option.map_eq_some_iff.mp h
          rw [List.length_cons] at hn
          obtain ⟨t, ht, hrest⟩ := ih s.length (by omega) hb' rfl
          refine ⟨m.escape :: d :: t, .escape d ht, hrest.imp ?_ ?_⟩
          · exact fun ⟨rest, hs, hothers⟩ => ⟨rest, by rw [hs]; rfl, hothers⟩
          · exact fun ⟨hs, hothers⟩ => ⟨by rw [hs]; rfl, hothers⟩

/-- Every separator and every escape sign of an entry takes one more sign to
write. -/
theorem Spells.length_le (h : m.Spells t e) :
    e.length + e.count m.separator + e.count m.escape ≤ t.length := by
  induction h with
  | nil => exact Nat.le_refl 0
  | plain hc h ih =>
    rw [List.count_cons_of_ne hc.1, List.count_cons_of_ne hc.2.2, List.length_cons,
      List.length_cons]
    omega
  | escape d h ih =>
    rename_i t e
    have hone : (d :: e).count m.separator + (d :: e).count m.escape ≤
        e.count m.separator + e.count m.escape + 1 := by
      rw [List.count_cons, List.count_cons]
      by_cases hseparator : d = m.separator
      · have hescape : d ≠ m.escape := hseparator ▸ m.escape_ne_separator.symm
        simp [hseparator, m.escape_ne_separator.symm]
        omega
      · simp [hseparator]
        split_ifs <;> omega
    rw [List.length_cons, List.length_cons, List.length_cons]
    omega

theorem Spells.count_separator (h : m.Spells t e) :
    t.count m.separator = e.count m.separator := by
  induction h with
  | nil => rfl
  | plain hc h ih => rw [List.count_cons_of_ne hc.1, List.count_cons_of_ne hc.1, ih]
  | escape d h ih =>
    rw [List.count_cons_of_ne m.escape_ne_separator, List.count_cons, List.count_cons, ih]

theorem Spells.count_closing (h : m.Spells t e) : t.count m.closing = e.count m.closing := by
  induction h with
  | nil => rfl
  | plain hc h ih => rw [List.count_cons_of_ne hc.2.1, List.count_cons_of_ne hc.2.1, ih]
  | escape d h ih =>
    rw [List.count_cons_of_ne m.escape_ne_closing, List.count_cons, List.count_cons, ih]

/-- Where the entry that is read should end: at a separator if there are others,
and otherwise at the bracket in front of the target. -/
def EndsEntry (m : Marks α) (z : List α) (b : Bracketed α) : Prop :=
  (∃ rest, z = m.separator :: rest ∧ b.others ≠ []) ∨ z = m.closing :: b.target

/-- A text with as many separators as the entry that is read, and an entry
without brackets, spells the entry: it can end neither before the text does nor
after. -/
theorem spells_of_read (h : m.read (x ++ z) = some b) (hz : m.EndsEntry z b)
    (hseparator : x.count m.separator = b.entry.count m.separator)
    (hclosing : b.entry.count m.closing = 0) : m.Spells x b.entry := by
  obtain ⟨t, ht, hend⟩ := exists_spelled h
  have hsame : t = x := by
    have hsplit : ∃ mark rest, x ++ z = t ++ mark :: rest ∧
        (mark = m.separator ∨ mark = m.closing ∧ rest = b.target ∧ b.others = []) := by
      rcases hend with ⟨rest, hs, -⟩ | ⟨hs, hothers⟩
      · exact ⟨m.separator, rest, hs, .inl rfl⟩
      · exact ⟨m.closing, b.target, hs, .inr ⟨rfl, rfl, hothers⟩⟩
    obtain ⟨mark, rest, hs, hmark⟩ := hsplit
    rcases List.append_eq_append_iff.mp hs with ⟨more, rfl, hz'⟩ | ⟨more, rfl, hrest⟩
    · cases more with
      | nil => exact List.append_nil x
      | cons q more =>
        -- the entry would go on after the text, over the mark that ends it
        exfalso
        have hcount := ht.count_separator
        have hcount' := ht.count_closing
        rw [List.count_append] at hcount hcount'
        rcases hz with ⟨rest', rfl, -⟩ | rfl
        · obtain ⟨rfl, -⟩ := List.cons.inj hz'
          rw [List.count_cons_self] at hcount
          omega
        · obtain ⟨rfl, -⟩ := List.cons.inj hz'
          rw [List.count_cons_self] at hcount'
          omega
    · cases more with
      | nil => exact (List.append_nil t).symm
      | cons q more =>
        -- the entry would end at a mark inside the text
        exfalso
        have hcount := ht.count_separator
        rw [List.count_append] at hseparator
        obtain ⟨rfl, rfl⟩ := List.cons.inj hrest
        rcases hmark with rfl | ⟨-, htarget, hothers⟩
        · rw [List.count_cons_self] at hseparator
          omega
        · rcases hz with ⟨-, -, hne⟩ | hz
          · exact hne hothers
          · have hlength : more.length + z.length = b.target.length := by
              rw [← List.length_append]
              exact congrArg List.length htarget
            rw [hz, List.length_cons] at hlength
            omega
  rwa [← hsame]

end Spells

section Read

variable {m} {c d : α} {rest t z : List α} {b : Bracketed α}

/-- A text that is read as itself without closing brackets is clean. -/
theorem clean_of_read (h : m.read (t ++ z) = some b) (hentry : b.entry = m.without t)
    (hz : m.EndsEntry z b) : m.Clean t := by
  have hseparator : t.count m.separator = b.entry.count m.separator := by
    rw [hentry, without,
      List.count_filter (p := (· ≠ m.closing)) (decide_eq_true m.separator_ne_closing)]
  have hclosing : b.entry.count m.closing = 0 := by
    rw [hentry, count_without]
  have hspells := spells_of_read h hz hseparator hclosing
  have hno : m.closing ∉ t := by
    rw [← List.count_eq_zero, hspells.count_closing, hclosing]
  have hwhole : b.entry = t := by
    rw [hentry, without, List.filter_eq_self]
    exact fun c hc => decide_eq_true (fun h => hno (h ▸ hc))
  have hlength := hspells.length_le
  rw [hwhole] at hlength
  have hseparator' : m.separator ∉ t := List.count_eq_zero.mp (by omega)
  have hescape : m.escape ∉ t := List.count_eq_zero.mp (by omega)
  intro c hc
  refine ⟨?_, ?_, ?_⟩
  · rintro rfl
    exact hseparator' hc
  · rintro rfl
    exact hno hc
  · rintro rfl
    exact hescape hc

end Read

/-- An entry as it is printed: a front that is put in as it is, and a value that
is escaped or not. -/
structure Piece (α : Type) where
  front : List α
  value : List α
  escapes : Bool

section Pieces

variable (target : List α)

def pieceText (p : Piece α) : List α :=
  p.front ++ if p.escapes then m.escaped p.value else p.value

/-- What a piece is meant to be read as. -/
def pieceEntry (p : Piece α) : List α := p.front ++ m.without p.value

/-- What is printed after the first piece. -/
def after : List (Piece α) → List α
  | [] => m.closing :: target
  | p :: rest => m.separator :: (m.pieceText p ++ after rest)

/-- A whole text. -/
def printed (pieces : List (Piece α)) : List α :=
  m.opening :: ([m.separator].intercalate (pieces.map m.pieceText) ++ m.closing :: target)

/-- The value of a piece is escaped or has nothing to escape. -/
def Safe (p : Piece α) : Prop := p.escapes = false → m.Clean p.value

variable {m target} {p : Piece α} {rest : List (Piece α)} {z : List α}

theorem printed_cons :
    m.printed target (p :: rest) = m.opening :: (m.pieceText p ++ m.after target rest) := by
  unfold printed
  congr 1
  induction rest generalizing p with
  | nil => rw [List.map_singleton, List.intercalate_singleton, after]
  | cons q rest ih =>
    rw [List.map_cons, List.map_cons, List.intercalate_cons_cons, ← List.map_cons,
      List.append_assoc, List.append_assoc, ih, after, List.singleton_append]

theorem read_piece (hfront : m.Clean p.front) (hsafe : m.Safe p) :
    m.read (m.pieceText p ++ z) = (m.read z).map (·.push (m.pieceEntry p)) := by
  unfold pieceText pieceEntry
  rw [List.append_assoc, read_clean hfront]
  cases hescapes : p.escapes with
  | true => rw [if_pos rfl, read_escaped, Bracketed.map_push_push]
  | false =>
    have hvalue := hsafe hescapes
    rw [if_neg Bool.false_ne_true, read_clean hvalue, Bracketed.map_push_push, hvalue.without]

theorem safe_of_read (hfront : m.Clean p.front) {b : Bracketed α}
    (h : m.read (m.pieceText p ++ z) = some b) (hentry : b.entry = m.pieceEntry p)
    (hz : m.EndsEntry z b) : m.Safe p := by
  intro hescapes
  rw [pieceText, hescapes, if_neg Bool.false_ne_true, List.append_assoc, read_clean hfront] at h
  obtain ⟨b', hb', rfl⟩ := Option.map_eq_some_iff.mp h
  exact clean_of_read hb' (List.append_cancel_left hentry) hz

theorem read_pieces_iff (hfront : ∀ q ∈ p :: rest, m.Clean q.front) :
    m.read (m.pieceText p ++ m.after target rest) =
        some ⟨m.pieceEntry p, rest.map m.pieceEntry, target⟩ ↔
      ∀ q ∈ p :: rest, m.Safe q := by
  have hpush {p : Piece α} {r : Option (Bracketed α)} {others : List (List α)} :
      r.map (·.push (m.pieceEntry p)) = some ⟨m.pieceEntry p, others, target⟩ ↔
        r = some ⟨[], others, target⟩ := by
    rw [Option.map_eq_some_iff]
    constructor
    · rintro ⟨b, rfl, hb⟩
      obtain ⟨hentry, hothers, htarget⟩ := Bracketed.mk.inj hb
      rw [← hothers, ← htarget]
      exact congrArg some (Bracketed.ext (List.append_right_eq_self.mp hentry) rfl rfl)
    · rintro rfl
      exact ⟨_, rfl, by rw [Bracketed.push, List.append_nil]⟩
  induction rest generalizing p with
  | nil =>
    have hp := hfront p List.mem_cons_self
    rw [List.forall_mem_singleton]
    constructor
    · intro h
      exact safe_of_read hp h rfl (.inr rfl)
    · intro hsafe
      rw [read_piece hp hsafe, hpush]
      exact read_closing
  | cons q rest ih =>
    have hp := hfront p List.mem_cons_self
    have hrest := ih (fun r hr => hfront r (List.mem_cons_of_mem _ hr))
    have hnext : m.read (m.after target (q :: rest)) =
        some ⟨[], (q :: rest).map m.pieceEntry, target⟩ ↔ ∀ r ∈ q :: rest, m.Safe r := by
      refine Iff.trans ?_ hrest
      rw [after, read_separator, Option.map_eq_some_iff]
      constructor
      · rintro ⟨⟨entry, others, target'⟩, hb, hsame⟩
        obtain ⟨-, hentries, rfl⟩ := Bracketed.mk.inj hsame
        obtain ⟨rfl, rfl⟩ := List.cons.inj hentries
        exact hb
      · exact fun hb => ⟨_, hb, rfl⟩
    rw [List.forall_mem_cons]
    constructor
    · intro h
      have hsafe := safe_of_read hp h rfl (.inl ⟨_, rfl, List.cons_ne_nil _ _⟩)
      rw [read_piece hp hsafe, hpush] at h
      exact ⟨hsafe, hnext.mp h⟩
    · rintro ⟨hsafe, h⟩
      rw [read_piece hp hsafe, hpush]
      exact hnext.mpr h

/-- What is printed is read as it is meant exactly if every value that is not
escaped has nothing to escape. -/
theorem parse_printed_iff (target : List α) (hfront : ∀ q ∈ p :: rest, m.Clean q.front) :
    m.parse (m.printed target (p :: rest)) =
        some ⟨m.pieceEntry p, rest.map m.pieceEntry, target⟩ ↔
      ∀ q ∈ p :: rest, m.Safe q := by
  rw [printed_cons, parse_opening]
  exact read_pieces_iff hfront

end Pieces

end Marks

end SuperSbc.Text

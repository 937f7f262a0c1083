import SuperSbc.Query.Tables
import SuperSbc.Text.Split
import SuperSbc.TimeWindow.Week

/-!
Routing windows: `mon-fri 08:00-18:00 Europe/London; sat,sun 00:00-24:00`. The
parser and the test follow the source. What a clause says is stated on its own,
from the words of the text; a window that was accepted contains an instant
exactly when one of its clauses says so.
-/

namespace SuperSbc.TimeWindow

open Text Query

/-- What Go's libraries know: lower case, the time zones, and what a clock in a
zone shows at an instant. -/
structure Clocks (Zone Instant : Type) where
  lower : Char → Char
  utc : Zone
  loadLocation : List Char → Option Zone
  clock : Zone → Instant → LocalMinute

/-- `strings.Cut`: the text before and after the first separator. -/
def cut (sep : Char) : List Char → Option (List Char × List Char)
  | [] => none
  | c :: rest =>
    if c = sep then some ([], rest) else (cut sep rest).map (fun p => (c :: p.1, p.2))

theorem cut_eq_some_iff {sep : Char} {s front back : List Char} :
    cut sep s = some (front, back) ↔ s = front ++ sep :: back ∧ sep ∉ front := by
  induction s generalizing front with
  | nil => simp [cut]
  | cons c rest ih =>
    unfold cut
    by_cases hc : c = sep
    · subst hc
      rw [if_pos rfl]
      cases front with
      | nil => simp [eq_comm]
      | cons d front =>
        constructor
        · intro h
          cases h
        · rintro ⟨h, hnot⟩
          exact absurd (List.cons.inj h).1 (fun hcd => hnot (hcd ▸ List.mem_cons_self))
    · rw [if_neg hc, Option.map_eq_some_iff]
      cases front with
      | nil =>
        constructor
        · rintro ⟨p, -, hp⟩
          cases hp
        · rintro ⟨h, -⟩
          exact absurd (List.cons.inj h).1 hc
      | cons d front =>
        constructor
        · rintro ⟨p, hp, hfront⟩
          obtain ⟨hhead, rfl⟩ := Prod.mk.inj hfront
          obtain ⟨rfl, rfl⟩ := List.cons.inj hhead
          obtain ⟨rfl, hnot⟩ := ih.mp hp
          exact ⟨rfl, by simp [Ne.symm hc, hnot]⟩
        · rintro ⟨h, hnot⟩
          obtain ⟨rfl, rfl⟩ := List.cons.inj h
          exact ⟨(front, back), ih.mpr ⟨rfl, fun hmem => hnot (List.mem_cons_of_mem _ hmem)⟩,
            rfl⟩

/-- Why a text is not accepted, with the part of it that the message quotes. -/
inductive ParseError where
  | shape
  | emptyDay
  | unknownDay (text : List Char)
  | timeRange (text : List Char)
  | time (text : List Char)
  | emptyRange
  | unknownZone (text : List Char)
deriving DecidableEq

structure Clause (Zone : Type) where
  days : Weekday → Bool
  start : ℕ
  stop : ℕ
  loc : Zone

structure Window (Zone : Type) where
  clauses : List (Clause Zone)
  src : List Char

def days : List (List Char × Weekday) :=
  [("sun".toList, .sunday), ("mon".toList, .monday), ("tue".toList, .tuesday),
    ("wed".toList, .wednesday), ("thu".toList, .thursday), ("fri".toList, .friday),
    ("sat".toList, .saturday)]

def dayOf (name : List Char) : Option Weekday := days.lookup name

/-- The loop over a range of days; it meets its last day within seven steps. -/
def markRange (last : Weekday) : ℕ → Weekday → (Weekday → Bool) → Weekday → Bool
  | 0, _, days => days
  | fuel + 1, i, days =>
    let days := Function.update days i true
    if i = last then days else markRange last fuel i.next days

/-- The loop over the items of the first field. -/
def listDays : List (List Char) → (Weekday → Bool) → Except ParseError (Weekday → Bool)
  | [], days => .ok days
  | item :: rest, days =>
    if item = [] then .error .emptyDay
    else
      match cut '-' item with
      | some (front, back) =>
        match dayOf front, dayOf back with
        | some first, some last => listDays rest (markRange last 7 first days)
        | _, _ => .error (.unknownDay item)
      | none =>
        match dayOf item with
        | some day => listDays rest (Function.update days day true)
        | none => .error (.unknownDay item)

def parseHM (s : List Char) : Except ParseError ℕ :=
  match cut ':' s with
  | none => .error (.time s)
  | some (h, m) =>
    match readInt h, readInt m with
    | some hh, some mm =>
      if hh < 0 ∨ 24 < hh ∨ mm < 0 ∨ 59 < mm ∨ (hh = 24 ∧ mm ≠ 0) then .error (.time s)
      else .ok (hh * 60 + mm).toNat
    | _, _ => .error (.time s)

section Clocks

variable {Zone Instant : Type} (k : Clocks Zone Instant)

/-- A clause from its fields, the last of which may be left out. -/
def clauseOf (dayField timeField : List Char) (zoneField : Option (List Char)) :
    Except ParseError (Clause Zone) := do
  let days ← listDays ((dayField.map k.lower).splitOn ',') (fun _ => false)
  match cut '-' timeField with
  | none => .error (.timeRange timeField)
  | some (front, back) =>
    let start ← parseHM front
    let stop ← parseHM back
    if start = stop then .error .emptyRange
    else
      match zoneField with
      | none => .ok ⟨days, start, stop, k.utc⟩
      | some zone =>
        match k.loadLocation zone with
        | none => .error (.unknownZone zone)
        | some loc => .ok ⟨days, start, stop, loc⟩

def parseClause (text : List Char) : Except ParseError (Clause Zone) :=
  match fields text with
  | [dayField, timeField] => clauseOf k dayField timeField none
  | [dayField, timeField, zoneField] => clauseOf k dayField timeField (some zoneField)
  | _ => .error .shape

/-- The parts between semicolons that are not blank. -/
def clauseTexts (text : String) : List (List Char) :=
  (((trimSpace text.toList).splitOn ';').map trimSpace).filter (· ≠ [])

def parse (text : String) : Except ParseError (Window Zone) := do
  let clauses ← (clauseTexts text).mapM (parseClause k)
  return ⟨clauses, trimSpace text.toList⟩

def Clause.contains (c : Clause Zone) (t : Instant) : Bool :=
  let now := k.clock c.loc t
  if c.start < c.stop then c.days now.weekday && c.start ≤ now.minute && now.minute < c.stop
  else
    c.days now.weekday && c.start ≤ now.minute ||
      c.days now.weekday.previous && now.minute < c.stop

def Window.contains (w : Window Zone) (t : Instant) : Bool :=
  w.clauses.isEmpty || w.clauses.any (·.contains k t)

end Clocks

/-- An item of the first field names a day, or two days with those between
them. -/
inductive ListsDay (item : List Char) (d : Weekday) : Prop where
  | day (hname : dayOf item = some d)
  | range (front back : List Char) (first last : Weekday) (hitem : item = front ++ '-' :: back)
      (hfirst : dayOf front = some first) (hlast : dayOf back = some last)
      (hbetween : first.Between last d)

/-- A time of day in hours and minutes, `24:00` included. -/
inductive SaysTime (s : List Char) : ℕ → Prop where
  | time (h m : List Char) (hh mm : ℕ) (htext : s = h ++ ':' :: m) (hfirst : ':' ∉ h)
      (hhours : readInt h = some hh) (hminutes : readInt m = some mm)
      (hrange : hh < 24 ∧ mm < 60 ∨ hh = 24 ∧ mm = 0) : SaysTime s (60 * hh + mm)

/-- What the words of a clause say: its days, its interval and its zone. -/
structure ClauseSays {Zone Instant : Type} (k : Clocks Zone Instant) (text : List Char)
    (span : Span) (zone : Zone) : Prop where
  words : ∃ dayField timeField zoneField front back,
    fields text = dayField :: timeField :: Option.toList zoneField ∧
    (∀ d, span.days d ↔ ∃ item ∈ (dayField.map k.lower).splitOn ',', ListsDay item d) ∧
    timeField = front ++ '-' :: back ∧ '-' ∉ front ∧
    SaysTime front span.start ∧ SaysTime back span.stop ∧
    (zoneField = none ∧ zone = k.utc ∨ ∃ name, zoneField = some name ∧
      k.loadLocation name = some zone)

section Days

theorem markRange_iff {last : Weekday} {fuel : ℕ} {first : Weekday} {days : Weekday → Bool}
    {d : Weekday} (hfuel : first.upTo last < fuel) :
    markRange last fuel first days d = true ↔ days d = true ∨ first.Between last d := by
  induction fuel generalizing first days with
  | zero => exact absurd hfuel (Nat.not_lt_zero _)
  | succ fuel ih =>
    unfold markRange
    dsimp only
    by_cases hend : first = last
    · subst hend
      have hzero : first.upTo first = 0 := Weekday.upTo_eq_zero_iff.mpr rfl
      rw [if_pos rfl]
      by_cases hd : d = first
      · subst hd
        exact iff_of_true (Function.update_self ..) (.inr ⟨0, Nat.zero_le _, rfl⟩)
      · simp [Weekday.Between, hzero, hd]
    · have hsteps := Weekday.upTo_next hend
      rw [if_neg hend, ih (by omega)]
      have hrange : first.Between last d ↔ d = first ∨ first.next.Between last d := by
        unfold Weekday.Between
        constructor
        · rintro ⟨n, hn, rfl⟩
          cases n with
          | zero => exact .inl rfl
          | succ n => exact .inr ⟨n, by omega, rfl⟩
        · rintro (rfl | ⟨n, hn, rfl⟩)
          · exact ⟨0, Nat.zero_le _, rfl⟩
          · exact ⟨n + 1, by omega, rfl⟩
      rw [hrange]
      by_cases hd : d = first
      · subst hd
        simp
      · simp [hd]

theorem notMem_of_dayOf {name : List Char} {d : Weekday} (h : dayOf name = some d) :
    '-' ∉ name := by
  obtain ⟨before, after, hdays, -⟩ := List.lookup_eq_some_iff.mp h
  have hmem : (name, d) ∈ days := hdays ▸ by simp
  simp only [days, List.mem_cons, List.not_mem_nil, or_false, Prod.mk.injEq] at hmem
  rcases hmem with ⟨rfl, -⟩ | ⟨rfl, -⟩ | ⟨rfl, -⟩ | ⟨rfl, -⟩ | ⟨rfl, -⟩ | ⟨rfl, -⟩ | ⟨rfl, -⟩ <;>
    decide

theorem listsDay_iff_of_cut {item front back : List Char} {first last d : Weekday}
    (hcut : cut '-' item = some (front, back)) (hfirst : dayOf front = some first)
    (hlast : dayOf back = some last) : ListsDay item d ↔ first.Between last d := by
  obtain ⟨hitem, -⟩ := cut_eq_some_iff.mp hcut
  constructor
  · rintro (hname | ⟨front', back', first', last', hitem', hfirst', hlast', hbetween⟩)
    · exact absurd (hitem ▸ by simp) (notMem_of_dayOf hname)
    · have hcut' := cut_eq_some_iff.mpr ⟨hitem', notMem_of_dayOf hfirst'⟩
      obtain ⟨rfl, rfl⟩ := Prod.mk.inj (Option.some.inj (hcut.symm.trans hcut'))
      obtain rfl := Option.some.inj (hfirst.symm.trans hfirst')
      obtain rfl := Option.some.inj (hlast.symm.trans hlast')
      exact hbetween
  · exact .range front back first last hitem hfirst hlast

theorem listsDay_iff_of_uncut {item : List Char} {day d : Weekday} (hcut : cut '-' item = none)
    (hday : dayOf item = some day) : ListsDay item d ↔ d = day := by
  constructor
  · rintro (hname | ⟨front, back, first, last, hitem, hfirst, -, -⟩)
    · exact Option.some.inj (hname.symm.trans hday)
    · have hcut' := cut_eq_some_iff.mpr ⟨hitem, notMem_of_dayOf hfirst⟩
      rw [hcut] at hcut'
      cases hcut'
  · rintro rfl
    exact .day hday

theorem listDays_ok {items : List (List Char)} {days marked : Weekday → Bool}
    (h : listDays items days = .ok marked) (d : Weekday) :
    marked d = true ↔ days d = true ∨ ∃ item ∈ items, ListsDay item d := by
  induction items generalizing days with
  | nil =>
    obtain rfl := Except.ok.inj h
    simp
  | cons item rest ih =>
    unfold listDays at h
    split_ifs at h
    rw [List.exists_mem_cons_iff, ← or_assoc]
    cases hcut : cut '-' item with
    | none =>
      rw [hcut] at h
      cases hday : dayOf item with
      | none =>
        rw [hday] at h
        cases h
      | some day =>
        rw [hday] at h
        rw [ih h, listsDay_iff_of_uncut hcut hday]
        by_cases hd : d = day
        · subst hd
          simp
        · simp [hd]
    | some parts =>
      obtain ⟨front, back⟩ := parts
      rw [hcut] at h
      dsimp only at h
      cases hfirst : dayOf front with
      | none =>
        rw [hfirst] at h
        cases h
      | some first =>
        cases hlast : dayOf back with
        | none =>
          rw [hfirst, hlast] at h
          cases h
        | some last =>
          rw [hfirst, hlast] at h
          rw [ih h, listsDay_iff_of_cut hcut hfirst hlast,
            markRange_iff (Nat.mod_lt _ (by decide))]

end Days

section Clause

theorem parseHM_ok {s : List Char} {n : ℕ} (h : parseHM s = .ok n) : SaysTime s n ∧ n ≤ 1440 := by
  unfold parseHM at h
  cases hcut : cut ':' s with
  | none =>
    rw [hcut] at h
    cases h
  | some parts =>
    obtain ⟨hText, mText⟩ := parts
    rw [hcut] at h
    dsimp only at h
    cases hhours : readInt hText with
    | none =>
      rw [hhours] at h
      cases h
    | some hh =>
      cases hminutes : readInt mText with
      | none =>
        rw [hhours, hminutes] at h
        cases h
      | some mm =>
        rw [hhours, hminutes] at h
        dsimp only at h
        split_ifs at h with hbad
        obtain rfl := Except.ok.inj h
        obtain ⟨hs, hfirst⟩ := cut_eq_some_iff.mp hcut
        lift hh to ℕ using by omega
        lift mm to ℕ using by omega
        have hvalue : ((hh : ℤ) * 60 + mm).toNat = 60 * hh + mm := by omega
        rw [hvalue]
        exact ⟨.time hText mText hh mm hs hfirst hhours hminutes (by omega), by omega⟩

variable {Zone Instant : Type} {k : Clocks Zone Instant}

def Clause.span (c : Clause Zone) : Span := ⟨(c.days · = true), c.start, c.stop⟩

/-- A clause keeps its times within a day, and they differ. -/
structure Clause.Bounded (c : Clause Zone) : Prop where
  start_le : c.start ≤ 1440
  stop_le : c.stop ≤ 1440
  differ : c.start ≠ c.stop

theorem Clause.contains_iff {c : Clause Zone} (hc : c.Bounded) (t : Instant) :
    c.contains k t = true ↔ c.span.Has (k.clock c.loc t) := by
  unfold Clause.contains
  dsimp only
  rcases lt_or_ge c.start c.stop with hlt | hge
  · rw [if_pos hlt, Span.has_iff_of_lt hlt hc.stop_le]
    simp [Clause.span, and_assoc]
  · rw [if_neg (not_lt.mpr hge), Span.has_iff_of_ge hge hc.start_le]
    simp [Clause.span]

theorem clauseOf_ok {dayField timeField : List Char} {zoneField : Option (List Char)}
    {c : Clause Zone} (h : clauseOf k dayField timeField zoneField = .ok c) {text : List Char}
    (hfields : fields text = dayField :: timeField :: zoneField.toList) :
    ClauseSays k text c.span c.loc ∧ c.Bounded := by
  unfold clauseOf at h
  obtain ⟨days, hdays, h⟩ := exists_of_bind_ok h
  cases hcut : cut '-' timeField with
  | none =>
    rw [hcut] at h
    cases h
  | some parts =>
    obtain ⟨front, back⟩ := parts
    obtain ⟨htimes, hfront⟩ := cut_eq_some_iff.mp hcut
    rw [hcut] at h
    obtain ⟨start, hstart, h⟩ := exists_of_bind_ok h
    obtain ⟨stop, hstop, h⟩ := exists_of_bind_ok h
    obtain ⟨hsaysStart, hstartLe⟩ := parseHM_ok hstart
    obtain ⟨hsaysStop, hstopLe⟩ := parseHM_ok hstop
    split_ifs at h with hdiffer
    -- the zone is the only thing left to read
    obtain ⟨loc, hloc, rfl⟩ : ∃ loc, (zoneField = none ∧ loc = k.utc ∨
        ∃ name, zoneField = some name ∧ k.loadLocation name = some loc) ∧
        c = ⟨days, start, stop, loc⟩ := by
      cases zoneField with
      | none => exact ⟨k.utc, .inl ⟨rfl, rfl⟩, (Except.ok.inj h).symm⟩
      | some zone =>
        cases hzone : k.loadLocation zone with
        | none =>
          simp only [hzone] at h
          cases h
        | some loc =>
          simp only [hzone] at h
          exact ⟨loc, .inr ⟨zone, rfl, hzone⟩, (Except.ok.inj h).symm⟩
    have hlisted : ∀ d, days d = true ↔
        ∃ item ∈ (dayField.map k.lower).splitOn ',', ListsDay item d := by
      intro d
      simpa using listDays_ok hdays d
    exact ⟨⟨dayField, timeField, zoneField, front, back, hfields, hlisted, htimes, hfront,
      hsaysStart, hsaysStop, hloc⟩, hstartLe, hstopLe, hdiffer⟩

theorem parseClause_ok {text : List Char} {c : Clause Zone} (h : parseClause k text = .ok c) :
    ClauseSays k text c.span c.loc ∧ c.Bounded := by
  unfold parseClause at h
  split at h
  · rename_i hfields
    exact clauseOf_ok h hfields
  · rename_i hfields
    exact clauseOf_ok h hfields
  · cases h

end Clause

/-- A window that is accepted means what it says. Its clauses are the parts of
the text, each with the days, the interval and the zone that its words give,
and it contains an instant exactly when it has no clause or one of the
intervals has the minute that a clock in the clause's zone shows. -/
theorem parse_means_what_it_says {Zone Instant : Type} (k : Clocks Zone Instant) (text : String)
    (w : Window Zone) (h : parse k text = .ok w) :
    ∃ meanings : List (Span × Zone),
      List.Forall₂ (fun part m => ClauseSays k part m.1 m.2) (clauseTexts text) meanings ∧
      ∀ t : Instant, w.contains k t = true ↔
        clauseTexts text = [] ∨ ∃ m ∈ meanings, m.1.Has (k.clock m.2 t) := by
  obtain ⟨clauses, hclauses, hw⟩ := exists_of_bind_ok h
  obtain rfl := Except.ok.inj hw
  have hparts := (forall₂_of_mapM_ok hclauses).imp (fun _ _ hc => parseClause_ok hc)
  refine ⟨clauses.map (fun c => (c.span, c.loc)), ?_, ?_⟩
  · exact List.forall₂_map_right_iff.mpr (hparts.imp (fun _ _ hc => hc.1))
  · intro t
    have hbounded : ∀ c ∈ clauses, c.Bounded := by
      intro c hc
      obtain ⟨part, -, hpart⟩ := mem_mapM_ok hclauses hc
      exact (parseClause_ok hpart).2
    have hempty : clauses = [] ↔ clauseTexts text = [] := by
      rw [← List.length_eq_zero_iff, ← List.length_eq_zero_iff, hparts.length_eq]
    simp only [Window.contains, Bool.or_eq_true, List.isEmpty_iff, List.any_eq_true, hempty,
      List.mem_map]
    refine or_congr Iff.rfl ⟨?_, ?_⟩
    · rintro ⟨c, hc, hin⟩
      exact ⟨(c.span, c.loc), ⟨c, hc, rfl⟩, (Clause.contains_iff (hbounded c hc) t).mp hin⟩
    · rintro ⟨m, ⟨c, hc, rfl⟩, hin⟩
      exact ⟨c, hc, (Clause.contains_iff (hbounded c hc) t).mpr hin⟩

/-- UTC only, and instants that are given as the clock shows them. -/
def plainClocks : Clocks Unit LocalMinute where
  lower := Char.toLower
  utc := ()
  loadLocation _ := none
  clock _ t := t

/-- A night over the end of the week: Saturday 23:00 to Sunday 05:00. -/
theorem parse_saturday_night :
    ∃ w, parse plainClocks "Fri-Sat 23:00-05:00" = .ok w ∧
      w.contains plainClocks ⟨.sunday, 299, by decide⟩ = true ∧
      w.contains plainClocks ⟨.sunday, 300, by decide⟩ = false ∧
      ∃ meanings : List (Span × Unit), ∀ t : LocalMinute,
        w.contains plainClocks t = true ↔ clauseTexts "Fri-Sat 23:00-05:00" = [] ∨
          ∃ m ∈ meanings, m.1.Has t := by
  have hrun : (parse plainClocks "Fri-Sat 23:00-05:00").toOption.map (fun w =>
      (w.contains plainClocks ⟨.sunday, 299, by decide⟩,
        w.contains plainClocks ⟨.sunday, 300, by decide⟩)) = some (true, false) := by
    decide +kernel
  cases hparse : parse plainClocks "Fri-Sat 23:00-05:00" with
  | error err =>
    rw [hparse] at hrun
    cases hrun
  | ok w =>
    rw [hparse] at hrun
    obtain ⟨hin, hout⟩ := Prod.mk.inj (Option.some.inj hrun)
    obtain ⟨meanings, -, hcontains⟩ := parse_means_what_it_says plainClocks _ _ hparse
    exact ⟨w, rfl, hin, hout, meanings, hcontains⟩

end SuperSbc.TimeWindow

import Mathlib.Data.List.Basic
import Mathlib.Logic.Function.Basic
import Mathlib.Tactic

/-!
A store that others read while it changes. Each commit makes a new version;
what a version was does not change. A reader that needs several reads takes
each of them from the version that is current then, and the versions it read
say how old its result can be.
-/

namespace SuperSbc.Interleaving

variable {Db α : Type}

/-- All versions of a store, with the number of the current one. -/
structure History (Db : Type) where
  at_ : ℕ → Db
  version : ℕ

def History.start (db : Db) : History Db := ⟨fun _ => db, 0⟩

def History.now (h : History Db) : Db := h.at_ h.version

def History.commit (h : History Db) (db : Db) : History Db :=
  ⟨Function.update h.at_ (h.version + 1) db, h.version + 1⟩

@[simp] theorem History.commit_version (h : History Db) (db : Db) :
    (h.commit db).version = h.version + 1 := rfl

theorem History.commit_at (h : History Db) (db : Db) {v : ℕ} (hv : v ≤ h.version) :
    (h.commit db).at_ v = h.at_ v :=
  Function.update_of_ne (by omega) _ _

/-- A computation that reads the store some number of times. -/
inductive Reading (Db α : Type) where
  | done (result : α)
  | read (next : Db → Reading Db α)

/-- What is left after reading some states of the store. -/
def Reading.feed : List Db → Reading Db α → Option (Reading Db α)
  | [], r => some r
  | _ :: _, .done _ => none
  | db :: rest, .read next => feed rest (next db)

theorem Reading.feed_append (r : Reading Db α) (before after : List Db) :
    r.feed (before ++ after) = (r.feed before).bind (·.feed after) := by
  induction before generalizing r with
  | nil => rfl
  | cons db before ih =>
    cases r with
    | done a => rfl
    | read next => exact ih (next db)

/-- Every read is of a version from `floor` on. -/
def Since (floor : ℕ) (reads : List ℕ) : Prop := ∀ v ∈ reads, floor ≤ v

instance Since.decidable (floor : ℕ) (reads : List ℕ) : Decidable (Since floor reads) :=
  inferInstanceAs (Decidable (∀ v ∈ reads, floor ≤ v))

theorem since_nil (floor : ℕ) : Since floor [] := fun _ hv => absurd hv List.not_mem_nil

theorem Since.mono {low high : ℕ} {reads : List ℕ} (h : Since high reads) (hle : low ≤ high) :
    Since low reads :=
  fun v hv => hle.trans (h v hv)

theorem Since.snoc {floor v : ℕ} {reads : List ℕ} (h : Since floor reads) (hv : floor ≤ v) :
    Since floor (reads ++ [v]) := by
  intro w hw
  rcases List.mem_append.mp hw with hold | hnew
  · exact h w hold
  · rwa [List.mem_singleton.mp hnew]

/-- What a computation has come to after the reads of some versions. -/
structure Reached (h : History Db) (start : Reading Db α) (reads : List ℕ)
    (rest : Reading Db α) : Prop where
  fed : start.feed (reads.map h.at_) = some rest
  past : ∀ v ∈ reads, v ≤ h.version

variable {h : History Db} {start rest : Reading Db α} {reads : List ℕ}

theorem reached_nil : Reached h start [] start := ⟨rfl, fun _ hv => by cases hv⟩

theorem Reached.read {next : Db → Reading Db α} (hr : Reached h start reads (.read next)) :
    Reached h start (reads ++ [h.version]) (next h.now) := by
  refine ⟨?_, ?_⟩
  · rw [List.map_append, Reading.feed_append, hr.fed]
    rfl
  · intro v hv
    rcases List.mem_append.mp hv with hold | hnew
    · exact hr.past v hold
    · exact (List.mem_singleton.mp hnew).le

theorem Reached.commit (hr : Reached h start reads rest) (db : Db) :
    Reached (h.commit db) start reads rest := by
  refine ⟨?_, fun v hv => (hr.past v hv).trans (Nat.le_succ _)⟩
  rw [← hr.fed]
  exact congrArg (start.feed ·) (List.map_congr_left (fun v hv => h.commit_at db (hr.past v hv)))

end SuperSbc.Interleaving

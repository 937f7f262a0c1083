import Mathlib.Data.List.Infix
import Mathlib.Tactic

/-!
Longest-prefix matching. A table gives values to some words; the answer for a
text is the value of its longest prefix that has one, with the length of that
prefix. There is one answer, so two procedures that find it agree.
-/

namespace SuperSbc.Prefix

variable {α β : Type} {table : List α → Option β}

/-- The answer a table has for a text. -/
def Longest (table : List α → Option β) (text : List α) : Option (β × ℕ) → Prop
  | none => ∀ k ≤ text.length, table (text.take k) = none
  | some (value, k) => k ≤ text.length ∧ table (text.take k) = some value ∧
      ∀ j ≤ text.length, k < j → table (text.take j) = none

theorem Longest.unique {text : List α} {r s : Option (β × ℕ)} (hr : Longest table text r)
    (hs : Longest table text s) : r = s := by
  match r, s, hr, hs with
  | none, none, _, _ => rfl
  | none, some (v, k), hr, ⟨hk, hv, _⟩ =>
    rw [hr k hk] at hv
    cases hv
  | some (v, k), none, ⟨hk, hv, _⟩, hs =>
    rw [hs k hk] at hv
    cases hv
  | some (v, k), some (w, j), hr, hs =>
    obtain ⟨hk, hv, hafter⟩ := hr
    obtain ⟨hj, hw, hbeyond⟩ := hs
    rcases lt_trichotomy k j with hlt | rfl | hlt
    · rw [hafter j hj hlt] at hw
      cases hw
    · rw [hv] at hw
      rw [Option.some.inj hw]
    · rw [hbeyond k hk hlt] at hv
      cases hv

theorem longest_nil : Longest table [] ((table []).map (·, 0)) := by
  cases hvalue : table [] with
  | none | some value => simpa [Longest] using hvalue

/-- Nothing longer has a value: the answer stays. -/
theorem Longest.extend {text more : List α} {r : Option (β × ℕ)} (h : Longest table text r)
    (hmore : ∀ front, front ≠ [] → front <+: more → table (text ++ front) = none) :
    Longest table (text ++ more) r := by
  have hlonger : ∀ j ≤ (text ++ more).length, text.length < j →
      table ((text ++ more).take j) = none := by
    intro j hj hlt
    rw [List.take_append, List.take_of_length_le hlt.le]
    refine hmore _ ?_ (List.take_prefix _ _)
    rw [List.length_append] at hj
    simp only [ne_eq, List.take_eq_nil_iff, not_or]
    exact ⟨by omega, fun hnil => by simp [hnil] at hj; omega⟩
  have hshorter : ∀ j ≤ text.length, (text ++ more).take j = text.take j :=
    fun j hj => List.take_append_of_le_length hj
  match r, h with
  | none, h =>
    intro k hk
    rcases Nat.lt_or_ge text.length k with hlt | hle
    · exact hlonger k hk hlt
    · rw [hshorter k hle]
      exact h k hle
  | some (v, k), ⟨hk, hv, hafter⟩ =>
    refine ⟨hk.trans (by simp), by rw [hshorter k hk]; exact hv, ?_⟩
    intro j hj hkj
    rcases Nat.lt_or_ge text.length j with hlt | hle
    · exact hlonger j hj hlt
    · rw [hshorter j hle]
      exact hafter j hle hkj

theorem longest_whole {text : List α} {value : β} (h : table text = some value) :
    Longest table text (some (value, text.length)) :=
  ⟨le_rfl, by rwa [List.take_length], fun _ hj hlt => absurd hlt (by omega)⟩

end SuperSbc.Prefix

import Mathlib.Algebra.BigOperators.Fin
import Mathlib.Algebra.BigOperators.Group.Finset.Basic
import Mathlib.Algebra.Order.BigOperators.Group.Finset
import Mathlib.Tactic.NormNum
import Mathlib.Tactic.Ring

/-!
Systems that take one step at a time. A step is a function of its label, so a
schedule is a list of labels and can be executed; to speak about every
interleaving is to speak about every list. Conditions on a run are conditions
on each label and the state it is taken in.

The second part counts participants by what they are doing.
-/

namespace SuperSbc.Interleaving

section Trace

variable {State Label : Type} (step : Label → State → Option State)

variable {s final : State} {labels : List Label}

/-- Executing steps in order; `none` when one of them is not enabled. -/
def trace : List Label → State → Option State
  | [], s => some s
  | l :: rest, s => (step l s).bind (trace rest)

/-- Every step is taken in a state that meets a condition. -/
def Along (ok : Label → State → Prop) : List Label → State → Prop
  | [], _ => True
  | l :: rest, s => ok l s ∧ ∀ s' ∈ step l s, Along ok rest s'

instance Along.decidable (ok : Label → State → Prop) [∀ l s, Decidable (ok l s)] :
    ∀ labels s, Decidable (Along step ok labels s)
  | [], _ => inferInstanceAs (Decidable True)
  | l :: rest, s =>
    letI := fun s' => Along.decidable ok rest s'
    inferInstanceAs (Decidable (ok l s ∧ ∀ s' ∈ step l s, Along step ok rest s'))

variable {step}

theorem trace_cons_some {l : Label} {rest : List Label} {s final : State}
    (h : trace step (l :: rest) s = some final) :
    ∃ s', step l s = some s' ∧ trace step rest s' = some final :=
  Option.bind_eq_some_iff.mp h

theorem along_of_forall {ok : Label → Prop} (h : ∀ l ∈ labels, ok l) (s : State) :
    Along step (fun l _ => ok l) labels s := by
  induction labels generalizing s with
  | nil => trivial
  | cons l rest ih =>
    exact ⟨h l List.mem_cons_self,
      fun s' _ => ih (fun l hl => h l (List.mem_cons_of_mem _ hl)) s'⟩

/-- Conditions that say the same of every step say the same of every run. -/
theorem along_congr {ok ok' : Label → State → Prop} (hiff : ∀ l s, ok l s ↔ ok' l s)
    (labels : List Label) (s : State) : Along step ok labels s ↔ Along step ok' labels s := by
  induction labels generalizing s with
  | nil => exact Iff.rfl
  | cons l rest ih => exact and_congr (hiff l s) (forall₂_congr (fun s' _ => ih s'))

/-- The invariant rule: what one step keeps in a state that meets the
condition, a whole run keeps. -/
theorem invariant_of_along {ok : Label → State → Prop} {Inv : State → Prop}
    (hstep : ∀ l s s', Inv s → ok l s → step l s = some s' → Inv s') (hinv : Inv s)
    (hok : Along step ok labels s) (hrun : trace step labels s = some final) : Inv final := by
  induction labels generalizing s with
  | nil => exact Option.some.inj hrun ▸ hinv
  | cons l rest ih =>
    obtain ⟨s', hnext, hrest⟩ := trace_cons_some hrun
    exact ih (hstep l s s' hinv hok.1 hnext) (hok.2 s' hnext) hrest

/-- The rule for runs without conditions. -/
theorem invariant_of_trace {Inv : State → Prop}
    (hstep : ∀ l s s', Inv s → step l s = some s' → Inv s') (hinv : Inv s)
    (hrun : trace step labels s = some final) : Inv final := by
  induction labels generalizing s with
  | nil => exact Option.some.inj hrun ▸ hinv
  | cons l rest ih =>
    obtain ⟨s', hnext, hrest⟩ := trace_cons_some hrun
    exact ih (hstep l s s' hinv hnext) hrest

end Trace

section Phases

/-- States in which every participant is in a phase of its own. -/
class Phased (σ : Type) (ι α : outParam Type) where
  phase : σ → ι → α
  withPhases : σ → (ι → α) → σ
  phase_withPhases : ∀ s phases, phase (withPhases s phases) = phases

variable {σ ι α : Type} [Phased σ ι α] [DecidableEq ι]

/-- One participant enters another phase. -/
def enter (s : σ) (i : ι) (a : α) : σ :=
  Phased.withPhases s (Function.update (Phased.phase s) i a)

/-- What holds of the phase that is entered and of the others' phases. -/
theorem forall_enter (s : σ) {i : ι} {a : α} {P : ι → α → Prop} (ha : P i a)
    (h : ∀ j, j ≠ i → P j (Phased.phase s j)) (j : ι) : P j (Phased.phase (enter s i a) j) := by
  rw [enter, Phased.phase_withPhases]
  exact (Function.forall_update_iff (Phased.phase s) P).mpr ⟨ha, h⟩ j

end Phases

section Population

variable {ι α : Type} [Fintype ι]

/-- How many participants are in a phase that counts. -/
def population (counts : α → Bool) (phase : ι → α) : ℤ :=
  ∑ i, if counts (phase i) then 1 else 0

theorem one_le_population {counts : α → Bool} {phase : ι → α} {i : ι}
    (h : counts (phase i) = true) :
    1 ≤ population counts phase := by
  have hsingle : (if counts (phase i) then (1 : ℤ) else 0) ≤ population counts phase :=
    Finset.single_le_sum (f := fun i => if counts (phase i) then (1 : ℤ) else 0)
      (fun j _ => by split_ifs <;> norm_num) (Finset.mem_univ i)
  rwa [if_pos h] at hsingle

theorem population_update [DecidableEq ι] (counts : α → Bool) (phase : ι → α) (i : ι) (a : α) :
    population counts (Function.update phase i a) =
      population counts phase - (if counts (phase i) then 1 else 0) +
        if counts a then 1 else 0 := by
  unfold population
  have hcomp : (fun j => if counts (Function.update phase i a j) then (1 : ℤ) else 0) =
      Function.update (fun j => if counts (phase j) then (1 : ℤ) else 0) i
        (if counts a then 1 else 0) := by
    funext j
    by_cases hj : j = i
    · subst hj
      simp
    · simp [hj]
  rw [hcomp, Finset.sum_update_of_mem (Finset.mem_univ i),
    ← Finset.add_sum_erase Finset.univ _ (Finset.mem_univ i), ← Finset.sdiff_singleton_eq_erase]
  ring

theorem population_le {fewer more : α → Bool} (phase : ι → α)
    (h : ∀ a, fewer a = true → more a = true) : population fewer phase ≤ population more phase := by
  refine Finset.sum_le_sum (fun i _ => ?_)
  by_cases hfewer : fewer (phase i) = true
  · rw [if_pos hfewer, if_pos (h _ hfewer)]
  · rw [if_neg hfewer]
    split_ifs <;> norm_num

end Population

end SuperSbc.Interleaving

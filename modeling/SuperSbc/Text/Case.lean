import Mathlib.Tactic

/-!
Comparing texts without regard to case: folding to upper case and folding to
lower case tell the same texts apart. Only the letters of ASCII have a case
here.
-/

namespace SuperSbc.Text

/-- `strings.EqualFold` on texts of ASCII, where all tables of characters agree. -/
def equalFoldAscii (s t : String) : Bool := s.toUpper == t.toUpper

theorem toNat_toUpper (c : Char) :
    c.toUpper.toNat = if 97 ≤ c.toNat ∧ c.toNat ≤ 122 then c.toNat - 32 else c.toNat := by
  have hrange : ('a'.val ≤ c.val ∧ c.val ≤ 'z'.val) ↔ (97 ≤ c.toNat ∧ c.toNat ≤ 122) :=
    and_congr UInt32.le_iff_toNat_le UInt32.le_iff_toNat_le
  unfold Char.toUpper
  split
  · rename_i hletter
    have hnat : 97 ≤ c.val.toNat ∧ c.val.toNat ≤ 122 := hrange.mp hletter
    have hshift : ('A'.val - 'a'.val).toNat = 2 ^ 32 - 32 := rfl
    rw [if_pos (hrange.mp hletter)]
    change (c.val + ('A'.val - 'a'.val)).toNat = c.val.toNat - 32
    rw [UInt32.toNat_add, hshift]
    omega
  · rename_i hother
    rw [if_neg (fun hnat => hother (hrange.mpr hnat))]

theorem toNat_toLower (c : Char) :
    c.toLower.toNat = if 65 ≤ c.toNat ∧ c.toNat ≤ 90 then c.toNat + 32 else c.toNat := by
  have hrange : ('A'.val ≤ c.val ∧ c.val ≤ 'Z'.val) ↔ (65 ≤ c.toNat ∧ c.toNat ≤ 90) :=
    and_congr UInt32.le_iff_toNat_le UInt32.le_iff_toNat_le
  unfold Char.toLower
  split
  · rename_i hletter
    have hnat : 65 ≤ c.val.toNat ∧ c.val.toNat ≤ 90 := hrange.mp hletter
    have hshift : ('a'.val - 'A'.val).toNat = 32 := rfl
    rw [if_pos (hrange.mp hletter)]
    change (c.val + ('a'.val - 'A'.val)).toNat = c.val.toNat + 32
    rw [UInt32.toNat_add, hshift]
    omega
  · rename_i hother
    rw [if_neg (fun hnat => hother (hrange.mpr hnat))]

theorem toUpper_char_inj (c d : Char) : c.toUpper = d.toUpper ↔ c.toLower = d.toLower := by
  rw [← Char.toNat_inj, ← Char.toNat_inj, toNat_toUpper, toNat_toUpper, toNat_toLower,
    toNat_toLower]
  split_ifs <;> omega

end SuperSbc.Text

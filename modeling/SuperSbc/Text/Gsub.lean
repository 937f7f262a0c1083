import Mathlib.Tactic

/-!
`string.gsub` of Lua 5.2 on byte strings, for patterns of one byte that is not
magic and has no captures. A percent sign in a replacement string is special; an
error is `none`.
-/

namespace SuperSbc.Text

abbrev Bytes := List UInt8

/-- An ASCII text in UTF-8. -/
def asciiBytes (s : String) : Bytes := s.toList.map (fun c => UInt8.ofNat c.toNat)

def percent : UInt8 := 37

/-- What a replacement string stands for, with the whole match: `%%` is a percent
sign, `%0` and the first capture are the match, and there is no other capture. -/
def replacementString (whole : Bytes) : Bytes → Option Bytes
  | [] => some []
  | c :: rest =>
    if c = percent then
      match rest with
      | [] => none
      | d :: rest =>
        if d = percent then (replacementString whole rest).map (percent :: ·)
        else if d = 48 ∨ d = 49 then (replacementString whole rest).map (whole ++ ·)
        else none
    else (replacementString whole rest).map (c :: ·)

/-- Every percent sign begins a pair that stands for something. -/
def percentsPaired : Bytes → Bool
  | [] => true
  | c :: rest =>
    if c = percent then
      match rest with
      | [] => false
      | d :: rest => (d = percent || d = 48 || d = 49) && percentsPaired rest
    else percentsPaired rest

/-- `s:gsub(c, new)` where `new` has no percent sign. -/
def gsubByte (c : UInt8) (new s : Bytes) : Bytes := s.flatMap (fun d => if d = c then new else [d])

/-- `s:gsub("^" .. c, new, 1)`. -/
def gsubFront (c : UInt8) (new : Bytes) : Bytes → Option Bytes
  | [] => some []
  | d :: rest => if d = c then (replacementString [c] new).map (· ++ rest) else some (d :: rest)

variable {whole front rest s : Bytes} {c d : UInt8}

theorem replacementString_cons (hc : c ≠ percent) :
    replacementString whole (c :: rest) = (replacementString whole rest).map (c :: ·) := by
  rw [replacementString.eq_def]
  dsimp only
  rw [if_neg hc]

theorem replacementString_percent :
    replacementString whole (percent :: percent :: rest) =
      (replacementString whole rest).map (percent :: ·) := by
  rw [replacementString, if_pos rfl, if_pos rfl]

theorem replacementString_match (hd : d = 48 ∨ d = 49) :
    replacementString whole (percent :: d :: rest) =
      (replacementString whole rest).map (whole ++ ·) := by
  have hne : d ≠ percent := by
    rcases hd with rfl | rfl <;> decide
  rw [replacementString, if_pos rfl, if_neg hne, if_pos hd]

theorem replacementString_error (hd : d ≠ percent) (hd' : ¬ (d = 48 ∨ d = 49)) :
    replacementString whole (percent :: d :: rest) = none := by
  rw [replacementString, if_pos rfl, if_neg hd, if_neg hd']

@[simp] theorem percentsPaired_pair :
    percentsPaired (percent :: d :: rest) =
      ((d = percent || d = 48 || d = 49) && percentsPaired rest) := by
  rw [percentsPaired, if_pos rfl]

theorem percentsPaired_cons (hc : c ≠ percent) :
    percentsPaired (c :: rest) = percentsPaired rest := by
  rw [percentsPaired.eq_def]
  dsimp only
  rw [if_neg hc]

theorem isSome_replacementString : (replacementString whole s).isSome = percentsPaired s := by
  fun_induction replacementString whole s with
  | case6 c rest hc ih => rw [percentsPaired_cons hc, Option.isSome_map, ih]
  | _ => simp_all [percentsPaired]

theorem replacementString_append (whole rest : Bytes) (hfront : percent ∉ front) :
    replacementString whole (front ++ rest) =
      (replacementString whole rest).map (front ++ ·) := by
  induction front with
  | nil => exact (congrFun Option.map_id _).symm
  | cons c front ih =>
    rw [List.mem_cons, not_or] at hfront
    rw [List.cons_append, replacementString_cons (Ne.symm hfront.1), ih hfront.2,
      Option.map_map]
    rfl

theorem replacementString_self (hs : percent ∉ s) : replacementString whole s = some s := by
  have happend := replacementString_append whole [] hs
  rw [List.append_nil] at happend
  rw [happend, replacementString, Option.map_some, List.append_nil]

end SuperSbc.Text

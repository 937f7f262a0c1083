import SuperSbc.Text.Reading

/-!
Texts in quotes, as Go's `%q` writes them, and what Go's tables of characters
say that depends on no locale: which characters are printed as they are, and
their lower case. Of both only what they say about ASCII is used, and that a
code point that is no character is not printed.
-/

namespace SuperSbc.Text

structure Unicode where
  isPrint : Char → Bool
  lower : Char → Char
  isPrint_ascii : ∀ c : Char, c.toNat < 128 → isPrint c = (32 ≤ c.toNat && c.toNat < 127)
  isPrint_nonchar : ∀ c : Char, c.toNat = 0xfffe ∨ c.toNat = 0xffff → isPrint c = false
  lower_ascii : ∀ c : Char, c.toNat < 128 → lower c = c.toLower

def isGraphic (c : Char) : Bool := 32 ≤ c.toNat && c.toNat < 127

theorem isGraphic_nonchar (c : Char) (h : c.toNat = 0xfffe ∨ c.toNat = 0xffff) :
    isGraphic c = false := by
  rcases h with h | h <;> simp [isGraphic, h]

/-- The tables of a Go that knows no character beyond ASCII. -/
def Unicode.ascii : Unicode where
  isPrint := isGraphic
  lower := Char.toLower
  isPrint_ascii _ _ := rfl
  isPrint_nonchar := isGraphic_nonchar
  lower_ascii _ _ := rfl

variable (u : Unicode)

/-- A character that is not printed as it is. -/
def escapeCode (n : ℕ) : List Char :=
  if n = 7 then ['a']
  else if n = 8 then ['b']
  else if n = 9 then ['t']
  else if n = 10 then ['n']
  else if n = 11 then ['v']
  else if n = 12 then ['f']
  else if n = 13 then ['r']
  else if n < 32 ∨ n = 127 then 'x' :: hexText 2 n
  else if n < 65536 then 'u' :: hexText 4 n
  else 'U' :: hexText 8 n

def escape (c : Char) : List Char :=
  if c = '"' ∨ c = '\\' then ['\\', c]
  else if u.isPrint c then [c]
  else '\\' :: escapeCode c.toNat

/-- `strconv.Quote`. -/
def quote (s : List Char) : List Char := '"' :: (s.flatMap (escape u) ++ ['"'])

example : quote .ascii "a\"\n".toList = "\"a\\\"\\n\"".toList := by decide

end SuperSbc.Text

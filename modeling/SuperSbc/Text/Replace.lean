import Mathlib.Tactic

/-!
Texts with parts replaced, as Go's `strings` package replaces them.
-/

namespace SuperSbc.Text

/-- `strings.ReplaceAll` of one character. -/
def replaceChar (old : Char) (new : List Char) (s : List Char) : List Char :=
  s.flatMap (fun c => if c = old then new else [c])

/-- What a replacer puts at the front of a text, with the length of what it
replaces: the first of its old texts that stands there. -/
def replacement (pairs : List (String × String)) (s : List Char) : Option (List Char × ℕ) :=
  (pairs.find? (fun p => p.1.toList.isPrefixOf s)).map (fun p => (p.2.toList, p.1.toList.length))

/-- `strings.NewReplacer(pairs).Replace`, after a number of characters that are
already replaced. What was put in is not looked at again. -/
def replaceFrom (pairs : List (String × String)) : ℕ → List Char → List Char
  | _, [] => []
  | skip + 1, _ :: rest => replaceFrom pairs skip rest
  | 0, c :: rest =>
    match replacement pairs (c :: rest) with
    | some (new, length) => new ++ replaceFrom pairs (length - 1) rest
    | none => c :: replaceFrom pairs 0 rest

def replaceAll (pairs : List (String × String)) (s : String) : String :=
  String.ofList (replaceFrom pairs 0 s.toList)

end SuperSbc.Text

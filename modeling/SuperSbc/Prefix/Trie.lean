import SuperSbc.Prefix.Longest

/-!
The digit trie of package `prefix`. A node has ten children and may carry a
value; a missing child is Go's nil pointer, written `nil` here. Texts are lists
of characters: a character that is no digit has no digit among its bytes, so
reading bytes or characters stops at the same place.

What a trie stores under each word (`Node.get`) is its meaning: `Insert`
changes it at one word, and `Match` finds the longest prefix in it.
-/

namespace SuperSbc.Prefix

variable {T : Type}

inductive Node (T : Type) where
  | nil
  | mk (children : Fin 10 → Node T) (value : Option T)

/-- `&node[T]{}`. -/
def Node.empty : Node T := .mk (fun _ => .nil) none

def Node.child : Node T → Fin 10 → Node T
  | .nil, _ => .nil
  | .mk children _, d => children d

@[simp] theorem Node.child_mk (children : Fin 10 → Node T) (value : Option T) :
    (Node.mk children value).child = children := rfl

def Node.value : Node T → Option T
  | .nil => none
  | .mk _ value => value

structure Trie (T : Type) where
  root : Node T
  size : ℕ

def Trie.new : Trie T := ⟨.empty, 0⟩

/-- `c - '0'` of a character from `'0'` to `'9'`. -/
def digit (c : Char) : Option (Fin 10) :=
  if '0' ≤ c ∧ c ≤ '9' then some (Fin.ofNat 10 (c.toNat - '0'.toNat)) else none

theorem digit_inj {a b : Char} {d : Fin 10} (ha : digit a = some d) (hb : digit b = some d) :
    a = b := by
  unfold digit at ha hb
  split_ifs at ha hb with hra hrb
  have hrange : ∀ c : Char, '0' ≤ c ∧ c ≤ '9' → 48 ≤ c.toNat ∧ c.toNat ≤ 57 := fun c hc => hc
  have heq := congrArg Fin.val ((Option.some.inj ha).trans (Option.some.inj hb).symm)
  simp only [Fin.val_ofNat] at heq
  have hza : '0'.toNat = 48 := rfl
  have hna := hrange a hra
  have hnb := hrange b hrb
  exact Char.toNat_inj.mp (by omega)

/-- What `Insert` found at the end of the prefix. -/
inductive Slot where
  | refused
  | free
  | taken
deriving DecidableEq

/-- The loop of `Insert` from a node on; a nil pointer on the way is replaced
by a new node first. A character that is no digit ends it, with the nodes made
so far in place. -/
def Node.insert (value : T) : List Char → Node T → Node T × Slot
  | [], n => (.mk n.child (some value), if n.value.isNone then .free else .taken)
  | c :: rest, n =>
    match digit c with
    | none => (.mk n.child n.value, .refused)
    | some d =>
      let below := insert value rest (n.child d)
      (.mk (Function.update n.child d below.1) n.value, below.2)

/-- `Insert`, with the trie it leaves. -/
def Trie.insert (t : Trie T) (front : String) (value : T) : Trie T × Bool :=
  match t.root.insert value front.toList with
  | (root, .refused) => (⟨root, t.size⟩, false)
  | (root, .free) => (⟨root, t.size + 1⟩, true)
  | (root, .taken) => (⟨root, t.size⟩, true)

/-- The loop of `Match`: a node, what is left of the number, how much of it is
read, and the best value so far with its length. -/
def Node.matchLoop : Node T → List Char → ℕ → Option (T × ℕ) → Option (T × ℕ)
  | _, [], _, best => best
  | n, c :: rest, i, best =>
    match digit c with
    | none => best
    | some d =>
      match n.child d with
      | .nil => best
      | .mk children none => matchLoop (.mk children none) rest (i + 1) best
      | .mk children (some v) =>
        matchLoop (.mk children (some v)) rest (i + 1) (some (v, i + 1))

/-- The value under the longest prefix of a number, and that prefix. -/
def Trie.match (t : Trie T) (number : String) : Option (T × String) :=
  match t.root with
  | .nil => none
  | .mk children value =>
    (Node.matchLoop (.mk children value) number.toList 0 (value.map (·, 0))).map
      (fun best => (best.1, String.ofList (number.toList.take best.2)))

/-- What is stored under a word. -/
def Node.get : Node T → List Char → Option T
  | n, [] => n.value
  | n, c :: rest => (digit c).bind (fun d => (n.child d).get rest)

@[simp] theorem Node.get_nil (word : List Char) : (Node.nil : Node T).get word = none := by
  induction word with
  | nil => rfl
  | cons c rest ih =>
    rw [Node.get]
    cases digit c with
    | none => rfl
    | some d => exact ih

theorem Node.get_empty (word : List Char) : (Node.empty : Node T).get word = none := by
  cases word with
  | nil => rfl
  | cons c rest =>
    rw [Node.get]
    cases digit c with
    | none => rfl
    | some d => exact Node.get_nil rest

/-- Inserting under a word of digits changes what is stored there and nowhere
else. -/
theorem Node.get_insert {front : List Char} (hdigits : ∀ c ∈ front, (digit c).isSome) (value : T)
    (n : Node T) (word : List Char) :
    (n.insert value front).1.get word = if word = front then some value else n.get word := by
  induction front generalizing n word with
  | nil =>
    cases word with
    | nil => rfl
    | cons c rest => rw [if_neg (List.cons_ne_nil c rest)]; rfl
  | cons c front ih =>
    obtain ⟨d, hd⟩ := Option.isSome_iff_exists.mp (hdigits c List.mem_cons_self)
    have ih := ih (fun e he => hdigits e (List.mem_cons_of_mem _ he))
    rw [Node.insert, hd]
    cases word with
    | nil => rw [if_neg (List.cons_ne_nil c front).symm]; rfl
    | cons e rest =>
      rw [Node.get, Node.get]
      cases he : digit e with
      | none =>
        have hne : e ≠ c := fun heq => by rw [heq, hd] at he; cases he
        rw [if_neg (fun heq => hne (List.cons.inj heq).1)]
        rfl
      | some d' =>
        simp only [Option.bind_some, Node.child_mk]
        by_cases hsame : d' = d
        · subst hsame
          obtain rfl := digit_inj he hd
          rw [Function.update_self, ih]
          simp
        · rw [Function.update_of_ne hsame, if_neg]
          intro heq
          rw [(List.cons.inj heq).1, hd] at he
          exact hsame (Option.some.inj he).symm

/-- The loop's invariant: what it has is the answer for what it has read, and
the node it is at stores what the trie stores beyond that. -/
theorem Node.matchLoop_longest {table : List Char → Option T} {seen : List Char} {n : Node T}
    {best : Option (T × ℕ)} (hnode : ∀ word, table (seen ++ word) = n.get word)
    (hbest : Longest table seen best) (rest : List Char) :
    Longest table (seen ++ rest) (n.matchLoop rest seen.length best) := by
  induction rest generalizing seen n best with
  | nil => rwa [List.append_nil, Node.matchLoop]
  | cons c rest ih =>
    -- where the loop ends early, nothing is stored beyond what is read
    have hend : (∀ word, n.get (c :: word) = none) → Longest table (seen ++ c :: rest) best := by
      intro hnone
      refine hbest.extend (fun front hne hfront => ?_)
      obtain ⟨e, more, rfl⟩ := List.exists_cons_of_ne_nil hne
      rw [hnode, (List.cons_prefix_cons.mp hfront).1]
      exact hnone more
    rw [Node.matchLoop]
    cases hd : digit c with
    | none => exact hend (fun word => by rw [Node.get, hd]; rfl)
    | some d =>
      have hget : ∀ word, n.get (c :: word) = (n.child d).get word :=
        fun word => by rw [Node.get, hd]; rfl
      have hnext : ∀ word, table (seen ++ [c] ++ word) = (n.child d).get word := by
        intro word
        rw [List.append_assoc, hnode]
        exact hget word
      have hlength : (seen ++ [c]).length = seen.length + 1 := by simp
      rw [show seen ++ c :: rest = seen ++ [c] ++ rest by simp] at hend ⊢
      cases hchild : n.child d with
      | nil =>
        simp only [hchild]
        refine hend (fun word => ?_)
        rw [hget, hchild, Node.get_nil]
      | mk children value =>
        simp only [hchild]
        rw [hchild] at hnext
        have hvalue : table (seen ++ [c]) = value := by
          simpa [Node.get, Node.value] using hnext []
        cases value with
        | none =>
          rw [← hlength]
          refine ih hnext (hbest.extend (fun front hne hfront => ?_))
          obtain ⟨e, more, rfl⟩ := List.exists_cons_of_ne_nil hne
          obtain ⟨rfl, hmore⟩ := List.cons_prefix_cons.mp hfront
          rw [List.prefix_nil.mp hmore]
          exact hvalue
        | some v =>
          rw [← hlength]
          exact ih hnext (longest_whole hvalue)

/-- `Match` finds the longest prefix of the number that the trie stores. -/
theorem Trie.match_longest (t : Trie T) (number : String) :
    ∃ best, Longest t.root.get number.toList best ∧
      t.match number = best.map (fun b => (b.1, String.ofList (number.toList.take b.2))) := by
  unfold Trie.match
  cases hroot : t.root with
  | nil => exact ⟨none, fun k _ => Node.get_nil _, rfl⟩
  | mk children value =>
    refine ⟨_, ?_, rfl⟩
    have hnil : Longest (Node.mk children value).get [] (value.map (·, 0)) := longest_nil
    exact Node.matchLoop_longest (fun _ => rfl) hnil number.toList

end SuperSbc.Prefix

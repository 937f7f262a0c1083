import SuperSbc.ReadCommitted.Deadlock

/-!
Transaction bodies that only read. What such a body can return is a relation
of its own, `Transaction.Yields`: every `SELECT` may have read any of the seen
stores. A fact about the results is proved once for the relation and then
holds wherever the body occurs, when it runs alone, among others, or under the
discipline of locking.
-/

namespace SuperSbc.ReadCommitted

variable {Key : Type} {Row : Key → Type} {Entry Err α β ρ : Type}

namespace Transaction

/-- Plain `SELECT`s and nothing else. -/
def ReadOnly : Transaction Key Row Entry Err α → Prop
  | .ret _ | .fail _ => True
  | .query next => ∀ d, (next d).ReadOnly
  | .lock _ _ | .insert _ _ _ | .update _ _ _ | .delete _ _ | .append _ _ => False

/-- What a body can return when its reads are of seen stores. -/
def Yields (seen : Database Key Row Entry → Prop) : Transaction Key Row Entry Err α → α → Prop
  | .ret value, result => result = value
  | .query next, result => ∃ d, seen d ∧ (next d).Yields seen result
  | .fail _, _ | .lock _ _, _ | .insert _ _ _, _ | .update _ _ _, _ | .delete _ _, _
  | .append _ _, _ => False

variable {seen : Database Key Row Entry → Prop}

theorem ReadOnly.pure (value : α) :
    (Pure.pure value : Transaction Key Row Entry Err α).ReadOnly := trivial

theorem ReadOnly.raise (error : Err) :
    (Transaction.raise error : Transaction Key Row Entry Err α).ReadOnly := trivial

theorem ReadOnly.select (f : Database Key Row Entry → α) :
    (Transaction.select f : Transaction Key Row Entry Err α).ReadOnly := fun _ => trivial

theorem ReadOnly.bind {code : Transaction Key Row Entry Err α}
    {f : α → Transaction Key Row Entry Err β} (hcode : code.ReadOnly)
    (hf : ∀ value, (f value).ReadOnly) : (code >>= f).ReadOnly := by
  change (code.bind f).ReadOnly
  induction code with
  | ret value => exact hf value
  | fail error => trivial
  | query next ih => exact fun d => ih d (hcode d)
  | lock | insert | update | delete | append => cases hcode

theorem yields_pure {value result : α} :
    (Pure.pure value : Transaction Key Row Entry Err α).Yields seen result ↔ result = value :=
  Iff.rfl

theorem yields_raise {error : Err} {result : α} :
    (Transaction.raise error : Transaction Key Row Entry Err α).Yields seen result ↔ False :=
  Iff.rfl

theorem yields_bind {code : Transaction Key Row Entry Err α}
    {f : α → Transaction Key Row Entry Err β} {result : β} (hcode : code.ReadOnly) :
    (code >>= f).Yields seen result ↔
      ∃ value, code.Yields seen value ∧ (f value).Yields seen result := by
  change (code.bind f).Yields seen result ↔ _
  induction code with
  | ret value => exact ⟨fun h => ⟨value, rfl, h⟩, fun ⟨_, rfl, h⟩ => h⟩
  | fail error => exact ⟨False.elim, fun ⟨_, h, _⟩ => h⟩
  | query next ih =>
    constructor
    · rintro ⟨d, hd, h⟩
      obtain ⟨value, hvalue, hresult⟩ := (ih d (hcode d)).mp h
      exact ⟨value, ⟨d, hd, hvalue⟩, hresult⟩
    · rintro ⟨value, ⟨d, hd, hvalue⟩, hresult⟩
      exact ⟨d, hd, (ih d (hcode d)).mpr ⟨value, hvalue, hresult⟩⟩
  | lock | insert | update | delete | append => cases hcode

theorem yields_select_bind {f : Database Key Row Entry → α}
    {g : α → Transaction Key Row Entry Err β} {result : β} :
    (Transaction.select f >>= g).Yields seen result ↔
      ∃ d, seen d ∧ (g (f d)).Yields seen result :=
  Iff.rfl

section Rules

variable {code : Transaction Key Row Entry Err α}

theorem climbs_of_readOnly [Preorder ρ] {rank : Key → ρ}
    {ok : (key : Key) → Option (Row key) → Prop} {held : Set Key} {post : α → Set Key → Prop}
    (hcode : code.ReadOnly)
    (hpost : ∀ result, code.Yields (fun d => ∀ key, ok key (d.row key)) result →
      post result held) : code.climbs rank ok held post := by
  induction code with
  | ret value => exact hpost value rfl
  | fail error => trivial
  | query next ih =>
    exact fun d hd => ih d (hcode d) (fun result hresult => hpost result ⟨d, hd, hresult⟩)
  | lock | insert | update | delete | append => cases hcode

variable [DecidableEq Key]

/-- Before anything is written, what is read is a row of a seen store. -/
theorem wp_of_readOnly {db : Database Key Row Entry} {p : Progress Key Row Entry}
    {post : α → Progress Key Row Entry → Prop} (hcode : code.ReadOnly) (heffects : p.effects = [])
    (hpost : ∀ result, code.Yields seen result → post result p) : code.wp seen db p post := by
  induction code with
  | ret value => exact hpost value rfl
  | fail error => trivial
  | query next ih =>
    intro d hd _
    rw [heffects, Database.apply_nil]
    exact ih d (hcode d) (fun result hresult => hpost result ⟨d, hd, hresult⟩)
  | lock | insert | update | delete | append => cases hcode

end Rules

end Transaction

end SuperSbc.ReadCommitted

import SuperSbc.CallControl.Headers
import SuperSbc.Model

/-!
The admin API over `header_rules`: a body is validated, a statement writes it,
and the table has the last word. What the rules do to a call is not looked at.
-/

namespace SuperSbc.Admin

open CallControl

structure HeaderRuleInput where
  direction : String
  action : String
  header : String
  value : String
  priority : ℤ
  enabled : Option Bool

/-- A row of `header_rules`. -/
structure HeaderRuleRow where
  id : UUID
  owner : Owner
  rule : HeaderRule

inductive RuleError where
  | validation (details : List (String × String))
  | notFound
  | conflict
  | internal
deriving DecidableEq

section Input

variable (x : HeaderRuleInput)

/-- The fields with their tags, in the order of the struct. -/
def HeaderRuleInput.tags : List (String × List (String × Bool)) :=
  [("direction", [("required", x.direction ≠ ""), ("oneof", x.direction ∈ ["egress", "response"])]),
    ("action", [("required", x.action ≠ ""),
      ("oneof", x.action ∈ ["add", "passthrough", "remove"])]),
    ("header", [("required", x.header ≠ ""), ("max", x.header.length ≤ 64)]),
    ("value", [("max", x.value.length ≤ 1000)])]

/-- The fields that fail, each with the first tag it fails. -/
def HeaderRuleInput.details : List (String × String) :=
  x.tags.filterMap (fun field => (field.2.find? (·.2 = false)).map (fun tag => (field.1, tag.1)))

def directionOf (s : String) : Option HeaderDirection :=
  if s = "egress" then some .egress else if s = "response" then some .response else none

def actionOf (s : String) : Option HeaderAction :=
  if s = "add" then some .add
  else if s = "passthrough" then some .passthrough
  else if s = "remove" then some .remove
  else none

/-- The parameters can be sent: no text has a zero in it, and a priority is an
`int4`. -/
def HeaderRuleInput.Sendable (priority : ℤ) : Prop :=
  '\x00' ∉ x.header.toList ∧ '\x00' ∉ x.value.toList ∧ -2 ^ 31 ≤ priority ∧ priority < 2 ^ 31

instance HeaderRuleInput.decidableSendable (priority : ℤ) : Decidable (x.Sendable priority) :=
  inferInstanceAs (Decidable (_ ∧ _))

/-- The columns as the checks of the table let them through. -/
def HeaderRuleInput.rule (priority : ℤ) : Option HeaderRule :=
  match directionOf x.direction, actionOf x.action with
  | some direction, some action =>
    if h : HeaderOK x.header then
      some
        { direction := direction
          action := action
          header := x.header
          value := x.value
          priority := priority
          enabled := x.enabled.getD true
          header_ok := h }
    else none
  | _, _ => none

/-- A new rule has a priority other than zero. -/
def HeaderRuleInput.defaultedPriority : ℤ := if x.priority = 0 then 100 else x.priority

end Input

section Handlers

variable (table : List HeaderRuleRow)

/-- The id is drawn by the table. -/
def createHeaderRule (id : UUID) (owner : Owner) (x : HeaderRuleInput) :
    Except RuleError (List HeaderRuleRow) :=
  if x.details ≠ [] then .error (.validation x.details)
  else if ¬ x.Sendable x.defaultedPriority then .error .internal
  else
    match x.rule x.defaultedPriority with
    | none => .error .internal
    | some rule =>
      if id ∈ table.map (·.id) then .error .conflict
      else .ok (table ++ [⟨id, owner, rule⟩])

/-- A check fails only where there is a row to write. -/
def updateHeaderRule (id : UUID) (x : HeaderRuleInput) : Except RuleError (List HeaderRuleRow) :=
  if x.details ≠ [] then .error (.validation x.details)
  else if ¬ x.Sendable x.priority then .error .internal
  else if id ∉ table.map (·.id) then .error .notFound
  else
    match x.rule x.priority with
    | none => .error .internal
    | some rule =>
      .ok (table.map (fun row => if row.id = id then { row with rule := rule } else row))

def deleteHeaderRule (id : UUID) : Except RuleError (List HeaderRuleRow) :=
  if id ∉ table.map (·.id) then .error .notFound else .ok (table.filter (·.id ≠ id))

inductive RuleRequest where
  | create (id : UUID) (owner : Owner) (x : HeaderRuleInput)
  | update (id : UUID) (x : HeaderRuleInput)
  | delete (id : UUID)

def RuleRequest.serve : RuleRequest → Except RuleError (List HeaderRuleRow)
  | .create id owner x => createHeaderRule table id owner x
  | .update id x => updateHeaderRule table id x
  | .delete id => deleteHeaderRule table id

/-- The table after requests, some of which may have failed. -/
def serveAll (requests : List RuleRequest) : List HeaderRuleRow :=
  requests.foldl (fun table request => (request.serve table).toOption.getD table) table

/-- `Tables.HeaderRules` of an owner. -/
def headerRules (owner : Owner) : List HeaderRule :=
  (table.filter (fun row => row.rule.enabled ∧ row.owner = owner)).map (·.rule)

end Handlers

end SuperSbc.Admin

import SiteOperator.Json.Decode

/-!
# Conditions

A condition is one observation of a resource: its type, its status and why.  Sites and dependents
publish conditions of the same form.
-/

namespace SiteOperator

/-- One observation of a resource. -/
structure Condition where
  type : String
  status : String
  reason : Option String
  message : Option String
  lastTransitionTime : Option String
  deriving DecidableEq

namespace Condition

def decode : Decoder Condition := fun value => do
  let fields ← Decoder.record ["type", "status", "reason", "message", "lastTransitionTime"] value
  let type ← fields.required "type" Decoder.text
  let status ← fields.required "status" Decoder.text
  let reason ← fields.optional "reason" Decoder.text
  let message ← fields.optional "message" Decoder.text
  let lastTransitionTime ← fields.optional "lastTransitionTime" Decoder.text
  return ⟨type, status, reason, message, lastTransitionTime⟩

def encode (condition : Condition) : Json :=
  .ofFields
    ([("type", .string condition.type), ("status", .string condition.status)] ++
      Json.fieldIf "reason" (condition.reason.map .string) ++
      Json.fieldIf "message" (condition.message.map .string) ++
      Json.fieldIf "lastTransitionTime" (condition.lastTransitionTime.map .string))

/-- The type of the condition that says whether a resource is ready. -/
def ready : String := "Ready"

def holds : String := "True"

def fails : String := "False"

/-- Whether a condition says something else than an earlier one.  The time of the last transition
is not compared. -/
def differs (earlier later : Condition) : Bool :=
  earlier.status ≠ later.status || earlier.reason ≠ later.reason ||
    earlier.message ≠ later.message

end Condition

/-- The conditions of a resource, in the order of their first appearance. -/
abbrev Conditions := List Condition

namespace Conditions

def ofType? (conditions : Conditions) (type : String) : Option Condition :=
  conditions.find? fun c => c.type = type

/-- Puts a condition that has a time into the list and says whether the list changed.  The first
condition of its type is replaced only if the new one differs from it, so the time of the last
transition stays with the last real change; a new type goes to the end. -/
def place : Conditions → Condition → Conditions × Bool
  | [], condition => ([condition], true)
  | c :: rest, condition =>
      if c.type = condition.type then
        if c.differs condition then (condition :: rest, true) else (c :: rest, false)
      else
        let (rest, changed) := place rest condition
        (c :: rest, changed)

/-- Puts a condition into the list, with the given time if it has none. -/
def set (conditions : Conditions) (now : String) (condition : Condition) : Conditions × Bool :=
  conditions.place
    { condition with lastTransitionTime := some (condition.lastTransitionTime.getD now) }

/-- Whether two lists say the same: equally many conditions, and every condition of the second
list differs in nothing from the first one of its type in the first list. -/
def same (current new : Conditions) : Bool :=
  current.length = new.length &&
    new.all fun n => match current.ofType? n.type with
      | some c => !c.differs n
      | none => false

end Conditions

end SiteOperator

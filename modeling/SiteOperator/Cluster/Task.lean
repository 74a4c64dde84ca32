import SiteOperator.Cluster.Request
import SiteOperator.Dialogue
import SiteOperator.Fault
import SiteOperator.Json.Decode

/-!
# Tasks

A task is a program of the operator: it sends requests to the API, records measurements on the
way, and ends with a result or an error.  It says nothing about how the API answers.  An answer
that cannot be read and a request that cannot be sent fail like a request that the API refuses,
but without a code.
-/

namespace SiteOperator

/-- The status with which the API refuses a request. -/
structure ApiStatus where
  code : Nat
  reason : String
  deriving DecidableEq

/-- How the API answers a request: with a code and a body, which may fail to be JSON, or with a
status. -/
inductive Reply where
  | success (code : Nat) (body : Option Json)
  | failure (status : ApiStatus)
  deriving DecidableEq

def Reply.code : Reply → Nat
  | success code _ => code
  | failure status => status.code

/-- What a task records. -/
inductive Measurement where
  | applied (kind : String)
  | deleted (kind : String)
  | references (template : String) (sites : Nat)
  deriving DecidableEq

/-- What a task does in the world. -/
inductive Effect where
  | send (request : Request)
  | record (measurement : Measurement)
  deriving DecidableEq

def Effect.Answer : Effect → Type
  | send _ => Reply
  | record _ => Unit

/-- A program that sends requests and records measurements. -/
abbrev EffectProgram (α : Type) := Dialogue Effect Effect.Answer α

/-- A program that may fail. -/
abbrev Task (α : Type) := ExceptT Raised (EffectProgram) α

namespace Task

variable {α : Type}

def fail (fault : Fault) : Task α := throw (.ofFault fault)

def ofExcept : Except Fault α → Task α
  | .ok x => pure x
  | .error fault => fail fault

def within (context : String) (task : Task α) : Task α :=
  ExceptT.adapt (fun error => error.within context) task

def record (measurement : Measurement) : Task Unit :=
  ExceptT.lift (.ask (.record measurement) .done)

def send (request : Request) : Task Reply :=
  match request.wire? with
  | some _ => ExceptT.lift (.ask (.send request) .done)
  | none => fail (.api none)

def readBody (read : Decoder α) (body : Option Json) : Task α :=
  match body.bind read with
  | some x => pure x
  | none => fail (.api none)

def request (request : Request) (read : Decoder α) : Task α := do
  match ← send request with
  | .success _ body => readBody read body
  | .failure status => fail (.api (some status.code))

/-- Reads an object that may not exist.  It does not exist if the API says so by its reason,
whatever the code. -/
def find? (object : Locator) (read : Decoder α) : Task (Option α) := do
  match ← send (.get object) with
  | .success _ body => some <$> readBody read body
  | .failure status =>
      if status.reason = "NotFound" then pure none else fail (.api (some status.code))

/-- Reads the answer to a deletion: the object as it was, or a status. -/
def deleted {α : Type} (read : Decoder α) : Decoder Unit := fun body =>
  if body.field "kind" = .string "Status" then do
    let fields ← Decoder.object body
    let code := Decoder.integerBetween 0 65535
    let _ ← fields.defaulted "code" 0 code
    let _ ← fields.defaulted "message" "" Decoder.text
    let _ ← fields.defaulted "reason" "" Decoder.text
    let status ← fields.optional "status" Decoder.text
    let _ ← fields.optional "details" Decoder.object
    if [none, some "Success", some "Failure"].contains status then some () else none
  else (read body).map fun _ => ()

/-- Deletes an object and says whether it was still there. -/
def remove (object : Locator) (read : Decoder α) : Task Bool := do
  match ← send (.delete object) with
  | .success _ body =>
      readBody (deleted read) body
      pure true
  | .failure status => if status.code = 404 then pure false else fail (.api (some status.code))

end Task

end SiteOperator

import SiteOperator.Json.Basic

/-!
# Faults

A `Fault` is the cause that ends a reconcile.  Conflicts between specs, missing metadata and names
that are too long stay until the user mends the resource; all other faults may pass by themselves.
A `Raised` error may have gathered context on its way, which changes nothing about its cause; only
an error that is no fault of the operator becomes an operation failure with all of its text.
-/

namespace SiteOperator

/-- The causes that end a reconcile. -/
inductive Fault where
  | templateNotFound (name : String)
  | templateInUse (name : String) (count : Nat)
  /-- Template and site hold values of different types at one path of a spec. -/
  | typeMismatch (path : List String) (template override : JsonType)
  | render (field : String) (reason : String)
  | missingMetadata (kind field : String)
  | nameTooLong (namespaceName : String) (most : Nat)
  /-- A request to the API failed, with the code of its status if there is one. -/
  | api (code : Option Nat)
  | operation (text : String)
  deriving DecidableEq

namespace Fault

/-- Whether a later attempt may succeed without the user. -/
def transient : Fault → Bool
  | templateNotFound _ | templateInUse _ _ | api _ | operation _ => true
  | typeMismatch _ _ _ | render _ _ | missingMetadata _ _ | nameTooLong _ _ => false

def reason : Fault → String
  | templateNotFound _ => "TemplateNotFound"
  | templateInUse _ _ => "TemplateInUse"
  | typeMismatch _ _ _ => "SpecTypeMismatch"
  | render _ _ => "SpecRenderFailed"
  | missingMetadata _ _ => "MissingMetadata"
  | nameTooLong _ _ => "NameTooLong"
  | api _ => "KubeApiError"
  | operation _ => "OperationFailed"

/-- The wording of a fault.  What the API says about a failed request is not kept. -/
def message : Fault → String
  | templateNotFound name => "LMSMoodleTemplate '" ++ name ++ "' not found"
  | templateInUse name count =>
      "LMSMoodleTemplate '" ++ name ++ "' is in used by " ++ toString count ++ " lms moodle"
  | typeMismatch path template override =>
      "cannot merge '" ++ ".".intercalate path ++ "': template value is " ++ template.name ++
        ", override value is " ++ override.name
  | render field reason => "failed to render '" ++ field ++ "': " ++ reason
  | missingMetadata kind field => kind ++ " is missing metadata." ++ field
  | nameTooLong namespaceName most =>
      "namespace '" ++ namespaceName ++ "' derived from the site name exceeds " ++
        toString most ++ " characters"
  | api _ => "Kubernetes API error"
  | operation text => "LMS operation failed: " ++ text

end Fault

/-- Where an error comes from: a fault of the operator, or something foreign with a text. -/
inductive Cause where
  | fault (fault : Fault)
  | foreign (text : String)
  deriving DecidableEq

/-- An error on its way up, with the context it has gathered, the outermost first. -/
structure Raised where
  cause : Cause
  contexts : List String
  deriving DecidableEq

namespace Raised

def ofFault (fault : Fault) : Raised := ⟨.fault fault, []⟩

def within (error : Raised) (context : String) : Raised :=
  { error with contexts := context :: error.contexts }

def classify (error : Raised) : Fault :=
  match error.cause with
  | .fault fault => fault
  | .foreign text => .operation (": ".intercalate (error.contexts ++ [text]))

@[simp] theorem classify_ofFault (fault : Fault) : (ofFault fault).classify = fault := rfl

@[simp] theorem classify_within_fault (fault : Fault) (contexts : List String)
    (context : String) :
    (within ⟨.fault fault, contexts⟩ context).classify = fault := rfl

end Raised

end SiteOperator

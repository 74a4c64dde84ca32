import SiteOperator.Cluster.Locator
import SiteOperator.Json.Basic

/-!
# Requests

The requests that the operator sends, and how each is written on the wire.  A request whose target
is no valid target, or that names no object or too long a manager, is never sent.
-/

namespace SiteOperator

/-- A request about one object. -/
inductive Request where
  | get (object : Locator)
  | create (object : Locator) (body : Json)
  /-- Applies the object in the name of a manager, who takes over all fields of the body. -/
  | apply (object : Locator) (manager : String) (body : Json)
  | patch (object : Locator) (body : Json)
  | patchStatus (object : Locator) (body : Json)
  | delete (object : Locator)
  deriving DecidableEq

/-- The methods of requests. -/
inductive Verb where
  | get
  | post
  | patch
  | delete
  | list
  | watch
  deriving DecidableEq

namespace Verb

def name : Verb → String
  | get => "GET"
  | post => "POST"
  | patch => "PATCH"
  | delete => "DELETE"
  | list => "LIST"
  | watch => "WATCH"

def all : List Verb := [get, post, patch, delete, list, watch]

def ofName? (name : String) : Option Verb := all.find? fun verb => verb.name = name

end Verb

/-- How the body of a request is to be understood. -/
inductive BodyType where
  | json
  | mergePatch
  | applyPatch
  deriving DecidableEq

def BodyType.mediaType : BodyType → String
  | json => "application/json"
  | mergePatch => "application/merge-patch+json"
  | applyPatch => "application/apply-patch+yaml"

/-- A request as it is sent. -/
structure WireRequest where
  verb : Verb
  path : String
  query : Option String
  body : Option (BodyType × Json)
  deriving DecidableEq

namespace Target

/-- Whether a character that takes several bytes, or DEL, is part of the target. -/
def isBeyondAscii (n : Nat) : Bool := 0x7F ≤ n

def isPathChar (c : Char) : Bool :=
  let n := c.toNat
  n = 0x21 || n = 0x22 || (0x24 ≤ n && n ≤ 0x3B) || n = 0x3D || (0x40 ≤ n && n ≤ 0x5F) ||
    (0x61 ≤ n && n ≤ 0x7E) || isBeyondAscii n

def isQueryChar (c : Char) : Bool :=
  let n := c.toNat
  n = 0x21 || (0x24 ≤ n && n ≤ 0x3B) || n = 0x3D || (0x3F ≤ n && n ≤ 0x7E) || isBeyondAscii n

/-- The path and the query of a target.  A number sign cuts off the rest. -/
def split? (target : String) : Option (String × Option String) :=
  let cs := target.toList.takeWhile (· ≠ '#')
  let path := cs.takeWhile (· ≠ '?')
  let query := (cs.dropWhile (· ≠ '?')).drop 1
  if path.all isPathChar && query.all isQueryChar then
    some (String.ofList path, if query.isEmpty then none else some (String.ofList query))
  else none

def escapeDigits : List Char := "0123456789ABCDEF".toList

def formByte (b : UInt8) : List Char :=
  let c := Char.ofNat b.toNat
  if c.isAlphanum || ['*', '-', '.', '_'].contains c then [c]
  else if c = ' ' then ['+']
  else
    ['%', escapeDigits.getD (b.toNat / 16) '0', escapeDigits.getD (b.toNat % 16) '0']

def formValue (s : String) : String :=
  String.ofList (s.toUTF8.toList.flatMap formByte)

end Target

namespace Request

def object : Request → Locator
  | get object | create object _ | apply object _ _ | patch object _ | patchStatus object _
  | delete object => object

/-- Whether a request only reads an object. -/
def isRead : Request → Bool
  | get _ => true
  | _ => false

def managerMost : Nat := 128

/-- What a deletion asks for: no grace period, and that the objects owned by the object go later. -/
def deleteOptions : Json :=
  .ofFields [("gracePeriodSeconds", .int 0), ("propagationPolicy", .string "Background")]

def onWire? (verb : Verb) (target : String) (body : Option (BodyType × Json)) :
    Option WireRequest :=
  (Target.split? target).map fun (path, query) => ⟨verb, path, query, body⟩

/-- The request as it is sent; nothing if it cannot be sent. -/
def wire? (request : Request) : Option WireRequest :=
  let object := request.object
  match request with
  | create _ body => onWire? .post (object.collection ++ "?") (some (.json, body))
  | get _ => if object.name = "" then none else onWire? .get (object.path ++ "?") none
  | apply _ manager body =>
      if object.name = "" || managerMost < manager.utf8ByteSize then none
      else
        onWire? .patch
          (object.path ++ "?force=true&fieldManager=" ++ Target.formValue manager)
          (some (.applyPatch, body))
  | patch _ body =>
      if object.name = "" then none
      else onWire? .patch (object.path ++ "?") (some (.mergePatch, body))
  | patchStatus _ body =>
      if object.name = "" then none
      else onWire? .patch (object.path ++ "/status?") (some (.mergePatch, body))
  | delete _ =>
      if object.name = "" then none
      else onWire? .delete (object.path ++ "?") (some (.json, deleteOptions))

end Request

end SiteOperator

import SiteOperator.Dependent.Kind
import SiteOperator.Fault
import SiteOperator.Json.Decode
import SiteOperator.Yaml.Document

/-!
# Labels and affinity of a site

All objects of a site carry the same labels, and their pods are placed near one another.  Dependents
take both as YAML texts in fields of their specs.  A text that a user has put there is kept, and the
block of the operator stands in front of it.
-/

namespace SiteOperator

/-- The name of the operator: a label value and the manager of the fields it applies. -/
def operatorName : String := "lms-moodle-operator"

def siteNameLabel : String := "lms.krestomat.io/lms-name"

def operatorNameLabel : String := "lms.krestomat.io/meta-operator-name"

/-- The labels of a site: those of its template, and two that say which site it is and who manages
it.  These two always win. -/
def siteLabels (site : String) (templateLabels : Option (Entries String)) : Entries String :=
  ((templateLabels.getD []).put siteNameLabel site).put operatorNameLabel operatorName

/-- The preference to run every pod of a site on one host. -/
def siteAffinity (site : String) : Json :=
  let expression := Json.ofFields
    [("key", .string siteNameLabel), ("operator", .string "In"), ("values", .strings [site])]
  let term := Json.ofFields
    [("labelSelector", .ofFields [("matchExpressions", .array [expression])]),
      ("topologyKey", .string "kubernetes.io/hostname")]
  let weighted := Json.ofFields [("podAffinityTerm", term), ("weight", .int 100)]
  .ofFields
    [("podAffinity",
      .ofFields [("preferredDuringSchedulingIgnoredDuringExecution", .array [weighted])])]

/-- Joins two texts line by line, the first one on top; the line feed between them is there only if
both texts are. -/
def joinLines : Option String → Option String → Option String
  | some a, some b => some (a ++ "\n" ++ b)
  | some a, none => some a
  | none, some b => some b
  | none, none => none

/-- The text that a field holds.  The field may be absent or null, but nothing else than a text. -/
def heldText (field : String) : Option Json → Except Fault (Option String)
  | none | some .null => .ok none
  | some (.string s) => .ok (some s)
  | some other => .error (.render field ("expected a string, found " ++ other.type.name))

/-- Writes a block of text in front of what each of the fields holds, up to the first field that
refuses it.  The fields before that one keep their blocks. -/
def prependBlock (block : String) : List String → Fields → Fields × Option Fault
  | [], spec => (spec, none)
  | field :: rest, spec =>
      match heldText field (spec.at? field) with
      | .error fault => (spec, some fault)
      | .ok held => match joinLines (some block) held with
          | some text => prependBlock block rest (spec.put field (.string text))
          | none => prependBlock block rest spec

/-- The labels and the affinity that all objects of one site share. -/
structure Composition where
  labels : Entries String
  affinity : Json
  deriving DecidableEq

namespace Composition

def ofSite (site : String) (templateLabels : Option (Entries String)) : Composition :=
  ⟨siteLabels site templateLabels, siteAffinity site⟩

def labelBlock (composition : Composition) : String :=
  Yaml.document (.textMap composition.labels)

def affinityBlock (composition : Composition) : String := Yaml.document composition.affinity

def injectLabels (composition : Composition) (spec : Fields) : Fields × Option Fault :=
  prependBlock composition.labelBlock [DependentKind.commonLabels] spec

def injectAffinity (composition : Composition) (fields : List String) (spec : Fields) :
    Fields × Option Fault :=
  prependBlock composition.affinityBlock fields spec

/-- Writes the labels and the affinity into the spec of a kind. -/
def inject (composition : Composition) (kind : DependentKind) (spec : Fields) :
    Except Fault Fields :=
  match composition.injectLabels spec with
  | (_, some fault) => .error fault
  | (spec, none) => match composition.injectAffinity kind.affinityFields spec with
      | (_, some fault) => .error fault
      | (spec, none) => .ok spec

end Composition

/-- The block of the Moodle spec that asks for notifications of the site's state. -/
def notifyField : String := "routineStatusCrNotify"

/-- Names the site in the block that asks for notifications, if there is such a block and it names
none. -/
def withNotifyUuid (site : String) (spec : Fields) : Fields :=
  match spec.at? notifyField with
  | some (.object notify) =>
      if Entries.has notify "uuid" then spec
      else spec.put notifyField (.object (Entries.put notify "uuid" (.string site)))
  | _ => spec

end SiteOperator

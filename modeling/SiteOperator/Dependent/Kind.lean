/-!
# The kinds of dependents

A site owns up to four dependents, one of each kind.  The Moodle workload is always there; the three
supporting kinds are configured by a block in the template or in the site.  `PerKind` is a value for
each kind.
-/

namespace SiteOperator

/-- The kinds of dependents of a site. -/
inductive DependentKind where
  | moodle
  | postgres
  | keydb
  | nfs
  deriving DecidableEq

/-- A type of objects of the API: its group, version, kind and the plural that its paths use.  The
core group has no name. -/
structure ResourceType where
  group : String
  version : String
  kind : String
  plural : String
  deriving DecidableEq

def ResourceType.apiVersion (type : ResourceType) : String :=
  if type.group = "" then type.version else type.group ++ "/" ++ type.version

namespace DependentKind

def all : List DependentKind := [moodle, postgres, keydb, nfs]

/-- The kinds whose block is optional, in the order they are composed. -/
def supporting : List DependentKind := [postgres, keydb, nfs]

theorem mem_all (kind : DependentKind) : kind ∈ all := by
  cases kind <;> simp [all]

/-- The name of a kind, in states, conditions and metrics. -/
def name : DependentKind → String
  | moodle => "Moodle"
  | postgres => "Postgres"
  | keydb => "Keydb"
  | nfs => "Nfs"

def ofName? (name : String) : Option DependentKind :=
  all.find? fun kind => kind.name = name

/-- The objects by which a kind is represented in the cluster. -/
def resourceType : DependentKind → ResourceType
  | moodle => ⟨"m4e.krestomat.io", "v1alpha1", "Moodle", "moodles"⟩
  | postgres => ⟨"postgres.krestomat.io", "v1alpha1", "Postgres", "postgres"⟩
  | keydb => ⟨"keydb.krestomat.io", "v1alpha1", "Keydb", "keydbs"⟩
  | nfs => ⟨"nfs.krestomat.io", "v1alpha1", "Ganesha", "ganeshas"⟩

/-- The key of the kind's block in template and site specs. -/
def specKey : DependentKind → String
  | moodle => "moodleSpec"
  | postgres => "postgresSpec"
  | keydb => "keydbSpec"
  | nfs => "nfsSpec"

/-- The type of the site's condition that shows the kind's readiness. -/
def conditionType : DependentKind → String
  | moodle => "MoodleReady"
  | postgres => "PostgresReady"
  | keydb => "KeydbReady"
  | nfs => "NfsReady"

/-- The spec fields that receive the default affinity, in the order they are written. -/
def affinityFields : DependentKind → List String
  | moodle =>
      ["moodleCronjobAffinity", "moodleUpdateJobAffinity", "moodleNewInstanceJobAffinity",
        "phpFpmAffinity", "nginxAffinity"]
  | postgres => ["postgresAffinity"]
  | keydb => ["keydbAffinity"]
  | nfs => ["ganeshaAffinity"]

/-- The spec field that holds the labels of everything a dependent creates. -/
def commonLabels : String := "commonLabels"

/-- The spec fields whose texts are joined when template and site both set them. -/
def joinedFields : DependentKind → List String
  | moodle => ["nginxIngressAnnotations", commonLabels]
  | _ => [commonLabels]

/-- The field of the Moodle spec that names the dependent of a supporting kind. -/
def crossLinkField : DependentKind → Option String
  | moodle => none
  | postgres => some "moodlePostgresMetaName"
  | keydb => some "moodleKeydbMetaName"
  | nfs => some "moodleNfsMetaName"

end DependentKind

/-- A value for each kind. -/
structure PerKind (α : Type) where
  moodle : α
  postgres : α
  keydb : α
  nfs : α
  deriving DecidableEq

namespace PerKind

variable {α β : Type}

def get (values : PerKind α) : DependentKind → α
  | .moodle => values.moodle
  | .postgres => values.postgres
  | .keydb => values.keydb
  | .nfs => values.nfs

def set (values : PerKind α) (kind : DependentKind) (x : α) : PerKind α :=
  match kind with
  | .moodle => { values with moodle := x }
  | .postgres => { values with postgres := x }
  | .keydb => { values with keydb := x }
  | .nfs => { values with nfs := x }

def ofFn (f : DependentKind → α) : PerKind α :=
  ⟨f .moodle, f .postgres, f .keydb, f .nfs⟩

def const (x : α) : PerKind α := ofFn fun _ => x

/-- The values that are there, in the order of the kinds. -/
def present (values : PerKind (Option α)) : List α :=
  DependentKind.all.filterMap values.get

@[simp] theorem get_ofFn (f : DependentKind → α) (kind : DependentKind) :
    (ofFn f).get kind = f kind := by
  cases kind <;> rfl

theorem get_set (values : PerKind α) (kind other : DependentKind) (x : α) :
    (values.set kind x).get other = if other = kind then x else values.get other := by
  cases kind <;> cases other <;> rfl

end PerKind

end SiteOperator

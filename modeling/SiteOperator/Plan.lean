import SiteOperator.Layering
import SiteOperator.Names
import SiteOperator.Resource.Template

/-!
# Plans

A plan says everything that a reconcile of one site acts on: its names, labels and affinity, and the
effective spec of every dependent that is configured.  It is composed before anything is written, so
a conflict leaves the cluster as it is.
-/

namespace SiteOperator

/-- A dependent with its effective spec. -/
structure DependentSpec where
  kind : DependentKind
  name : String
  namespaceName : String
  spec : Fields
  deriving DecidableEq

/-- The field of every dependent's spec that asks it to suspend. -/
def lifecycleField : String := "cr_state"

def DependentSpec.suspended (dependent : DependentSpec) : DependentSpec :=
  { dependent with spec := dependent.spec.put lifecycleField (.string "suspended") }

/-- Everything that a reconcile of one site acts on. -/
structure Plan where
  names : SiteNames
  composition : Composition
  dependents : PerKind (Option DependentSpec)
  omitPolicies : Bool
  deriving DecidableEq

namespace Plan

def dependent? (plan : Plan) (kind : DependentKind) : Option DependentSpec :=
  plan.dependents.get kind

def has (plan : Plan) (kind : DependentKind) : Bool := (plan.dependent? kind).isSome

/-- The effective spec of a kind: the override laid over the template's block, with the labels and
the affinity of the site. -/
def effectiveSpec (kind : DependentKind) (composition : Composition) (template : Fields)
    (override : Option Fields) : Except Fault Fields := do
  let spec ← match override with
    | some override => layerSpec kind.specKey kind.joinedFields override template
    | none => .ok template
  composition.inject kind spec

/-- Whether the template or the site has a block for a kind. -/
def isConfigured (template overrides : SpecBlocks) (kind : DependentKind) : Bool :=
  (template.blocks.get kind).isSome || (overrides.blocks.get kind).isSome

/-- The template's Moodle block with the names of the supporting dependents, so that a site can
still override them. -/
def linkedMoodleBlock (baseName : String) (template overrides : SpecBlocks) : Fields :=
  (DependentKind.supporting.filter (isConfigured template overrides)).foldl
    (fun block kind => match kind.crossLinkField with
      | some field => block.put field (.string baseName)
      | none => block)
    ((template.blocks.get .moodle).getD [])

/-- The effective spec of a supporting kind, if it is configured. -/
def supportingSpec (composition : Composition) (template overrides : SpecBlocks)
    (kind : DependentKind) : Except Fault (Option Fields) :=
  if isConfigured template overrides kind then
    (effectiveSpec kind composition ((template.blocks.get kind).getD [])
      (overrides.blocks.get kind)).map some
  else .ok none

/-- Composes the plan of a site from its template and its overrides. -/
def compose (site : String) (templateLabels : Option (Entries String))
    (template overrides : SpecBlocks) : Except Fault Plan := do
  let names := SiteNames.derive site
  let composition := Composition.ofSite site templateLabels
  let postgres ← supportingSpec composition template overrides .postgres
  let keydb ← supportingSpec composition template overrides .keydb
  let nfs ← supportingSpec composition template overrides .nfs
  let moodle ← effectiveSpec .moodle composition
    (linkedMoodleBlock names.baseName template overrides) (overrides.blocks.get .moodle)
  let dependent (kind : DependentKind) (spec : Fields) : DependentSpec :=
    ⟨kind, names.baseName, names.namespaceName, spec⟩
  return {
    names := names
    composition := composition
    dependents := {
      moodle := some (dependent .moodle (withNotifyUuid site moodle))
      postgres := postgres.map (dependent .postgres)
      keydb := keydb.map (dependent .keydb)
      nfs := nfs.map (dependent .nfs) }
    omitPolicies := (overrides.omitPolicies.or template.omitPolicies).getD false }

end Plan

end SiteOperator

import SiteOperator.Control.WorkQueue
import SiteOperator.Reconcile.Attempt
import SiteOperator.Watch.Collection

/-!
# Duties

A duty says what a controller looks after: the objects that it reconciles, the other collections
that it watches, which keys an object makes due, and how an object is reconciled.  A site becomes
due by itself, by the objects that it owns, and by its template; a template becomes due by itself
and by every site that references it.
-/

namespace SiteOperator

/-- A reconcile that is to be run. -/
abbrev Reconcile := EffectProgram (Except Raised Progress)

/-- What a controller looks after. -/
structure Duty where
  main : Collection
  others : List Collection
  resource : String
  /-- What a reconcile waits for that has not settled, in the metrics. -/
  awaited : String
  keys : SiteCache → Sighting → List WorkKey
  reconcile : SiteCache → Sighting → Option Reconcile

namespace Sighting

def ownKey (seen : Sighting) : WorkKey := ⟨seen.metadata.namespaceName, seen.metadata.anyName⟩

def isSiteReference (owner : OwnerReference) : Bool :=
  owner.apiVersion = Site.resourceType.apiVersion && owner.kind = Site.resourceType.kind

/-- The sites that an object names as its owners.  They are looked for in the namespace of the
object first. -/
def siteOwners (data : ObjectMeta) : List WorkKey :=
  ((data.ownerReferences.getD []).filter isSiteReference).map fun owner =>
    ⟨data.namespaceName, owner.name⟩

def dueSites (cache : SiteCache) (seen : Sighting) : List WorkKey :=
  match seen with
  | .site _ => [seen.ownKey]
  | .template t => (cache.sitesUsing t.name).map fun name => ⟨none, name⟩
  | .dependent data => siteOwners data

def dueTemplates (seen : Sighting) : List WorkKey :=
  match seen with
  | .site s => [⟨none, s.spec.templateName⟩]
  | .template _ => [seen.ownKey]
  | .dependent _ => []

end Sighting

namespace Duty

def collections (duty : Duty) : List Collection := duty.main :: duty.others

def sites (manager now : String) : Duty where
  main := .sites
  others := DependentKind.all.map .dependents ++ [.templates]
  resource := Site.resourceType.kind
  awaited := "dependant_wait"
  keys := Sighting.dueSites
  reconcile _ seen := match seen with
    | .site site => some (site.reconcile manager now).run
    | _ => none

def templates : Duty where
  main := .templates
  others := [.sites]
  resource := Template.resourceType.kind
  awaited := "store_sync"
  keys _ seen := seen.dueTemplates
  reconcile cache seen := match seen with
    | .template template => some (template.reconcile cache).run
    | _ => none

end Duty

end SiteOperator

import SiteOperator.Resource.Objects
import SiteOperator.Resource.Shape
import SiteOperator.Resource.Template

/-!
# Collections

The operator watches the collections of sites, of templates and of the four kinds of dependents.  A
collection holds all objects of its type, in whatever namespace they are.  Of a dependent a watch
shows only the metadata, of a site or a template everything.
-/

namespace SiteOperator

/-- The collections that the operator watches. -/
inductive Collection where
  | sites
  | templates
  | dependents (kind : DependentKind)
  deriving DecidableEq

/-- What a watch shows of an object. -/
inductive Sighting where
  | site (site : Site)
  | template (template : Template)
  | dependent (data : ObjectMeta)
  deriving DecidableEq

namespace Collection

def type : Collection → ResourceType
  | sites => Site.resourceType
  | templates => Template.resourceType
  | dependents kind => kind.resourceType

def read : Collection → Decoder Sighting
  | sites => fun object => (Site.decode object).map .site
  | templates => fun object => (Template.decode object).map .template
  | dependents _ => fun object => (Decoder.anyMeta object).map .dependent

def holds (collection : Collection) (path : String) : Bool :=
  let type := collection.type
  let start := (type.groupPath ++ "/").toList
  start.isPrefixOf path.toList &&
    match (String.ofList (path.toList.drop start.length)).splitOn "/" with
    | [plural, _] => plural = type.plural
    | ["namespaces", _, plural, _] => plural = type.plural
    | _ => false

def objects (collection : Collection) (cluster : Entries Json) : List Json :=
  Entries.values (cluster.filter fun (path, _) => collection.holds path)

/-- Reads a list of a collection.  A list without a version cannot be followed. -/
def readList (collection : Collection) : Decoder (List Sighting) := fun body => do
  let fields ← Decoder.object body
  let sightings ← fields.required "items" (Decoder.list collection.read)
  match (body.field "metadata").field "resourceVersion" with
  | .string "" => none
  | .string _ => some sightings
  | _ => none

end Collection

namespace Sighting

def metadata : Sighting → ObjectMeta
  | .site s => s.metadata
  | .template t => t.metadata
  | .dependent data => data

end Sighting

end SiteOperator

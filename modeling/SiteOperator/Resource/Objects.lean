import SiteOperator.Cluster.Locator
import SiteOperator.Plan
import SiteOperator.Resource.Site

/-!
# The objects of a site

The namespace of a site, its two network policies and its dependents, as the operator writes them.
Each of them has the site as its only owner and carries the labels of the site.
-/

namespace SiteOperator

/-- The object of a type with metadata and further fields. -/
def objectJson (type : ResourceType) (data : ObjectMeta) (fields : List (String × Json)) : Json :=
  .ofFields
    ([("apiVersion", .string type.apiVersion), ("kind", .string type.kind),
      ("metadata", data.encode)] ++ fields)

def ownedMeta (name : String) (namespaceName : Option String) (owner : OwnerReference)
    (labels : Entries String) : ObjectMeta :=
  ({ ObjectMeta.empty with name := some name, namespaceName := namespaceName }).withOwnerAndLabels
    owner labels

namespace SiteNames

def namespaceLocator (names : SiteNames) : Locator :=
  ⟨.namespaces, none, names.namespaceName⟩

def policyLocator (names : SiteNames) (name : String) : Locator :=
  ⟨.networkPolicies, some names.namespaceName, name⟩

def namespaceObject (names : SiteNames) (owner : OwnerReference) (labels : Entries String) :
    Json :=
  objectJson .namespaces (ownedMeta names.namespaceName none owner labels) []

/-- A network policy of the site that admits ingress to some pods. -/
def policyObject (names : SiteNames) (name : String) (pods ingress : Json)
    (owner : OwnerReference) (labels : Entries String) : Json :=
  objectJson .networkPolicies (ownedMeta name (some names.namespaceName) owner labels)
    [("spec", .ofFields
      [("policyTypes", .strings ["Ingress"]), ("podSelector", pods),
        ("ingress", .array [ingress])])]

/-- The network policy that admits traffic to every pod from the pods of the same namespace. -/
def namespacePolicyObject (names : SiteNames) (owner : OwnerReference)
    (labels : Entries String) : Json :=
  names.policyObject names.namespacePolicy (.object [])
    (.ofFields [("from", .array [.ofFields [("podSelector", .object [])]])]) owner labels

/-- The network policy that admits traffic to the web servers from anywhere. -/
def nginxPolicyObject (names : SiteNames) (owner : OwnerReference) (labels : Entries String) :
    Json :=
  names.policyObject names.nginxPolicy
    (.ofFields
      [("matchLabels", .ofFields [("app.kubernetes.io/component", .string "nginx")])])
    (.object []) owner labels

end SiteNames

namespace DependentSpec

def locator (dependent : DependentSpec) : Locator :=
  ⟨dependent.kind.resourceType, some dependent.namespaceName, dependent.name⟩

def object (dependent : DependentSpec) (owner : OwnerReference) (labels : Entries String) :
    Json :=
  objectJson dependent.kind.resourceType
    (ownedMeta dependent.name (some dependent.namespaceName) owner labels)
    [("spec", .object dependent.spec)]

end DependentSpec

def Site.locator (name : String) : Locator := ⟨Site.resourceType, none, name⟩

def Template.locator (name : String) : Locator := ⟨Template.resourceType, none, name⟩

end SiteOperator

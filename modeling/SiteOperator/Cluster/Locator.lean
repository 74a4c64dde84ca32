import SiteOperator.Dependent.Kind

/-!
# Locators

An object of the API is located by its type, its namespace if the type has namespaces, and its name.
Its path follows from these three.
-/

namespace SiteOperator

namespace ResourceType

def namespaces : ResourceType := ⟨"", "v1", "Namespace", "namespaces"⟩

def networkPolicies : ResourceType :=
  ⟨"networking.k8s.io", "v1", "NetworkPolicy", "networkpolicies"⟩

def groupPath (type : ResourceType) : String :=
  if type.group = "" then "/api/" ++ type.version
  else "/apis/" ++ type.group ++ "/" ++ type.version

/-- The path of all objects of a type, in whatever namespace. -/
def path (type : ResourceType) : String := type.groupPath ++ "/" ++ type.plural

end ResourceType

/-- Where an object of the API is. -/
structure Locator where
  type : ResourceType
  namespaceName : Option String
  name : String
  deriving DecidableEq

namespace Locator

def collection (locator : Locator) : String :=
  match locator.namespaceName with
  | some ns => locator.type.groupPath ++ "/namespaces/" ++ ns ++ "/" ++ locator.type.plural
  | none => locator.type.path

def path (locator : Locator) : String := locator.collection ++ "/" ++ locator.name

end Locator

end SiteOperator

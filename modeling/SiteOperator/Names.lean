import SiteOperator.Fault

/-!
# Names derived from a site

Everything that belongs to a site has a name that depends on the name of the site alone, so each
reconcile finds the objects of the last one.  The namespace is the identity of the site and is
never cut; the base name, which all dependents share, is cut to a fixed number of characters.
-/

namespace SiteOperator

def siteNameStart : String := "lms-"

def baseNameMost : Nat := 17

def namespaceMost : Nat := 63

/-- The names derived from the name of a site. -/
structure SiteNames where
  site : String
  namespaceName : String
  baseName : String
  deriving DecidableEq

def dropTrailingHyphens (cs : List Char) : List Char :=
  (cs.reverse.dropWhile (· = '-')).reverse

/-- The first characters of a text.  Hyphens that a cut leaves at the end are dropped as well, so
the result can be a name.  A text was cut if bytes of it are missing. -/
def truncate (value : String) (most : Nat) : String :=
  let kept := String.ofList (value.toList.take most)
  if kept.utf8ByteSize < value.utf8ByteSize then
    String.ofList (dropTrailingHyphens kept.toList)
  else kept

/-- The name of a site with the common start, which is never doubled. -/
def withSiteNameStart (site : String) : String :=
  if siteNameStart.toList.isPrefixOf site.toList then site else siteNameStart ++ site

namespace SiteNames

def derive (site : String) : SiteNames where
  site := site
  namespaceName := withSiteNameStart site
  baseName := truncate (withSiteNameStart site) baseNameMost

/-- The network policy that admits traffic inside the namespace. -/
def namespacePolicy (names : SiteNames) : String := names.baseName ++ "-ns"

/-- The network policy that admits ingress to the web servers. -/
def nginxPolicy (names : SiteNames) : String := names.baseName ++ "-nginx"

/-- Refuses a site whose namespace would have too long a name. -/
def validate (names : SiteNames) : Except Fault Unit :=
  if namespaceMost < names.namespaceName.toList.length then
    .error (.nameTooLong names.namespaceName namespaceMost)
  else .ok ()

end SiteNames

end SiteOperator

import SiteOperator.Resource.Site

/-!
# The cache of sites

The operator keeps a copy of all sites, which it builds from the events of a watch.  The copy counts
as complete once the first list of sites has ended, and stays so.  It answers which sites reference
a template.
-/

namespace SiteOperator

/-- An event of the watch that feeds the cache. -/
inductive CacheEvent where
  | listBegins
  | listed (site : Site)
  | listEnds
  | applied (site : Site)
  | deleted (site : Site)
  deriving DecidableEq

/-- The copy of all sites by name, the list that is being read, and whether a first list has
ended. -/
structure SiteCache where
  sites : Entries Site
  incoming : Entries Site
  synced : Bool
  deriving DecidableEq

namespace SiteCache

def empty : SiteCache := ⟨[], [], false⟩

def keyOf (site : Site) : String := site.metadata.name.getD ""

def receive (cache : SiteCache) : CacheEvent → SiteCache
  | .listBegins => { cache with incoming := [] }
  | .listed site => { cache with incoming := cache.incoming.put (keyOf site) site }
  | .listEnds => ⟨cache.incoming, [], true⟩
  | .applied site => { cache with sites := cache.sites.put (keyOf site) site }
  | .deleted site => { cache with sites := cache.sites.remove (keyOf site) }

def ofSites (sites : List Site) : SiteCache :=
  ((sites.foldl (fun cache site => cache.receive (.listed site)) empty)).receive .listEnds

/-- The names of the sites among the given ones that reference a template, sorted. -/
def namesUsing (sites : List Site) (template : String) : List String :=
  ((sites.filter fun site => site.spec.templateName = template).map Site.name).mergeSort
    fun a b => decide (a ≤ b)

/-- The names of the sites in the cache that reference a template, sorted. -/
def sitesUsing (cache : SiteCache) (template : String) : List String :=
  namesUsing cache.sites.values template

end SiteCache

end SiteOperator

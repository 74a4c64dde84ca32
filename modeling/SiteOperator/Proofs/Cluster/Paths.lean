import SiteOperator.Cluster.Store
import SiteOperator.Resource.Objects

/-!
# Where requests lead

The path of a request is the part of its target before any number sign or question mark, and it
begins as the paths of the object's type do. The types of the objects that a reconcile of a site
sends requests about begin differently, so requests about objects of different types lead to
different paths, whatever the names are.
-/

namespace SiteOperator

namespace Target

/-- A character that does not end the path of a target. -/
def isBefore (c : Char) : Bool := c ≠ '#' && c ≠ '?'

def pathPart (cs : List Char) : List Char := cs.takeWhile isBefore

theorem takeWhile_takeWhile_eq (cs : List Char) :
    (cs.takeWhile (· ≠ '#')).takeWhile (· ≠ '?') = pathPart cs := by
  induction cs with
  | nil => rfl
  | cons c cs ih =>
      by_cases hsign : c = '#'
      · simp [pathPart, isBefore, hsign]
      · by_cases hmark : c = '?' <;> simp_all [pathPart, isBefore]

theorem toList_of_split? {target path : String} {query : Option String}
    (h : split? target = some (path, query)) : path.toList = pathPart target.toList := by
  simp only [split?] at h
  split at h
  · cases h
    rw [String.toList_ofList, takeWhile_takeWhile_eq]
  · cases h

theorem pathPart_append {start : List Char} (h : start.all isBefore = true) (rest : List Char) :
    pathPart (start ++ rest) = start ++ pathPart rest :=
  List.takeWhile_append_of_pos (List.all_eq_true.mp h)

/-- What follows a question mark is not part of the path. -/
theorem pathPart_append_query (cs rest : List Char) :
    pathPart (cs ++ '?' :: rest) = pathPart cs := by
  induction cs with
  | nil => rfl
  | cons c cs ih => simp only [pathPart, List.cons_append, List.takeWhile_cons] at ih ⊢; rw [ih]

end Target

/-- The path that requests about an object lead to. -/
def Locator.wirePath (object : Locator) : String :=
  String.ofList (Target.pathPart object.path.toList)

/-- How the paths of the objects of a type begin. -/
def ResourceType.start (type : ResourceType) : List Char := (type.groupPath ++ "/").toList

def ResourceType.Starts (type : ResourceType) (path : String) : Prop := type.start <+: path.toList

namespace Request

variable {wire : WireRequest} {object : Locator} {manager : String} {body : Json}

theorem wire_of_onWire? {verb : Verb} {target : String} {content : Option (BodyType × Json)}
    (h : onWire? verb target content = some wire) :
    wire.verb = verb ∧ wire.body = content ∧ wire.path.toList = Target.pathPart target.toList := by
  obtain ⟨⟨path, query⟩, hsplit, rfl⟩ := Option.map_eq_some_iff.mp h
  exact ⟨rfl, rfl, Target.toList_of_split? hsplit⟩

/-- The path of a request that adds nothing but a query to the path of its object. -/
theorem path_eq_wirePath {query : List Char}
    (h : wire.path.toList = Target.pathPart (object.path.toList ++ '?' :: query)) :
    wire.path = object.wirePath := by
  rw [Target.pathPart_append_query] at h
  rw [← String.toList_inj, h, Locator.wirePath, String.toList_ofList]

theorem wire_get (h : (get object).wire? = some wire) :
    wire.verb = .get ∧ Cluster.target wire = object.wirePath := by
  obtain ⟨hverb, hbody, hpath⟩ := wire_of_onWire? (Option.ite_none_left_eq_some.mp h).2
  rw [String.toList_append] at hpath
  rw [Cluster.target, hverb, hbody]
  exact ⟨rfl, path_eq_wirePath hpath⟩

theorem wire_delete (h : (delete object).wire? = some wire) :
    wire.verb = .delete ∧ Cluster.target wire = object.wirePath := by
  obtain ⟨hverb, hbody, hpath⟩ := wire_of_onWire? (Option.ite_none_left_eq_some.mp h).2
  rw [String.toList_append] at hpath
  rw [Cluster.target, hverb, hbody]
  exact ⟨rfl, path_eq_wirePath hpath⟩

theorem target_apply (h : (apply object manager body).wire? = some wire) :
    Cluster.target wire = object.wirePath := by
  obtain ⟨hverb, hbody, hpath⟩ := wire_of_onWire? (Option.ite_none_left_eq_some.mp h).2
  have hquery : "?force=true&fieldManager=".toList = '?' :: "force=true&fieldManager=".toList := by
    decide
  rw [String.toList_append, String.toList_append, List.append_assoc, hquery] at hpath
  rw [Cluster.target, hverb, hbody]
  exact path_eq_wirePath hpath

end Request

namespace ResourceType

/-- The types of the objects that a site has to do with besides its dependents. -/
def surroundings : List ResourceType :=
  [Site.resourceType, Template.resourceType, namespaces, networkPolicies]

def known : List ResourceType := surroundings ++ DependentKind.all.map DependentKind.resourceType

theorem mem_known_of_surroundings {type : ResourceType} (h : type ∈ surroundings) : type ∈ known :=
  List.mem_append_left _ h

theorem isBefore_start {type : ResourceType} (h : type ∈ known) :
    type.start.all Target.isBefore = true := by
  have hall : known.all (fun type => type.start.all Target.isBefore) = true := by decide +kernel
  exact List.all_eq_true.mp hall type h

end ResourceType

namespace DependentKind

theorem resourceType_mem_known (kind : DependentKind) : kind.resourceType ∈ ResourceType.known :=
  List.mem_append_right _ (List.mem_map_of_mem kind.mem_all)

theorem resourceType_inj {kind other : DependentKind} (h : kind.resourceType = other.resourceType) :
    kind = other := by
  cases kind <;> cases other <;> simp_all [resourceType]

theorem resourceType_ne (kind : DependentKind) {type : ResourceType}
    (h : type ∈ ResourceType.surroundings) : kind.resourceType ≠ type := by
  rintro rfl
  cases kind <;> revert h <;> decide

/-- A path does not begin both as that of a dependent and as that of another object. -/
theorem not_starts (kind : DependentKind) {type : ResourceType} {path : String}
    (htype : type ∈ ResourceType.surroundings) (h : type.Starts path) :
    ¬ kind.resourceType.Starts path := by
  have apart : ∀ type ∈ ResourceType.surroundings, ∀ kind ∈ all,
      ¬ type.start <+: kind.resourceType.start ∧ ¬ kind.resourceType.start <+: type.start := by
    decide +kernel
  intro h'
  rcases List.prefix_or_prefix_of_prefix h h' with h | h
  · exact (apart type htype kind kind.mem_all).1 h
  · exact (apart type htype kind kind.mem_all).2 h

/-- A path begins as those of the dependents of one kind at most. -/
theorem eq_of_starts {kind other : DependentKind} {path : String}
    (h : kind.resourceType.Starts path) (h' : other.resourceType.Starts path) : kind = other := by
  have apart : ∀ kind ∈ all, ∀ other ∈ all,
      kind.resourceType.start <+: other.resourceType.start → kind = other := by
    decide +kernel
  rcases List.prefix_or_prefix_of_prefix h h' with h | h
  · exact apart kind kind.mem_all other other.mem_all h
  · exact (apart other other.mem_all kind kind.mem_all h).symm

end DependentKind

namespace Locator

variable {object : Locator}

theorem start_prefix_collection (object : Locator) :
    object.type.start <+: object.collection.toList := by
  have hnamespaces : "/namespaces/".toList = "/".toList ++ "namespaces/".toList := by decide
  cases hnamespace : object.namespaceName with
  | none =>
      simp only [collection, hnamespace, ResourceType.path, ResourceType.start,
        String.toList_append]
      exact List.prefix_append _ _
  | some ns =>
      simp only [collection, hnamespace, ResourceType.start, String.toList_append, hnamespaces,
        List.append_assoc]
      exact ⟨_, List.append_assoc _ _ _⟩

theorem start_prefix_path (object : Locator) : object.type.start <+: object.path.toList := by
  refine object.start_prefix_collection.trans ?_
  rw [path, String.toList_append, String.toList_append, List.append_assoc]
  exact List.prefix_append _ _

theorem starts_wirePath (h : object.type ∈ ResourceType.known) :
    object.type.Starts object.wirePath := by
  obtain ⟨rest, hrest⟩ := object.start_prefix_path
  rw [ResourceType.Starts, wirePath, String.toList_ofList, ← hrest,
    Target.pathPart_append (ResourceType.isBefore_start h)]
  exact List.prefix_append _ _

end Locator

namespace Request

variable {wire : WireRequest} {object : Locator} {body : Json}

theorem starts_target_create (hobject : object.type ∈ ResourceType.known)
    (h : (create object body).wire? = some wire) : object.type.Starts (Cluster.target wire) := by
  have h : onWire? .post (object.collection ++ "?") (some (.json, body)) = some wire := h
  obtain ⟨hverb, hbody, hpath⟩ := wire_of_onWire? h
  obtain ⟨rest, hrest⟩ := object.start_prefix_collection
  have hstarts : object.type.start <+: wire.path.toList := by
    rw [hpath, String.toList_append, ← hrest, List.append_assoc,
      Target.pathPart_append (ResourceType.isBefore_start hobject)]
    exact List.prefix_append _ _
  rw [Cluster.target, hverb, hbody]
  simp only [ResourceType.Starts]
  split
  · rw [String.toList_append, String.toList_append, List.append_assoc]
    exact hstarts.trans (List.prefix_append _ _)
  · rw [String.toList_append]
    exact hstarts.trans (List.prefix_append _ _)

/-- A status is cut off a path without touching how the path begins. -/
theorem prefix_objectPath {start more : List Char} {path : String}
    (h : start ++ more <+: path.toList) (hmore : "/status".toList.length ≤ more.length) :
    start <+: (Cluster.objectPath path).toList := by
  have hstart : start <+: path.toList := (List.prefix_append _ _).trans h
  simp only [Cluster.objectPath]
  split
  · have hlength := h.length_le
    rw [List.length_append] at hlength
    rw [String.toList_ofList, List.prefix_take_iff]
    exact ⟨hstart, by omega⟩
  · exact hstart

/-- What is merged into a site, or into its status, leads to a path that begins as those of sites
do. -/
theorem starts_target_merge {name ending : String}
    (h : onWire? .patch ((Site.locator name).path ++ ending) (some (.mergePatch, body)) =
      some wire) :
    Site.resourceType.Starts (Cluster.target wire) := by
  obtain ⟨hverb, hbody, hpath⟩ := wire_of_onWire? h
  have hbefore : (Site.resourceType.start ++ "lmsmoodles/".toList).all Target.isBefore = true := by
    decide +kernel
  have hplural : Site.resourceType.plural.toList ++ "/".toList = "lmsmoodles/".toList := by decide
  have hsite : (Site.locator name).path.toList =
      Site.resourceType.start ++ "lmsmoodles/".toList ++ name.toList := by
    simp only [Site.locator, Locator.path, Locator.collection, ResourceType.path,
      ResourceType.start, String.toList_append, List.append_assoc, ← hplural]
  rw [String.toList_append, hsite, List.append_assoc, Target.pathPart_append hbefore] at hpath
  rw [Cluster.target, hverb, hbody]
  have hprefix : Site.resourceType.start ++ "lmsmoodles/".toList <+: wire.path.toList := by
    rw [hpath]
    exact List.prefix_append _ _
  exact prefix_objectPath hprefix (by decide)

theorem starts_target_patch {name : String}
    (h : (patch (Site.locator name) body).wire? = some wire) :
    Site.resourceType.Starts (Cluster.target wire) :=
  starts_target_merge (Option.ite_none_left_eq_some.mp h).2

theorem starts_target_patchStatus {name : String}
    (h : (patchStatus (Site.locator name) body).wire? = some wire) :
    Site.resourceType.Starts (Cluster.target wire) :=
  starts_target_merge (Option.ite_none_left_eq_some.mp h).2

end Request

end SiteOperator

import Mathlib.Data.List.TakeWhile
import SiteOperator.Proofs.Cluster.Paths

/-!
# Names as segments of paths

A name without a slash, a number sign and a question mark is one segment of a path, as all names of
objects of the API are. Two objects of one type whose names are segments have one path only if they
are one object, and a request that creates an object leads to the path of that object.
-/

namespace SiteOperator

namespace Target

def isSegmentChar (c : Char) : Bool := c ≠ '/' && isBefore c

/-- A segment ends where the next slash is. -/
theorem append_slash_inj {cs ds rest rest' : List Char} (hcs : '/' ∉ cs) (hds : '/' ∉ ds)
    (h : cs ++ '/' :: rest = ds ++ '/' :: rest') : cs = ds ∧ rest = rest' := by
  induction cs generalizing ds with
  | nil =>
      cases ds with
      | nil => exact ⟨rfl, (List.cons.inj h).2⟩
      | cons d ds => exact absurd (List.cons.inj h).1 (List.ne_of_not_mem_cons hds)
  | cons c cs ih =>
      cases ds with
      | nil => exact absurd (List.cons.inj h).1.symm (List.ne_of_not_mem_cons hcs)
      | cons d ds =>
          obtain ⟨rfl, htail⟩ := List.cons.inj h
          obtain ⟨rfl, hrest⟩ := ih (List.not_mem_of_not_mem_cons hcs)
            (List.not_mem_of_not_mem_cons hds) htail
          exact ⟨rfl, hrest⟩

end Target

def IsSegment (name : String) : Prop := name.toList.all Target.isSegmentChar = true

instance (name : String) : Decidable (IsSegment name) :=
  inferInstanceAs (Decidable (_ = true))

namespace IsSegment

variable {name other : String}

theorem isBefore (h : IsSegment name) : name.toList.all Target.isBefore = true := by
  refine List.all_eq_true.mpr fun c hc => ?_
  have hchar := List.all_eq_true.mp h c hc
  exact (Bool.and_eq_true_iff.mp hchar).2

theorem slash_notMem (h : IsSegment name) : '/' ∉ name.toList := by
  intro hmem
  have hchar := List.all_eq_true.mp h '/' hmem
  cases hchar

theorem append (h : IsSegment name) (h' : IsSegment other) : IsSegment (name ++ other) := by
  rw [IsSegment, String.toList_append, List.all_append, h, h']
  rfl

theorem of_subset (h : IsSegment name) (hsub : other.toList ⊆ name.toList) : IsSegment other :=
  List.all_eq_true.mpr fun c hc => List.all_eq_true.mp h c (hsub hc)

end IsSegment

structure Locator.Segmented (object : Locator) : Prop where
  known : object.type ∈ ResourceType.known
  namespaceName : ∀ ns, object.namespaceName = some ns → IsSegment ns
  name : IsSegment object.name

namespace ResourceType

theorem isBefore_plural {type : ResourceType} (h : type ∈ known) :
    type.plural.toList.all Target.isBefore = true := by
  have hall : known.all (fun type => type.plural.toList.all Target.isBefore) = true := by
    decide +kernel
  exact List.all_eq_true.mp hall type h

theorem slash_notMem_plural {type : ResourceType} (h : type ∈ known) :
    '/' ∉ type.plural.toList := by
  have hall : ∀ type ∈ known, '/' ∉ type.plural.toList := by decide +kernel
  exact hall type h

/-- The types of the objects of a site, which are what it writes besides itself. -/
def written : List ResourceType :=
  [namespaces, networkPolicies] ++ DependentKind.all.map DependentKind.resourceType

theorem known_of_written {type : ResourceType} (h : type ∈ written) : type ∈ known := by
  have hall : ∀ type ∈ written, type ∈ known := by decide
  exact hall type h

/-- No path begins both as those of such a type and as those of another type. -/
theorem eq_of_starts {type other : ResourceType} {path : String} (h : type ∈ written)
    (hother : other ∈ known) (hstarts : type.Starts path) (hstarts' : other.Starts path) :
    type = other := by
  have apart : ∀ type ∈ written, ∀ other ∈ known,
      type.start <+: other.start ∨ other.start <+: type.start → type = other := by
    decide +kernel
  exact apart type h other hother (List.prefix_or_prefix_of_prefix hstarts hstarts')

end ResourceType

namespace Locator

variable {object other : Locator}

/-- What follows the start of its type in the path of an object, up to its name. -/
def middle (object : Locator) : List Char :=
  match object.namespaceName with
  | some ns => "namespaces/".toList ++ (ns.toList ++ '/' :: (object.type.plural.toList ++ ['/']))
  | none => object.type.plural.toList ++ ['/']

theorem eq_of_middle_none_some {type : ResourceType} {ns : String} {name rest : List Char}
    (hplural : '/' ∉ type.plural.toList)
    (h : middle ⟨type, none, ""⟩ ++ name = middle ⟨type, some ns, ""⟩ ++ rest) :
    name = ns.toList ++ '/' :: (type.plural.toList ++ '/' :: rest) := by
  have hnamespaces : "namespaces/".toList = "namespaces".toList ++ '/' :: [] := by decide
  simp only [middle, hnamespaces, List.append_assoc, List.cons_append, List.nil_append] at h
  exact (Target.append_slash_inj hplural (by decide) h).2

theorem toList_collection (object : Locator) :
    object.collection.toList ++ ['/'] = object.type.start ++ object.middle := by
  have hnamespaces : "/namespaces/".toList = '/' :: "namespaces/".toList := by decide
  have hslash : "/".toList = ['/'] := by decide
  cases hnamespace : object.namespaceName <;>
    simp [collection, middle, ResourceType.path, ResourceType.start, hnamespace, hnamespaces,
      hslash, String.toList_append]

theorem toList_path (object : Locator) :
    object.path.toList = object.type.start ++ (object.middle ++ object.name.toList) := by
  have hslash : "/".toList = ['/'] := by decide
  rw [path, String.toList_append, String.toList_append, hslash, toList_collection,
    List.append_assoc]

theorem Segmented.isBefore_middle (h : object.Segmented) :
    object.middle.all Target.isBefore = true := by
  have hplural := ResourceType.isBefore_plural h.known
  have hnamespaces : "namespaces/".toList.all Target.isBefore = true := by decide
  have hslash : Target.isBefore '/' = true := by decide
  cases hnamespace : object.namespaceName with
  | none => simp only [middle, hnamespace, List.all_append, hplural, List.all_cons, hslash,
      List.all_nil, Bool.and_self]
  | some ns => simp only [middle, hnamespace, List.all_append, List.all_cons, hplural, hnamespaces,
      (h.namespaceName ns hnamespace).isBefore, hslash, List.all_nil, Bool.and_self]

theorem Segmented.isBefore_path (h : object.Segmented) :
    object.path.toList.all Target.isBefore = true := by
  simp only [toList_path, List.all_append, ResourceType.isBefore_start h.known, h.isBefore_middle,
    h.name.isBefore, Bool.and_self]

/-- Nothing of the path of such an object is cut off. -/
theorem Segmented.wirePath_eq (h : object.Segmented) : object.wirePath = object.path := by
  have hall := List.takeWhile_eq_self_iff.mpr (List.all_eq_true.mp h.isBefore_path)
  rw [wirePath, Target.pathPart, hall, String.ofList_toList]

/-- Objects of one type that have the same path are the same. -/
theorem Segmented.eq_of_path_eq (h : object.Segmented) (h' : other.Segmented)
    (htype : object.type = other.type) (hpath : object.wirePath = other.wirePath) :
    object = other := by
  rw [h.wirePath_eq, h'.wirePath_eq, ← String.toList_inj, toList_path, toList_path, htype,
    List.append_cancel_left_eq] at hpath
  obtain ⟨type, namespaceName, name⟩ := object
  obtain ⟨type', namespaceName', name'⟩ := other
  obtain rfl : type = type' := htype
  have hplural := ResourceType.slash_notMem_plural h.known
  -- A type without namespaces leaves one slash in the path, a type with namespaces more than one.
  cases namespaceName with
  | none =>
      cases namespaceName' with
      | none =>
          simp only [middle, List.append_cancel_left_eq, String.toList_inj] at hpath
          rw [hpath]
      | some ns =>
          refine absurd ?_ h.name.slash_notMem
          rw [eq_of_middle_none_some hplural hpath]
          exact List.mem_append_right _ List.mem_cons_self
  | some ns =>
      cases namespaceName' with
      | none =>
          refine absurd ?_ h'.name.slash_notMem
          rw [eq_of_middle_none_some hplural hpath.symm]
          exact List.mem_append_right _ List.mem_cons_self
      | some ns' =>
          simp only [middle, List.append_assoc, List.append_cancel_left_eq,
            List.cons_append] at hpath
          have hns := (h.namespaceName ns rfl).slash_notMem
          have hns' := (h'.namespaceName ns' rfl).slash_notMem
          obtain ⟨hnamespace, hrest⟩ := Target.append_slash_inj hns hns' hpath
          obtain ⟨-, hname⟩ := List.cons.inj (List.append_cancel_left hrest)
          rw [String.toList_inj.mp hnamespace, String.toList_inj.mp hname]

/-- Objects that have the same path are the same, if one of them is of a type whose start no other
type shares. -/
theorem Segmented.eq_of_wirePath_eq (h : object.Segmented) (h' : other.Segmented)
    (hobject : object.type ∈ ResourceType.written) (hpath : object.wirePath = other.wirePath) :
    object = other := by
  have hstarts := starts_wirePath h'.known
  rw [← hpath] at hstarts
  exact h.eq_of_path_eq h'
    (ResourceType.eq_of_starts hobject h'.known (starts_wirePath h.known) hstarts) hpath

end Locator

namespace Request

variable {wire : WireRequest} {object : Locator} {body : Json}

/-- An object is created at its path. -/
theorem wire_create (h : (create object body).wire? = some wire) (segmented : object.Segmented)
    (hname : (body.field "metadata").field "name" = .string object.name) :
    wire.verb = .post ∧ wire.body = some (.json, body) ∧
      Cluster.target wire = object.wirePath := by
  have h : onWire? .post (object.collection ++ "?") (some (.json, body)) = some wire := h
  obtain ⟨hverb, hbody, hpath⟩ := wire_of_onWire? h
  refine ⟨hverb, hbody, ?_⟩
  have hquery : "?".toList = '?' :: [] := by decide
  have hslash : "/".toList = ['/'] := by decide
  have hcollection : object.collection.toList.all Target.isBefore = true := by
    have hboth : (object.collection.toList ++ ['/']).all Target.isBefore = true := by
      rw [Locator.toList_collection, List.all_append, ResourceType.isBefore_start segmented.known,
        segmented.isBefore_middle]
      rfl
    rw [List.all_append] at hboth
    exact (Bool.and_eq_true_iff.mp hboth).1
  rw [String.toList_append, hquery, Target.pathPart_append_query, Target.pathPart,
    List.takeWhile_eq_self_iff.mpr (List.all_eq_true.mp hcollection), String.toList_inj] at hpath
  rw [Cluster.target, hverb, hbody, segmented.wirePath_eq]
  simp only [hname, hpath]
  rfl

theorem wire_apply {manager : String} (h : (apply object manager body).wire? = some wire) :
    wire.verb = .patch ∧ wire.body = some (.applyPatch, body) ∧
      Cluster.target wire = object.wirePath := by
  obtain ⟨hverb, hbody, -⟩ := wire_of_onWire? (Option.ite_none_left_eq_some.mp h).2
  exact ⟨hverb, hbody, target_apply h⟩

end Request

end SiteOperator

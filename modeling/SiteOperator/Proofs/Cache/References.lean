import SiteOperator.Proofs.Cache.History
import SiteOperator.Proofs.Json.Merge

/-!
# Which sites reference a template

The cache files every site once, under its name (`SiteCache.filed_ofEvents`). The names it lists for
a template depend on which sites reference the template and not on their order
(`SiteCache.namesUsing_perm`), so there are as many as there are entries for such sites
(`SiteCache.length_sitesUsing`).
-/

namespace SiteOperator

namespace SiteCache

/-- The names are in order, and every site stands under its own. -/
structure Filed (sites : Entries Site) : Prop where
  sorted : sites.Sorted
  named : ∀ e ∈ sites, e.1 = keyOf e.2

namespace Filed

variable {sites : Entries Site}

theorem nil : Filed [] := ⟨Entries.Sorted.nil, fun _ he => absurd he List.not_mem_nil⟩

theorem put (h : Filed sites) (site : Site) : Filed (sites.put (keyOf site) site) where
  sorted := h.sorted.put _ _
  named e he := by
    rcases Entries.mem_put he with rfl | he
    · rfl
    · exact h.named e he

theorem remove (h : Filed sites) (name : String) : Filed (sites.remove name) where
  sorted := h.sorted.remove name
  named e he := by
    rw [Entries.remove_eq_filter] at he
    exact h.named e (List.mem_filter.mp he).1

end Filed

/-- Both the sites of the cache and those of the list that is being read are filed. -/
theorem filed_ofEvents (events : List CacheEvent) :
    Filed (ofEvents events).sites ∧ Filed (ofEvents events).incoming := by
  induction events using List.reverseRecOn with
  | nil => exact ⟨.nil, .nil⟩
  | append_singleton events e ih =>
      obtain ⟨hsites, hincoming⟩ := ih
      rw [ofEvents_append_singleton]
      cases e with
      | listBegins => exact ⟨hsites, .nil⟩
      | listed site => exact ⟨hsites, hincoming.put site⟩
      | listEnds => exact ⟨hincoming, .nil⟩
      | applied site => exact ⟨hsites.put site, hincoming⟩
      | deleted site => exact ⟨hsites.remove _, hincoming⟩

def referrers (sites : List Site) (template : String) : List String :=
  (sites.filter fun site => site.spec.templateName = template).map Site.name

theorem pairwise_namesUsing (sites : List Site) (template : String) :
    (namesUsing sites template).Pairwise (· ≤ ·) :=
  (List.pairwise_mergeSort (by simpa using fun a b c => String.le_trans)
    (by simpa using String.le_total) _).imp of_decide_eq_true

theorem perm_namesUsing (sites : List Site) (template : String) :
    (namesUsing sites template).Perm (referrers sites template) := List.mergeSort_perm _ _

/-- Two caches list the same sites for a template exactly if the same names reference it, each as
often. -/
theorem namesUsing_eq_iff {sites others : List Site} {template : String} :
    namesUsing sites template = namesUsing others template ↔
      (referrers sites template).Perm (referrers others template) := by
  refine ⟨fun heq => (perm_namesUsing sites template).symm.trans (heq ▸ perm_namesUsing _ _),
    fun hperm => ?_⟩
  exact List.Perm.eq_of_pairwise (fun _ _ _ _ => String.le_antisymm) (pairwise_namesUsing _ _)
    (pairwise_namesUsing _ _)
    ((perm_namesUsing _ _).trans (hperm.trans (perm_namesUsing _ _).symm))

/-- The order in which the sites come does not matter. -/
theorem namesUsing_perm {sites others : List Site} (h : sites.Perm others) (template : String) :
    namesUsing sites template = namesUsing others template :=
  namesUsing_eq_iff.mpr ((h.filter _).map Site.name)

@[simp] theorem length_namesUsing (sites : List Site) (template : String) :
    (namesUsing sites template).length =
      sites.countP fun site => site.spec.templateName = template := by
  rw [namesUsing, List.length_mergeSort, List.length_map, List.countP_eq_length_filter]

/-- The names under which a map has a site that references the template. -/
def references (sites : Entries Site) (template : String) : List String :=
  Entries.keys (sites.filter fun e => e.2.spec.templateName = template)

section references

variable {sites : Entries Site} {template name : String}

theorem Filed.nodup_references (h : Filed sites) : (references sites template).Nodup :=
  Entries.Sorted.nodup_keys (List.Pairwise.filter _ h.sorted)

theorem Filed.mem_references_iff (h : Filed sites) :
    name ∈ references sites template ↔
      ∃ site, sites.at? name = some site ∧ site.spec.templateName = template := by
  simp only [references, Entries.keys, List.mem_map, List.mem_filter, decide_eq_true_eq]
  constructor
  · rintro ⟨⟨_, site⟩, ⟨hmem, huses⟩, rfl⟩
    exact ⟨site, h.sorted.at?_of_mem hmem, huses⟩
  · rintro ⟨site, hat, huses⟩
    exact ⟨(name, site), ⟨Entries.mem_of_at? hat, huses⟩, rfl⟩

theorem length_references :
    (references sites template).length = (namesUsing sites.values template).length := by
  rw [length_namesUsing, references, Entries.keys, List.length_map, Entries.values,
    List.countP_map, ← List.countP_eq_length_filter]
  rfl

end references

end SiteCache

/-- The names list, each once, the sites that the history has told of and that reference the
template. -/
structure Referencing (events : List CacheEvent) (template : String) (names : List String) :
    Prop where
  nodup : names.Nodup
  mem_iff : ∀ name,
    name ∈ names ↔ ∃ site, Known events name site ∧ site.spec.templateName = template

/-- The cache lists as many sites for a template as reference it. -/
theorem exists_referencing (events : List CacheEvent) (template : String) :
    ∃ names, Referencing events template names ∧
      ((SiteCache.ofEvents events).sitesUsing template).length = names.length := by
  have hfiled := (SiteCache.filed_ofEvents events).1
  refine ⟨SiteCache.references (SiteCache.ofEvents events).sites template,
    ⟨hfiled.nodup_references, fun name => ?_⟩, SiteCache.length_references.symm⟩
  simp only [hfiled.mem_references_iff, SiteCache.at?_ofEvents_iff]

end SiteOperator

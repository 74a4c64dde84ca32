import SiteOperator.Proofs.Cluster.Segments
import SiteOperator.Proofs.Names.Truncated

/-!
# The names of two sites

Two sites have one namespace exactly if one of their names lacks the common start of namespaces and
the other is that name with the start in front of it (`SiteNames.namespaceName_eq_iff`). The base
name says less: it is cut, so it is a function of the namespace. All names that are derived from a
segment of a path are segments themselves.
-/

namespace SiteOperator

def HasSiteNameStart (name : String) : Prop := siteNameStart.toList <+: name.toList

/-- One of the names is the other one with the start of the namespaces in front of it, which the
other one lacks. -/
def SharesNamespace (site other : String) : Prop :=
  (¬ HasSiteNameStart site ∧ other = siteNameStart ++ site) ∨
    (¬ HasSiteNameStart other ∧ site = siteNameStart ++ other)

instance (name : String) : Decidable (HasSiteNameStart name) :=
  inferInstanceAs (Decidable (_ <+: _))

instance (site other : String) : Decidable (SharesNamespace site other) :=
  inferInstanceAs (Decidable (_ ∨ _))

theorem withSiteNameStart_of_hasStart {name : String} (h : HasSiteNameStart name) :
    withSiteNameStart name = name := by
  rw [withSiteNameStart, if_pos (List.isPrefixOf_iff_prefix.mpr h)]

theorem withSiteNameStart_of_not_hasStart {name : String} (h : ¬ HasSiteNameStart name) :
    withSiteNameStart name = siteNameStart ++ name := by
  rw [withSiteNameStart, if_neg fun hstart => h (List.isPrefixOf_iff_prefix.mp hstart)]

theorem siteNameStart_append_inj {name other : String}
    (h : siteNameStart ++ name = siteNameStart ++ other) : name = other := by
  rw [← String.toList_inj, String.toList_append, String.toList_append,
    List.append_cancel_left_eq, String.toList_inj] at h
  exact h

theorem hasSiteNameStart_append (name : String) : HasSiteNameStart (siteNameStart ++ name) := by
  rw [HasSiteNameStart, String.toList_append]
  exact List.prefix_append _ _

theorem SharesNamespace.withSiteNameStart_eq {site other : String}
    (h : SharesNamespace site other) : withSiteNameStart site = withSiteNameStart other := by
  rcases h with ⟨hlacks, rfl⟩ | ⟨hlacks, rfl⟩
  · rw [withSiteNameStart_of_not_hasStart hlacks,
      withSiteNameStart_of_hasStart (hasSiteNameStart_append site)]
  · rw [withSiteNameStart_of_not_hasStart hlacks,
      withSiteNameStart_of_hasStart (hasSiteNameStart_append other)]

theorem withSiteNameStart_eq_iff {site other : String} (distinct : site ≠ other) :
    withSiteNameStart site = withSiteNameStart other ↔ SharesNamespace site other := by
  refine ⟨fun heq => ?_, SharesNamespace.withSiteNameStart_eq⟩
  by_cases hsite : HasSiteNameStart site
  · rw [withSiteNameStart_of_hasStart hsite] at heq
    by_cases hother : HasSiteNameStart other
    · rw [withSiteNameStart_of_hasStart hother] at heq
      exact absurd heq distinct
    · rw [withSiteNameStart_of_not_hasStart hother] at heq
      exact Or.inr ⟨hother, heq⟩
  · rw [withSiteNameStart_of_not_hasStart hsite] at heq
    by_cases hother : HasSiteNameStart other
    · rw [withSiteNameStart_of_hasStart hother] at heq
      exact Or.inl ⟨hsite, heq.symm⟩
    · rw [withSiteNameStart_of_not_hasStart hother] at heq
      exact absurd (siteNameStart_append_inj heq) distinct

namespace SiteNames

/-- Sites of different names have one namespace exactly if the start of the namespaces is all that
their names differ in. -/
theorem namespaceName_eq_iff {site other : String} (distinct : site ≠ other) :
    (derive site).namespaceName = (derive other).namespaceName ↔ SharesNamespace site other :=
  withSiteNameStart_eq_iff distinct

/-- Sites with one namespace have one base name. -/
theorem baseName_eq_of_namespaceName_eq {site other : String}
    (h : (derive site).namespaceName = (derive other).namespaceName) :
    (derive site).baseName = (derive other).baseName :=
  congrArg (truncate · baseNameMost) h

end SiteNames

namespace IsSegment

variable {site : String}

theorem namespaceName (h : IsSegment site) : IsSegment (SiteNames.derive site).namespaceName := by
  have hstart : IsSegment siteNameStart := by decide
  rw [SiteNames.derive]
  by_cases hsite : HasSiteNameStart site
  · rwa [withSiteNameStart_of_hasStart hsite]
  · rw [withSiteNameStart_of_not_hasStart hsite]
    exact hstart.append h

theorem baseName (h : IsSegment site) : IsSegment (SiteNames.derive site).baseName :=
  h.namespaceName.of_subset (isPrefix_truncate _ _).subset

end IsSegment

end SiteOperator

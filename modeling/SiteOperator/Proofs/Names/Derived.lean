import SiteOperator.Proofs.Plan.Names

/-!
# When the names derived from a site are admitted

The name of a site is a subdomain, and so is that name with the common start in front of it. Cut to
a number of characters it is a subdomain unless the last character that is kept is a dot
(`isSubdomain_truncate_cases`). So a base name may end with a dot, and the namespace of a site with a
dot in its name is no label although its length is checked.
-/

namespace SiteOperator

theorem dot_mem_withSiteNameStart_iff (site : String) :
    '.' ∈ (withSiteNameStart site).toList ↔ '.' ∈ site.toList := by
  by_cases hstart : HasSiteNameStart site
  · rw [withSiteNameStart_of_hasStart hstart]
  · rw [withSiteNameStart_of_not_hasStart hstart, String.toList_append, List.mem_append]
    exact or_iff_right (by decide)

theorem IsSubdomain.withSiteNameStart {site : String} (h : IsSubdomain site.toList) :
    IsSubdomain (withSiteNameStart site).toList := by
  by_cases hstart : HasSiteNameStart site
  · rwa [withSiteNameStart_of_hasStart hstart]
  · rw [withSiteNameStart_of_not_hasStart hstart, String.toList_append]
    exact h.prepend (by decide) (by decide)

def IsObjectName (name : String) : Prop :=
  IsSubdomain name.toList ∧ name.toList.length ≤ 253

instance (name : String) : Decidable (IsObjectName name) :=
  inferInstanceAs (Decidable (_ ∧ _))

namespace SiteNames

/-- The API admits all names that are derived from a site: the name of a namespace is a label. -/
structure Admitted (names : SiteNames) : Prop where
  isLabel_namespaceName : IsLabel names.namespaceName.toList
  length_namespaceName : names.namespaceName.toList.length ≤ namespaceMost
  isObjectName_baseName : IsObjectName names.baseName
  length_baseName : names.baseName.toList.length ≤ baseNameMost
  isObjectName_namespacePolicy : IsObjectName names.namespacePolicy
  isObjectName_nginxPolicy : IsObjectName names.nginxPolicy

theorem length_namespaceName_le {names : SiteNames} (accepted : names.validate = .ok ()) :
    names.namespaceName.toList.length ≤ namespaceMost := by
  unfold validate at accepted
  split at accepted
  · cases accepted
  next hle => exact Nat.not_lt.mp hle

variable {site : String}

theorem isLabel_namespaceName_iff (admitted : IsSubdomain site.toList) :
    IsLabel (derive site).namespaceName.toList ↔ '.' ∉ site.toList := by
  rw [← dot_mem_withSiteNameStart_iff]
  exact ⟨fun h => h.1.dot_not_mem,
    fun h => (isSubdomain_iff_isLabel h).mp admitted.withSiteNameStart⟩

/-- A base name, alone or with more text behind a hyphen, is the name of an object unless the last
character that it may have is a dot. -/
theorem isObjectName_append_iff (admitted : IsSubdomain site.toList) {suffix : String}
    (hsuffix : suffix = "" ∨ (IsLabelText suffix.toList ∧ suffix.toList.head? = some '-' ∧
      suffix.toList.getLast?.any isAlnum = true))
    (hshort : suffix.toList.length ≤ 236) :
    IsObjectName ((derive site).baseName ++ suffix) ↔
      (derive site).namespaceName.toList[16]? ≠ some '.' := by
  have hlength : ((derive site).baseName ++ suffix).toList.length ≤ 253 := by
    have hbase := length_truncate_le (withSiteNameStart site) baseNameMost
    rw [String.toList_append, List.length_append]
    exact Nat.add_le_add hbase hshort
  rw [IsObjectName, and_iff_left hlength, String.toList_append]
  rcases isSubdomain_truncate_cases admitted.withSiteNameStart 16 with
    ⟨hbase, hdot⟩ | ⟨⟨front, hfront⟩, hdot⟩
  · refine iff_of_true ?_ hdot
    rcases hsuffix with rfl | ⟨htext, -, hlast⟩
    · rw [String.toList_empty, List.append_nil]
      exact hbase
    · exact hbase.append htext hlast
  · refine iff_of_false (fun h => ?_) (not_not_intro hdot)
    rw [show (derive site).baseName.toList = front ++ ['.'] from hfront] at h
    rcases hsuffix with rfl | ⟨-, hhead, -⟩
    · rw [String.toList_empty, List.append_nil] at h
      exact not_isSubdomain_append_dot h
    · obtain ⟨rest, hrest⟩ := List.head?_eq_some_iff.mp hhead
      rw [hrest, List.append_assoc] at h
      exact absurd (isSubdomain_append_cons.mp h).2.head (by decide)

/-- When the API admits the names of a site whose own name it admits and whose namespace has not too
long a name. The lengths are right; the namespace has a label for a name exactly if the site has no
dot in its name, and the other names are names of objects exactly if the base name is not cut right
after a dot. So all of them are admitted exactly if the site has no dot in its name. -/
theorem admitted_iff (admitted : IsSubdomain site.toList)
    (accepted : (derive site).validate = .ok ()) :
    (derive site).namespaceName.toList.length ≤ 63 ∧
      (derive site).baseName.toList.length ≤ 17 ∧
      (IsLabel (derive site).namespaceName.toList ↔ '.' ∉ site.toList) ∧
      (IsObjectName (derive site).baseName ↔
        (derive site).namespaceName.toList[16]? ≠ some '.') ∧
      (IsObjectName (derive site).namespacePolicy ↔
        (derive site).namespaceName.toList[16]? ≠ some '.') ∧
      (IsObjectName (derive site).nginxPolicy ↔
        (derive site).namespaceName.toList[16]? ≠ some '.') ∧
      ((derive site).Admitted ↔ '.' ∉ site.toList) := by
  have hnamespace := length_namespaceName_le accepted
  have hlength : (derive site).baseName.toList.length ≤ baseNameMost := length_truncate_le _ _
  have hlabel := isLabel_namespaceName_iff admitted
  have hbase := isObjectName_append_iff admitted (.inl rfl) (by decide)
  rw [String.append_empty] at hbase
  have hnetwork : IsObjectName (derive site).namespacePolicy ↔ _ :=
    isObjectName_append_iff admitted (.inr (by decide)) (by decide)
  have hnginx : IsObjectName (derive site).nginxPolicy ↔ _ :=
    isObjectName_append_iff admitted (.inr (by decide)) (by decide)
  refine ⟨hnamespace, hlength, hlabel, hbase, hnetwork, hnginx, ?_⟩
  refine ⟨fun h => hlabel.mp h.isLabel_namespaceName, fun hdot => ?_⟩
  have hkept : (derive site).namespaceName.toList[16]? ≠ some '.' := fun h =>
    hdot ((dot_mem_withSiteNameStart_iff site).mp (List.mem_of_getElem? h))
  exact ⟨hlabel.mpr hdot, hnamespace, hbase.mpr hkept, hlength, hnetwork.mpr hkept,
    hnginx.mpr hkept⟩

/-- The API admits all names of a site with a long name, whose base name is cut. -/
theorem admitted_iff_of_no_dot :
    IsSubdomain "a-school-in-town".toList ∧ (derive "a-school-in-town").validate = .ok () ∧
      (derive "a-school-in-town").Admitted := by
  have admitted : IsSubdomain "a-school-in-town".toList := by decide +kernel
  have accepted : (derive "a-school-in-town").validate = .ok () := rfl
  obtain ⟨-, -, -, -, -, -, hiff⟩ := admitted_iff admitted accepted
  exact ⟨admitted, accepted, hiff.mpr (by decide)⟩

/-- A dot in the name of a site is kept in its namespace, and it can be the last character of its
base name. -/
theorem not_admitted_of_dot :
    IsSubdomain "abcdefghijkl.mno".toList ∧ (derive "abcdefghijkl.mno").validate = .ok () ∧
      (derive "abcdefghijkl.mno").baseName = "lms-abcdefghijkl." ∧
      ¬ IsLabel (derive "abcdefghijkl.mno").namespaceName.toList ∧
      ¬ IsObjectName (derive "abcdefghijkl.mno").baseName ∧
      ¬ IsObjectName (derive "abcdefghijkl.mno").namespacePolicy ∧
      ¬ IsObjectName (derive "abcdefghijkl.mno").nginxPolicy := by
  decide +kernel

end SiteNames

end SiteOperator

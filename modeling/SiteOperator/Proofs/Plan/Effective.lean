import SiteOperator.Proofs.Plan.Labels
import SiteOperator.Proofs.Plan.Outcome

/-!
# What effective specs hold

An effective spec is the merge of the blocks of its kind, with a few fields that the operator
manages: the labels and the affinity, the fields of the workload that name the supporting
dependents, and the name of the site in the workload's notifications. Every other field is as in the
merge (`Effective`).
-/

namespace SiteOperator

/-- What is laid over a text takes its place, unless it is null. -/
theorem Laid.of_text {path : List String} {value : Json} {text : String} {result : Option Json}
    (laid : Laid path value (some (.string text)) result) :
    value = .null ∧ result = some (.string text) ∨ value ≠ .null ∧ result = some value := by
  cases laid with
  | null => exact Or.inl ⟨rfl, rfl⟩
  | fresh hvalue | replaced hvalue => exact Or.inr ⟨hvalue, rfl⟩

/-- What stands under a key after a layer does not depend on the template's other keys. -/
theorem layerSpec_congr {root : String} {joined : List String}
    {override template template' merged merged' : Fields} {key : String}
    (sorted : Entries.Sorted override)
    (h : layerSpec root joined override template = .ok merged)
    (h' : layerSpec root joined override template' = .ok merged')
    (hkey : template.at? key = template'.at? key) : merged.at? key = merged'.at? key := by
  cases hoverride : override.at? key with
  | none => rw [layerSpec_ok_of_none h hoverride, layerSpec_ok_of_none h' hoverride, hkey]
  | some value =>
      have hentry := layerSpec_ok sorted h hoverride
      rw [hkey] at hentry
      exact Except.ok.inj (hentry.symm.trans (layerSpec_ok sorted h' hoverride))

theorem at?_withNotifyUuid_of_ne (site : String) (spec : Fields) {key : String}
    (h : key ≠ notifyField) : (withNotifyUuid site spec).at? key = spec.at? key := by
  unfold withNotifyUuid
  split
  · split
    · rfl
    · exact Entries.at?_put_of_ne spec _ h
  · rfl

def NotifiesUnnamed (spec notify : Fields) : Prop :=
  spec.at? notifyField = some (.object notify) ∧ notify.at? "uuid" = none

theorem notifiesUnnamed_congr {spec spec' : Fields}
    (h : spec.at? notifyField = spec'.at? notifyField) :
    NotifiesUnnamed spec = NotifiesUnnamed spec' := by
  funext notify
  rw [NotifiesUnnamed, h, NotifiesUnnamed]

theorem at?_withNotifyUuid (site : String) (spec : Fields) :
    (∀ notify, NotifiesUnnamed spec notify → (withNotifyUuid site spec).at? notifyField =
        some (.object (Entries.put notify "uuid" (.string site)))) ∧
      ((∀ notify, ¬ NotifiesUnnamed spec notify) →
        (withNotifyUuid site spec).at? notifyField = spec.at? notifyField) := by
  unfold withNotifyUuid
  split
  · rename_i notify hnotify
    have hhas : Entries.has notify "uuid" = true ↔ Entries.at? notify "uuid" ≠ none := by
      rw [Entries.has, Option.isSome_iff_ne_none]
    split
    · rename_i huuid
      refine ⟨?_, fun _ => rfl⟩
      rintro other ⟨hother, hnone⟩
      cases hnotify.symm.trans hother
      exact absurd hnone (hhas.mp huuid)
    · rename_i huuid
      rw [hhas, Decidable.not_not] at huuid
      refine ⟨?_, fun none => absurd ⟨hnotify, huuid⟩ (none notify)⟩
      rintro other ⟨hother, -⟩
      cases hnotify.symm.trans hother
      exact Entries.at?_put_self spec notifyField _
  · rename_i hobject
    exact ⟨fun notify unnamed => absurd unnamed.1 (hobject notify), fun _ => rfl⟩

namespace Plan

/-- A field of the workload's spec that names the dependent of a configured kind. -/
def IsLink (template overrides : SpecBlocks) (field : String) : Prop :=
  ∃ kind, isConfigured template overrides kind = true ∧ kind.crossLinkField = some field

/-- What an effective spec holds, compared to the merge of the blocks of its kind. -/
structure Effective (site : String) (composition : Composition) (template overrides : SpecBlocks)
    (kind : DependentKind) (merged spec : Fields) : Prop where
  /-- The operator's blocks stand in front of what the merge has. -/
  blocks : ∀ field ∈ kind.blockFields, spec.at? field =
    some (.string (blockWith (composition.blockOf field) (merged.at? field)))
  /-- The labels of the site come first, then those of the override, then those of the template. -/
  labels : ∀ above below,
    (overrideBlock overrides kind).at? DependentKind.commonLabels = some (.string above) →
    Entries.at? ((template.blocks.get kind).getD []) DependentKind.commonLabels =
      some (.string below) →
    spec.at? DependentKind.commonLabels =
      some (.string (composition.labelBlock ++ "\n" ++ (above ++ "\n" ++ below)))
  /-- The workload names the dependents of the configured kinds, whatever the template says, unless
  the override names others. -/
  links : kind = .moodle → ∀ field, IsLink template overrides field →
    (∀ value, (overrideBlock overrides kind).at? field = some value → value ≠ .null →
      spec.at? field = some value) ∧
    ((∀ value, (overrideBlock overrides kind).at? field = some value → value = .null) →
      spec.at? field = some (.string (SiteNames.derive site).baseName))
  unlinked : kind = .moodle → ∀ supporting field, supporting.crossLinkField = some field →
    isConfigured template overrides supporting = false → spec.at? field = merged.at? field
  notify : kind = .moodle →
    (∀ notify, NotifiesUnnamed merged notify →
      spec.at? notifyField = some (.object (Entries.put notify "uuid" (.string site)))) ∧
    ((∀ notify, ¬ NotifiesUnnamed merged notify) →
      spec.at? notifyField = merged.at? notifyField)
  rest : ∀ key, key ∉ kind.blockFields →
    (kind = .moodle → ¬ IsLink template overrides key ∧ key ≠ notifyField) →
    spec.at? key = merged.at? key

variable {site : String} {labels : Option (Entries String)} {template overrides : SpecBlocks}
  {plan : Plan} {kind : DependentKind} {field : String}

def link (baseName : String) (block : Fields) (kind : DependentKind) : Fields :=
  match kind.crossLinkField with
  | some field => block.put field (.string baseName)
  | none => block

theorem at?_link (baseName : String) (block : Fields) (kind : DependentKind) (field : String) :
    (link baseName block kind).at? field =
      if kind.crossLinkField = some field then some (.string baseName) else block.at? field := by
  unfold link
  cases kind.crossLinkField with
  | none => simp
  | some other => simp [Entries.at?_put, eq_comm]

theorem at?_foldl_link (baseName : String) (kinds : List DependentKind) (block : Fields)
    (field : String) :
    Entries.at? (kinds.foldl (link baseName) block) field =
      if ∃ kind ∈ kinds, kind.crossLinkField = some field then some (.string baseName)
      else block.at? field := by
  induction kinds generalizing block with
  | nil => simp
  | cons kind rest ih =>
      rw [List.foldl_cons, ih, at?_link]
      by_cases hlink : kind.crossLinkField = some field <;> simp [hlink]

theorem at?_linkedMoodleBlock (baseName : String) (template overrides : SpecBlocks)
    (field : String) :
    (IsLink template overrides field →
        (linkedMoodleBlock baseName template overrides).at? field = some (.string baseName)) ∧
      (¬ IsLink template overrides field →
        (linkedMoodleBlock baseName template overrides).at? field =
          Entries.at? ((template.blocks.get .moodle).getD []) field) := by
  have hlinks : (∃ kind ∈ DependentKind.supporting.filter (isConfigured template overrides),
      kind.crossLinkField = some field) ↔ IsLink template overrides field := by
    constructor
    · rintro ⟨kind, hkind, hfield⟩
      exact ⟨kind, (List.mem_filter.mp hkind).2, hfield⟩
    · rintro ⟨kind, hconfigured, hfield⟩
      refine ⟨kind, List.mem_filter.mpr ⟨?_, hconfigured⟩, hfield⟩
      cases kind with
      | moodle => cases hfield
      | postgres | keydb | nfs => simp [DependentKind.supporting]
  have hat : (linkedMoodleBlock baseName template overrides).at? field = _ :=
    at?_foldl_link baseName (DependentKind.supporting.filter (isConfigured template overrides))
      ((template.blocks.get .moodle).getD []) field
  rw [hat]
  exact ⟨fun hlink => if_pos (hlinks.mpr hlink), fun hlink => if_neg (mt hlinks.mp hlink)⟩

/-- The fields that name the supporting dependents are managed in this way only. -/
theorem crossLinkField_ne {supporting : DependentKind}
    (h : supporting.crossLinkField = some field) :
    field ∉ DependentKind.moodle.blockFields ∧ field ∉ DependentKind.moodle.joinedFields ∧
      field ≠ notifyField := by
  cases supporting with
  | moodle => cases h
  | postgres | keydb | nfs =>
      cases h
      simp [DependentKind.blockFields, DependentKind.affinityFields, DependentKind.joinedFields,
        DependentKind.commonLabels, notifyField]

theorem not_isLink_of_not_configured {supporting : DependentKind}
    (h : supporting.crossLinkField = some field)
    (hconfigured : isConfigured template overrides supporting = false) :
    ¬ IsLink template overrides field := by
  rintro ⟨other, hother, hfield⟩
  have hsame : other = supporting := by
    cases supporting <;> cases other <;>
      simp [DependentKind.crossLinkField, ← h] at hfield h ⊢
  rw [hsame, hconfigured] at hother
  cases hother

theorem notifyField_not_mem_blockFields (kind : DependentKind) :
    notifyField ∉ kind.blockFields := by
  cases kind <;>
    simp [DependentKind.blockFields, DependentKind.affinityFields, DependentKind.commonLabels,
      notifyField]

/-- What an effective spec holds says nothing about the merge at the fields that name the
supporting dependents. -/
theorem Effective.congr {composition : Composition} {merged merged' spec : Fields}
    (effective : Effective site composition template overrides kind merged spec)
    (h : ∀ key, (kind = .moodle → ¬ IsLink template overrides key) →
      merged.at? key = merged'.at? key) :
    Effective site composition template overrides kind merged' spec where
  blocks field hfield := by
    rw [← h field]
    · exact effective.blocks field hfield
    · rintro rfl ⟨supporting, -, hlink⟩
      exact (crossLinkField_ne hlink).1 hfield
  labels := effective.labels
  links := effective.links
  unlinked hkind supporting field hfield hconfigured := by
    rw [← h field fun _ => not_isLink_of_not_configured hfield hconfigured]
    exact effective.unlinked hkind supporting field hfield hconfigured
  notify hkind := by
    have hnotify : merged.at? notifyField = merged'.at? notifyField := by
      refine h notifyField ?_
      rintro - ⟨supporting, -, hlink⟩
      exact (crossLinkField_ne hlink).2.2 rfl
    rw [← notifiesUnnamed_congr hnotify, ← hnotify]
    exact effective.notify hkind
  rest key hblock hmanaged := by
    rw [← h key fun hkind => (hmanaged hkind).1]
    exact effective.rest key hblock hmanaged

theorem kindSpec_ok {spec : Fields}
    (h : kindSpec site template overrides labels kind = .ok (some spec)) :
    ∃ merged, mergedBlock site template overrides kind = .ok merged ∧
      (Composition.ofSite site labels).inject kind merged = .ok spec := by
  by_cases wanted : Wanted template overrides kind
  · rw [kindSpec_of_wanted labels wanted] at h
    obtain ⟨written, hwritten, heq⟩ := except_map_eq_ok_iff.mp h
    cases heq
    exact except_bind_eq_ok_iff.mp hwritten
  · cases (kindSpec_of_not_wanted labels wanted).symm.trans h

theorem at?_templateBlock {key : String}
    (hlink : kind = .moodle → ¬ IsLink template overrides key) :
    (templateBlock site template overrides kind).at? key =
      Entries.at? ((template.blocks.get kind).getD []) key := by
  by_cases hmoodle : kind = .moodle
  · subst hmoodle
    exact (at?_linkedMoodleBlock _ template overrides key).2 (hlink rfl)
  · rw [templateBlock_of_supporting hmoodle]

/-- A field that names a supporting dependent holds the name of the dependent, unless the override
has something else than null to say. -/
theorem at?_merged_of_isLink {merged : Fields} (ordered : overrides.Ordered)
    (hmerged : mergedBlock site template overrides .moodle = .ok merged)
    (hlink : IsLink template overrides field) :
    (∀ value, (overrideBlock overrides .moodle).at? field = some value → value ≠ .null →
        merged.at? field = some value) ∧
      ((∀ value, (overrideBlock overrides .moodle).at? field = some value → value = .null) →
        merged.at? field = some (.string (SiteNames.derive site).baseName)) := by
  have htemplate : (templateBlock site template overrides .moodle).at? field =
      some (.string (SiteNames.derive site).baseName) :=
    (at?_linkedMoodleBlock _ template overrides field).1 hlink
  obtain ⟨supporting, -, hfield⟩ := hlink
  have hjoined := (crossLinkField_ne hfield).2.1
  rcases layerSpec_at? (ordered.getD .moodle).sorted hmerged field with
    ⟨hnone, hkept⟩ | ⟨value, hvalue, ⟨text, hjoins, -⟩ | ⟨-, laid⟩⟩
  · refine ⟨fun value hvalue => ?_, fun _ => hkept.trans htemplate⟩
    cases hnone.symm.trans hvalue
  · exact absurd hjoins.1 hjoined
  · rw [htemplate] at laid
    rcases laid.of_text with ⟨hnull, hresult⟩ | ⟨hnull, hresult⟩
    · refine ⟨fun other hother hne => ?_, fun _ => hresult⟩
      cases hvalue.symm.trans hother
      exact absurd hnull hne
    · refine ⟨fun other hother _ => ?_, fun hall => absurd (hall value hvalue) hnull⟩
      cases hvalue.symm.trans hother
      exact hresult

theorem at?_merged_commonLabels {merged : Fields} {above below : String}
    (ordered : overrides.Ordered)
    (hmerged : mergedBlock site template overrides kind = .ok merged)
    (habove : (overrideBlock overrides kind).at? DependentKind.commonLabels =
      some (.string above))
    (hbelow : Entries.at? ((template.blocks.get kind).getD []) DependentKind.commonLabels =
      some (.string below)) :
    merged.at? DependentKind.commonLabels = some (.string (above ++ "\n" ++ below)) := by
  have hlink : kind = .moodle → ¬ IsLink template overrides DependentKind.commonLabels := by
    rintro - ⟨supporting, -, hfield⟩
    exact (crossLinkField_ne hfield).1 List.mem_cons_self
  have hjoined : DependentKind.commonLabels ∈ kind.joinedFields := by
    cases kind <;> simp [DependentKind.joinedFields]
  have hentry := layerSpec_ok (ordered.getD kind).sorted hmerged habove
  rw [at?_templateBlock hlink, hbelow,
    layerEntry_of_joins ⟨hjoined, above, below, rfl, rfl, rfl⟩] at hentry
  exact (Except.ok.inj hentry).symm

theorem effective_of_inject {composition : Composition} {merged spec : Fields}
    (ordered : overrides.Ordered)
    (hmerged : mergedBlock site template overrides kind = .ok merged)
    (hinject : composition.inject kind merged = .ok spec) :
    Effective site composition template overrides kind merged
      (if kind = .moodle then withNotifyUuid site spec else spec) := by
  have hspec : ∀ key, spec.at? key =
      if key ∈ kind.blockFields then
        some (.string (blockWith (composition.blockOf key) (merged.at? key)))
      else merged.at? key := by
    rcases composition.inject_cases kind merged with
      ⟨written, hwritten, -, hat⟩ | ⟨field, other, hfault, -⟩
    · cases hinject.symm.trans hwritten
      exact hat
    · cases hinject.symm.trans hfault
  have hfinal : ∀ key, (kind = .moodle → key ≠ notifyField) →
      Entries.at? (if kind = .moodle then withNotifyUuid site spec else spec) key =
        spec.at? key := by
    intro key hkey
    split
    · exact at?_withNotifyUuid_of_ne site spec (hkey ‹_›)
    · rfl
  have hblocks : ∀ field ∈ kind.blockFields,
      Entries.at? (if kind = .moodle then withNotifyUuid site spec else spec) field =
        some (.string (blockWith (composition.blockOf field) (merged.at? field))) := by
    intro field hfield
    rw [hfinal, hspec, if_pos hfield]
    rintro - rfl
    exact notifyField_not_mem_blockFields kind hfield
  refine ⟨hblocks, ?_, ?_, ?_, ?_, ?_⟩
  · intro above below habove hbelow
    rw [hblocks _ List.mem_cons_self, at?_merged_commonLabels ordered hmerged habove hbelow]
    rfl
  · rintro rfl field hlink
    obtain ⟨supporting, -, hfield⟩ := id hlink
    obtain ⟨hblock, -, hnotify⟩ := crossLinkField_ne hfield
    rw [hfinal field fun _ => hnotify, hspec, if_neg hblock]
    exact at?_merged_of_isLink ordered hmerged hlink
  · rintro rfl supporting field hfield _
    obtain ⟨hblock, -, hnotify⟩ := crossLinkField_ne hfield
    rw [hfinal field fun _ => hnotify, hspec, if_neg hblock]
  · rintro rfl
    have hkept : spec.at? notifyField = merged.at? notifyField := by
      rw [hspec, if_neg (notifyField_not_mem_blockFields .moodle)]
    rw [if_pos rfl, ← notifiesUnnamed_congr hkept, ← hkept]
    exact at?_withNotifyUuid site spec
  · intro key hblock hmanaged
    rw [hfinal key fun hkind => (hmanaged hkind).2, hspec, if_neg hblock]

/-- The effective specs of a plan. They exist because the blocks of each kind can be merged, where
the template's block of the workload already names the supporting dependents. What they hold can be
said in terms of this merge, and just as well in terms of the merge of the template's own block. The
operator's blocks in them show the labels and the affinity of the site. -/
theorem effective_of_compose (ordered : overrides.Ordered)
    (h : compose site labels template overrides = .ok plan) {d : DependentSpec}
    (hd : plan.dependent? kind = some d) :
    plan.composition.Shows site labels ∧
      (∃ merged, mergedBlock site template overrides kind = .ok merged ∧
        Effective site plan.composition template overrides kind merged d.spec) ∧
      ∀ merged, layerSpec kind.specKey kind.joinedFields (overrideBlock overrides kind)
          ((template.blocks.get kind).getD []) = .ok merged →
        Effective site plan.composition template overrides kind merged d.spec := by
  have hcomposition := compose_composition h
  obtain ⟨spec, hspec, hdependent⟩ := compose_ok h kind
  rw [hd] at hdependent
  obtain ⟨spec, rfl, rfl⟩ := Option.map_eq_some_iff.mp hdependent.symm
  obtain ⟨merged, hmerged, hinject⟩ := kindSpec_ok hspec
  have effective := effective_of_inject ordered hmerged hinject
  rw [hcomposition]
  refine ⟨Composition.shows_ofSite site labels, ⟨merged, hmerged, effective⟩, ?_⟩
  refine fun raw hraw => effective.congr fun key hlink => ?_
  exact layerSpec_congr (ordered.getD kind).sorted hmerged hraw (at?_templateBlock hlink)

def relabelling : Option (Entries String) :=
  some [("lms.krestomat.io/lms-name", "x"), ("tier", "1")]

def relinking : SpecBlocks :=
  ⟨⟨some [("commonLabels", .string "t"), ("moodlePostgresMetaName", .string "x")], some [], none,
    none⟩, none⟩

def labelling : SpecBlocks := ⟨⟨some [("commonLabels", .string "o")], none, none, none⟩, none⟩

/-- The workload of a site with a database: the template cannot name another database or another
site, and the labels of the site stand above those of the override and the template. -/
theorem effective_of_compose_with_database :
    ∃ plan d, compose "a" relabelling relinking labelling = .ok plan ∧
      plan.dependent? .moodle = some d ∧
      d.spec.at? "moodlePostgresMetaName" = some (.string "lms-a") ∧
      d.spec.at? "commonLabels" = some (.string
        ("lms.krestomat.io/lms-name: a\n" ++
          "lms.krestomat.io/meta-operator-name: lms-moodle-operator\n" ++ "tier: '1'\n" ++ "\n" ++
          ("o" ++ "\n" ++ "t"))) ∧
      d.spec.at? "phpFpmAffinity" = some (.string (colocation " a\n")) := by
  have ordered : labelling.Ordered := by
    intro kind fields h
    cases kind with
    | moodle =>
        cases h
        exact Json.Ordered.empty.put "commonLabels" (.string "o")
    | postgres | keydb | nfs => cases h
  obtain ⟨moodle, postgres, hplan⟩ : ∃ moodle postgres,
      compose "a" relabelling relinking labelling =
        .ok (ofSpecs "a" relabelling ⟨some moodle, some postgres, none, none⟩ false) :=
    ⟨_, _, rfl⟩
  obtain ⟨d, hd⟩ := compose_workload hplan
  obtain ⟨shows, -, effective⟩ := effective_of_compose ordered hplan hd
  replace effective := effective [("commonLabels", .string ("o" ++ "\n" ++ "t")),
    ("moodlePostgresMetaName", .string "x")] rfl
  have hlabels : (Composition.ofSite "a" relabelling).labels =
      [("lms.krestomat.io/lms-name", "a"),
        ("lms.krestomat.io/meta-operator-name", "lms-moodle-operator"), ("tier", "1")] := by
    decide +kernel
  obtain ⟨-, line, hblock, hline⟩ : LabelBlock _ _ := hlabels ▸ shows.labelBlock
  refine ⟨_, d, hplan, hd, (effective.links rfl _ ⟨.postgres, rfl, rfl⟩).2 ?_, ?_, ?_⟩
  · intro value hvalue
    cases hvalue
  · have hsite := hline ("lms.krestomat.io/lms-name", "a") (by simp) (by decide +kernel)
      (by decide +kernel) (by decide +kernel)
    have hoperator := hline ("lms.krestomat.io/meta-operator-name", "lms-moodle-operator")
      (by simp) (by decide +kernel) (by decide +kernel) (by decide +kernel)
    have htier := hline ("tier", "1") (by simp) (by decide +kernel) (by decide +kernel)
      (by decide +kernel)
    refine (effective.labels "o" "t" rfl rfl).trans ?_
    rw [hblock, List.map_cons, List.map_cons, List.map_cons, hsite, hoperator, htier]
    rfl
  · have haffinity := shows.affinityBlock.word (by decide +kernel)
    refine (effective.blocks "phpFpmAffinity" (by decide)).trans ?_
    exact congrArg (some ∘ Json.string) haffinity

end Plan

end SiteOperator

import SiteOperator.Proofs.Plan.Outcome

/-!
# What the spec of a kind depends on

The spec of a kind is composed from the blocks of this kind. Of the other kinds it takes nothing but
which of them are configured, and only the spec of the workload does so, as it names them
(`linkedMoodleBlock_congr`). Two sites that agree in this much (`AgreeOn`) get the same spec of the
kind or the same fault (`AgreeOn.kindSpec_eq`), whatever else they say.
-/

namespace SiteOperator

namespace Plan

/-- Template and overrides say the same about a kind as another pair does: its two blocks are the
same, and for the workload the same supporting kinds are configured. -/
structure AgreeOn (kind : DependentKind) (template overrides template' overrides' : SpecBlocks) :
    Prop where
  template_eq : template.blocks.get kind = template'.blocks.get kind
  overrides_eq : overrides.blocks.get kind = overrides'.blocks.get kind
  configured_eq : kind = .moodle → ∀ supporting ∈ DependentKind.supporting,
    isConfigured template overrides supporting = isConfigured template' overrides' supporting

variable {site : String} {labels : Option (Entries String)}
  {template overrides template' overrides' : SpecBlocks} {plan plan' : Plan} {kind : DependentKind}

/-- Which layer configures a supporting dependent, and how, does not show in the workload's
block. -/
theorem linkedMoodleBlock_congr (baseName : String)
    (block : template.blocks.get .moodle = template'.blocks.get .moodle)
    (configured : ∀ supporting ∈ DependentKind.supporting,
      isConfigured template overrides supporting = isConfigured template' overrides' supporting) :
    linkedMoodleBlock baseName template overrides =
      linkedMoodleBlock baseName template' overrides' := by
  have hlinked : DependentKind.supporting.filter (isConfigured template overrides) =
      DependentKind.supporting.filter (isConfigured template' overrides') :=
    List.filter_congr configured
  rw [linkedMoodleBlock, linkedMoodleBlock, hlinked, block]

namespace AgreeOn

variable (agree : AgreeOn kind template overrides template' overrides')

include agree

theorem templateBlock_eq (site : String) :
    templateBlock site template overrides kind = templateBlock site template' overrides' kind := by
  by_cases hmoodle : kind = .moodle
  · subst hmoodle
    exact linkedMoodleBlock_congr _ agree.template_eq (agree.configured_eq rfl)
  · rw [templateBlock_of_supporting hmoodle, templateBlock_of_supporting hmoodle,
      agree.template_eq]

theorem mergedBlock_eq (site : String) :
    mergedBlock site template overrides kind = mergedBlock site template' overrides' kind := by
  rw [mergedBlock, mergedBlock, overrideBlock, overrideBlock, agree.templateBlock_eq site,
    agree.overrides_eq]

theorem wanted_iff : Wanted template overrides kind ↔ Wanted template' overrides' kind := by
  rw [Wanted, Wanted, isConfigured, isConfigured, agree.template_eq, agree.overrides_eq]

/-- The kind gets the same spec or the same fault, or no spec in both cases. -/
theorem kindSpec_eq (site : String) (labels : Option (Entries String)) :
    kindSpec site template overrides labels kind =
      kindSpec site template' overrides' labels kind := by
  by_cases wanted : Wanted template overrides kind
  · rw [kindSpec_of_wanted labels wanted, kindSpec_of_wanted labels (agree.wanted_iff.mp wanted),
      agree.mergedBlock_eq site]
  · rw [kindSpec_of_not_wanted labels wanted,
      kindSpec_of_not_wanted labels (mt agree.wanted_iff.mpr wanted)]

end AgreeOn

/-- Blocks do not leak into one another: the dependent of a kind does not depend on what the blocks
of other kinds and the switch for the network policies say. Only the workload shows which other
kinds are configured. -/
theorem dependent?_eq_of_agreeOn (agree : AgreeOn kind template overrides template' overrides')
    (h : compose site labels template overrides = .ok plan)
    (h' : compose site labels template' overrides' = .ok plan') :
    plan.dependent? kind = plan'.dependent? kind := by
  obtain ⟨spec, hspec, hdependent⟩ := compose_ok h kind
  obtain ⟨spec', hspec', hdependent'⟩ := compose_ok h' kind
  rw [agree.kindSpec_eq site labels, hspec'] at hspec
  cases hspec
  rw [hdependent, hdependent']

/-- The workload does not show whether the template or the site asks for the database, nor what for,
nor whether the network policies are left out. -/
theorem dependent?_eq_of_moved_block :
    ∃ plan plan',
      compose "a" none ⟨⟨none, some [("postgresSize", .string "5Gi")], none, none⟩, some true⟩
        .empty = .ok plan ∧
      compose "a" none .empty ⟨⟨none, some [], none, none⟩, none⟩ = .ok plan' ∧
      plan ≠ plan' ∧ plan.dependent? .moodle = plan'.dependent? .moodle := by
  obtain ⟨moodle, postgres, hplan⟩ : ∃ moodle postgres, compose "a" none
      ⟨⟨none, some [("postgresSize", .string "5Gi")], none, none⟩, some true⟩ .empty =
        .ok (ofSpecs "a" none ⟨some moodle, some postgres, none, none⟩ true) := ⟨_, _, rfl⟩
  obtain ⟨moodle', postgres', hplan'⟩ : ∃ moodle postgres, compose "a" none .empty
      ⟨⟨none, some [], none, none⟩, none⟩ =
        .ok (ofSpecs "a" none ⟨some moodle, some postgres, none, none⟩ false) := ⟨_, _, rfl⟩
  have agree : AgreeOn .moodle
      ⟨⟨none, some [("postgresSize", .string "5Gi")], none, none⟩, some true⟩ .empty .empty
      ⟨⟨none, some [], none, none⟩, none⟩ := by
    refine ⟨rfl, rfl, fun _ supporting _ => ?_⟩
    cases supporting <;> rfl
  refine ⟨_, _, hplan, hplan', ?_, dependent?_eq_of_agreeOn agree hplan hplan'⟩
  exact fun heq => Bool.noConfusion (congrArg omitPolicies heq)

end Plan

end SiteOperator

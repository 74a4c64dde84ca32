import SiteOperator.Proofs.Layering.Conflicts
import SiteOperator.Proofs.Plan.Composed
import SiteOperator.Proofs.Plan.Inject

/-!
# What can be composed

A plan is composed kind by kind, and each kind has a spec of its own (`kindSpec`): the override is
laid over the template's block, and the operator writes its blocks into the result. So a plan can be
composed if and only if every kind that the site has can be (`Composable`). The fault of a plan that
cannot be composed is that of the first kind that cannot, and it tells what is wrong with it
(`Refused`).
-/

namespace SiteOperator

theorem SpecBlocks.Ordered.getD {spec : SpecBlocks} (ordered : spec.Ordered)
    (kind : DependentKind) : (Json.object ((spec.blocks.get kind).getD [])).Ordered := by
  cases h : spec.blocks.get kind with
  | none => exact .empty
  | some fields => exact ordered kind fields h

namespace Plan

/-- A site has the workload always, and a supporting kind if it is configured. -/
def Wanted (template overrides : SpecBlocks) (kind : DependentKind) : Prop :=
  kind = .moodle ∨ isConfigured template overrides kind = true

section Blocks

variable (site : String) (template overrides : SpecBlocks)

/-- The block of a kind that an override is laid over. -/
def templateBlock : DependentKind → Fields
  | .moodle => linkedMoodleBlock (SiteNames.derive site).baseName template overrides
  | kind => (template.blocks.get kind).getD []

def overrideBlock (kind : DependentKind) : Fields := (overrides.blocks.get kind).getD []

/-- The block of a kind before the operator writes its own blocks into it. -/
def mergedBlock (kind : DependentKind) : Except Fault Fields :=
  layerSpec kind.specKey kind.joinedFields (overrideBlock overrides kind)
    (templateBlock site template overrides kind)

def kindSpec (labels : Option (Entries String)) : DependentKind → Except Fault (Option Fields)
  | .moodle => (effectiveSpec .moodle (.ofSite site labels)
      (linkedMoodleBlock (SiteNames.derive site).baseName template overrides)
      (overrides.blocks.get .moodle)).map some
  | kind => supportingSpec (.ofSite site labels) template overrides kind

/-- Override and template of a kind do not conflict, and the fields that the operator writes its
blocks into are absent, null or texts. -/
structure Composable (kind : DependentKind) : Prop where
  agrees : ∀ path above below, ¬ ConflictsAt (overrideBlock overrides kind)
    (templateBlock site template overrides kind) path above below
  textual : ∀ merged, mergedBlock site template overrides kind = .ok merged →
    ∀ field ∈ kind.blockFields, Textual (merged.at? field)

/-- The fault of a kind that cannot be composed: a conflict of override and template, or else the
first field that the operator cannot write its block into. -/
inductive Refused (kind : DependentKind) : Fault → Prop where
  | conflict {path : List String} {above below : Json}
      (h : ConflictsAt (overrideBlock overrides kind) (templateBlock site template overrides kind)
        path above below) :
      Refused kind (.typeMismatch (kind.specKey :: path) below.type above.type)
  | field {merged : Fields} {field : String} {other : Json}
      (agrees : ∀ path above below, ¬ ConflictsAt (overrideBlock overrides kind)
        (templateBlock site template overrides kind) path above below)
      (hmerged : mergedBlock site template overrides kind = .ok merged)
      (first : IsFirst (fun field => ¬ Textual (merged.at? field)) kind.blockFields field)
      (hother : merged.at? field = some other) :
      Refused kind (.render field ("expected a string, found " ++ other.type.name))

end Blocks

variable {site : String} {labels : Option (Entries String)} {template overrides : SpecBlocks}
  {plan : Plan} {kind : DependentKind} {fault : Fault}

theorem effectiveSpec_eq (kind : DependentKind) (composition : Composition) (block : Fields)
    (override : Option Fields) :
    effectiveSpec kind composition block override =
      layerSpec kind.specKey kind.joinedFields (override.getD []) block >>=
        composition.inject kind := by
  cases override <;> rfl

theorem kindSpec_of_supporting (labels : Option (Entries String)) (h : kind ≠ .moodle) :
    kindSpec site template overrides labels kind =
      supportingSpec (.ofSite site labels) template overrides kind := by
  cases kind with
  | moodle => exact absurd rfl h
  | postgres | keydb | nfs => rfl

theorem templateBlock_of_supporting (h : kind ≠ .moodle) :
    templateBlock site template overrides kind = (template.blocks.get kind).getD [] := by
  cases kind with
  | moodle => exact absurd rfl h
  | postgres | keydb | nfs => rfl

theorem kindSpec_of_wanted (labels : Option (Entries String))
    (wanted : Wanted template overrides kind) :
    kindSpec site template overrides labels kind =
      (mergedBlock site template overrides kind >>=
        (Composition.ofSite site labels).inject kind).map some := by
  by_cases hmoodle : kind = .moodle
  · subst hmoodle
    rw [kindSpec, effectiveSpec_eq]
    rfl
  · rw [kindSpec_of_supporting labels hmoodle, supportingSpec,
      if_pos (wanted.resolve_left hmoodle), effectiveSpec_eq, mergedBlock,
      templateBlock_of_supporting hmoodle]
    rfl

theorem kindSpec_of_not_wanted (labels : Option (Entries String))
    (unwanted : ¬ Wanted template overrides kind) :
    kindSpec site template overrides labels kind = .ok none := by
  obtain ⟨hmoodle, hconfigured⟩ := not_or.mp unwanted
  rw [kindSpec_of_supporting labels hmoodle, supportingSpec, if_neg hconfigured]

/-- A kind that the site has gets a spec if it can be composed, and is refused otherwise. -/
theorem kindSpec_cases (ordered : overrides.Ordered) (labels : Option (Entries String))
    (wanted : Wanted template overrides kind) :
    (Composable site template overrides kind ∧
        ∃ spec, kindSpec site template overrides labels kind = .ok (some spec)) ∨
      ¬ Composable site template overrides kind ∧
        ∃ fault, kindSpec site template overrides labels kind = .error fault ∧
          Refused site template overrides kind fault := by
  rw [kindSpec_of_wanted labels wanted]
  cases hmerged : mergedBlock site template overrides kind with
  | error fault =>
      obtain ⟨path, above, below, first, rfl⟩ :=
        layerSpec_error_conflict (ordered.getD kind) hmerged
      exact Or.inr ⟨fun composable => composable.agrees path above below first.clash, _, rfl,
        .conflict first.clash⟩
  | ok merged =>
      have agrees := not_conflictsAt_of_layerSpec (ordered.getD kind) hmerged
      rcases (Composition.ofSite site labels).inject_cases kind merged with
        ⟨written, hwritten, htextual, -⟩ | ⟨field, other, hfault, hfirst, hother⟩
      · refine Or.inl ⟨⟨agrees, ?_⟩, written, congrArg (Except.map some) hwritten⟩
        intro other hother
        rw [← Except.ok.inj (hmerged.symm.trans hother)]
        exact htextual
      · refine Or.inr ⟨fun composable => ?_, _, congrArg (Except.map some) hfault,
          .field agrees hmerged hfirst hother⟩
        exact hfirst.holds (composable.textual merged hmerged field hfirst.mem)

theorem exists_kindSpec_error_iff (ordered : overrides.Ordered)
    (labels : Option (Entries String)) :
    (∃ fault, kindSpec site template overrides labels kind = .error fault) ↔
      Wanted template overrides kind ∧ ¬ Composable site template overrides kind := by
  constructor
  · rintro ⟨fault, hfault⟩
    by_cases wanted : Wanted template overrides kind
    · rcases kindSpec_cases ordered labels wanted with ⟨-, spec, hspec⟩ | ⟨refused, -⟩
      · cases hspec.symm.trans hfault
      · exact ⟨wanted, refused⟩
    · cases (kindSpec_of_not_wanted labels wanted).symm.trans hfault
  · rintro ⟨wanted, refused⟩
    rcases kindSpec_cases ordered labels wanted with ⟨composable, -⟩ | ⟨-, fault, hfault, -⟩
    · exact absurd composable refused
    · exact ⟨fault, hfault⟩

theorem compose_error (h : compose site labels template overrides = .error fault) :
    ∃ kind, IsFirst (fun kind => ∃ fault, kindSpec site template overrides labels kind =
        .error fault) [.postgres, .keydb, .nfs, .moodle] kind ∧
      kindSpec site template overrides labels kind = .error fault := by
  have passes {kind : DependentKind} {spec : Option Fields}
      (hspec : kindSpec site template overrides labels kind = .ok spec) :
      ¬ ∃ fault, kindSpec site template overrides labels kind = .error fault := by
    rintro ⟨fault, hfault⟩
    cases hspec.symm.trans hfault
  unfold compose at h
  simp only [except_bind_eq_error_iff] at h
  rcases h with hpostgres | ⟨postgres, hpostgres, hkeydb | ⟨keydb, hkeydb,
    hnfs | ⟨nfs, hnfs, hmoodle | ⟨moodle, -, hnone⟩⟩⟩⟩
  · exact ⟨.postgres, .head ⟨fault, hpostgres⟩, hpostgres⟩
  · exact ⟨.keydb, .tail (passes hpostgres) (.head ⟨fault, hkeydb⟩), hkeydb⟩
  · exact ⟨.nfs, .tail (passes hpostgres) (.tail (passes hkeydb) (.head ⟨fault, hnfs⟩)), hnfs⟩
  · have hmoodle : kindSpec site template overrides labels .moodle = .error fault :=
      except_map_eq_error_iff.mpr hmoodle
    exact ⟨.moodle, .tail (passes hpostgres) (.tail (passes hkeydb) (.tail (passes hnfs)
      (.head ⟨fault, hmoodle⟩))), hmoodle⟩
  · cases hnone

/-- Whatever the blocks hold, the fault of a composition is one of the specs. -/
theorem reason_of_compose_error (h : compose site labels template overrides = .error fault) :
    fault.reason ∈ ["SpecTypeMismatch", "SpecRenderFailed"] := by
  obtain ⟨kind, -, hfault⟩ := compose_error h
  have wanted : Wanted template overrides kind := by
    refine Classical.byContradiction fun unwanted => ?_
    cases (kindSpec_of_not_wanted labels unwanted).symm.trans hfault
  rw [kindSpec_of_wanted labels wanted, except_map_eq_error_iff, except_bind_eq_error_iff] at hfault
  rcases hfault with hmerged | ⟨merged, -, hinject⟩
  · obtain ⟨path, below, above, rfl⟩ := layerSpec_error_typeMismatch hmerged
    exact List.mem_cons_self
  · rcases (Composition.ofSite site labels).inject_cases kind merged with
      ⟨written, hwritten, -⟩ | ⟨field, other, hrefused, -⟩
    · cases hwritten.symm.trans hinject
    · cases hrefused.symm.trans hinject
      exact List.mem_cons_of_mem _ List.mem_cons_self

theorem compose_ok (h : compose site labels template overrides = .ok plan) (kind : DependentKind) :
    ∃ spec, kindSpec site template overrides labels kind = .ok spec ∧
      plan.dependent? kind = spec.map fun spec =>
        ⟨kind, (SiteNames.derive site).baseName, (SiteNames.derive site).namespaceName,
          if kind = .moodle then withNotifyUuid site spec else spec⟩ := by
  obtain ⟨postgres, keydb, nfs, moodle, hpostgres, hkeydb, hnfs, hmoodle, rfl⟩ :=
    compose_eq_ok_iff.mp h
  cases kind with
  | moodle => exact ⟨some moodle, congrArg (Except.map some) hmoodle, rfl⟩
  | postgres => exact ⟨postgres, hpostgres, rfl⟩
  | keydb => exact ⟨keydb, hkeydb, rfl⟩
  | nfs => exact ⟨nfs, hnfs, rfl⟩

/-- What a composition gives. It succeeds if and only if every kind that the site has can be
composed. The plan then has a dependent for each of these kinds and for no other, all with the names
derived from the site. Otherwise the fault is that of the first kind that cannot be composed. -/
theorem compose_outcome (site : String) (labels : Option (Entries String)) (template : SpecBlocks)
    {overrides : SpecBlocks} (ordered : overrides.Ordered) :
    ((∃ plan, compose site labels template overrides = .ok plan) ↔
        ∀ kind, Wanted template overrides kind → Composable site template overrides kind) ∧
      (∀ plan, compose site labels template overrides = .ok plan → ∀ kind,
        (plan.has kind = true ↔ Wanted template overrides kind) ∧
        ∀ d, plan.dependent? kind = some d → d.kind = kind ∧
          d.name = (SiteNames.derive site).baseName ∧
          d.namespaceName = (SiteNames.derive site).namespaceName) ∧
      ∀ fault, compose site labels template overrides = .error fault →
        ∃ kind, IsFirst (fun kind => Wanted template overrides kind ∧
            ¬ Composable site template overrides kind) [.postgres, .keydb, .nfs, .moodle] kind ∧
          Refused site template overrides kind fault := by
  refine ⟨⟨?_, ?_⟩, ?_, ?_⟩
  · rintro ⟨plan, hplan⟩ kind wanted
    obtain ⟨spec, hspec, -⟩ := compose_ok hplan kind
    rcases kindSpec_cases ordered labels wanted with ⟨composable, -⟩ | ⟨-, fault, hfault, -⟩
    · exact composable
    · cases hspec.symm.trans hfault
  · intro composable
    cases h : compose site labels template overrides with
    | ok plan => exact ⟨plan, rfl⟩
    | error fault =>
        obtain ⟨kind, -, hfault⟩ := compose_error h
        obtain ⟨wanted, refused⟩ := (exists_kindSpec_error_iff ordered labels).mp ⟨fault, hfault⟩
        exact absurd (composable kind wanted) refused
  · intro plan hplan kind
    obtain ⟨spec, hspec, hdependent⟩ := compose_ok hplan kind
    refine ⟨?_, ?_⟩
    · rw [has, hdependent, Option.isSome_map]
      by_cases wanted : Wanted template overrides kind
      · rcases kindSpec_cases ordered labels wanted with ⟨-, spec', hspec'⟩ | ⟨-, fault, hfault, -⟩
        · cases hspec.symm.trans hspec'
          exact iff_of_true rfl wanted
        · cases hspec.symm.trans hfault
      · cases hspec.symm.trans (kindSpec_of_not_wanted labels wanted)
        exact iff_of_false Bool.false_ne_true wanted
    · intro d hd
      rw [hdependent] at hd
      obtain ⟨fields, -, rfl⟩ := Option.map_eq_some_iff.mp hd
      exact ⟨rfl, rfl, rfl⟩
  · intro fault h
    obtain ⟨kind, first, hfault⟩ := compose_error h
    have first := first.congr fun _ _ => exists_kindSpec_error_iff ordered labels
    refine ⟨kind, first, ?_⟩
    rcases kindSpec_cases ordered labels first.holds.1 with
      ⟨composable, -⟩ | ⟨-, other, hother, refused⟩
    · exact absurd composable first.holds.2
    · cases hother.symm.trans hfault
      exact refused

/-- A database whose labels are a number is refused. -/
theorem compose_outcome_of_numeric_labels :
    ∃ overrides fault, compose "a" none .empty overrides = .error fault ∧
      fault = .render "commonLabels" "expected a string, found number" ∧
      ∃ kind, IsFirst (fun kind => Wanted .empty overrides kind ∧
          ¬ Composable "a" .empty overrides kind) [.postgres, .keydb, .nfs, .moodle] kind ∧
        Refused "a" .empty overrides kind fault := by
  have ordered : SpecBlocks.Ordered
      ⟨⟨none, some [("commonLabels", .int 5)], none, none⟩, none⟩ := by
    intro kind fields h
    cases kind with
    | postgres =>
        cases h
        exact Json.Ordered.empty.put "commonLabels" (.number _)
    | moodle | keydb | nfs => cases h
  exact ⟨_, .render "commonLabels" "expected a string, found number", rfl, rfl,
    (compose_outcome "a" none .empty ordered).2.2 _ rfl⟩

end Plan

end SiteOperator

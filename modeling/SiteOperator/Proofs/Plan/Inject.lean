import SiteOperator.Composition
import SiteOperator.Proofs.Results

/-!
# Blocks in front of fields

The labels and the affinity of a site are written in front of what some fields of a spec hold. This
works if each of these fields is absent, null or a text (`Textual`), and then changes these fields
only (`Composition.inject_cases`). Otherwise the fault is that of the first field that is not: the
labels come before the affinity, whose fields come in the order in which the kind lists them.
-/

namespace SiteOperator

/-- A field takes a block of text in front of it: it is absent, null or a text. -/
def Textual (value : Option Json) : Prop :=
  ∀ other, value = some other → other = .null ∨ ∃ s, other = .string s

/-- The text of a field that has a block in front of it. -/
def blockWith (block : String) : Option Json → String
  | some (.string s) => block ++ "\n" ++ s
  | _ => block

def notTextual (field : String) (value : Json) : Fault :=
  .render field ("expected a string, found " ++ value.type.name)

theorem heldText_cases (field block : String) (value : Option Json) :
    Textual value ∧ (∃ held, heldText field value = .ok held ∧
        joinLines (some block) held = some (blockWith block value)) ∨
      ¬ Textual value ∧ ∃ other, value = some other ∧
        heldText field value = .error (notTextual field other) := by
  unfold Textual heldText
  split
  · exact Or.inl ⟨by simp, none, rfl, rfl⟩
  · exact Or.inl ⟨by simp, none, rfl, rfl⟩
  · exact Or.inl ⟨by simp, some _, rfl, rfl⟩
  · rename_i other hnull hstring
    refine Or.inr ⟨fun textual => ?_, other, rfl, rfl⟩
    rcases textual other rfl with rfl | ⟨s, rfl⟩
    · exact hnull rfl
    · exact hstring s rfl

/-- A block is written in front of every field of a list, or the first one that is no text refuses
it. -/
theorem prependBlock_cases {fields : List String} (distinct : fields.Nodup) (block : String)
    (spec : Fields) :
    (∃ written, prependBlock block fields spec = (written, none) ∧
        (∀ field ∈ fields, Textual (spec.at? field)) ∧
        ∀ key, written.at? key =
          if key ∈ fields then some (.string (blockWith block (spec.at? key)))
          else spec.at? key) ∨
      ∃ written field other, prependBlock block fields spec =
          (written, some (notTextual field other)) ∧
        IsFirst (fun field => ¬ Textual (spec.at? field)) fields field ∧
        spec.at? field = some other := by
  induction fields generalizing spec with
  | nil => exact Or.inl ⟨spec, rfl, by simp, by simp⟩
  | cons head rest ih =>
      obtain ⟨hhead, hrest⟩ := List.nodup_cons.mp distinct
      rw [prependBlock]
      rcases heldText_cases head block (spec.at? head) with
        ⟨textual, held, hheld, hjoined⟩ | ⟨refused, other, hother, hheld⟩
      · simp only [hheld, hjoined]
        have hlater : ∀ key ∈ rest, Entries.at? (spec.put head (.string
            (blockWith block (spec.at? head)))) key = spec.at? key := by
          rintro key hkey
          refine Entries.at?_put_of_ne spec _ ?_
          rintro rfl
          exact hhead hkey
        rcases ih hrest (spec.put head (.string (blockWith block (spec.at? head)))) with
          ⟨written, hwritten, hall, hat⟩ | ⟨written, field, other, hwritten, hfirst, hother⟩
        · refine Or.inl ⟨written, hwritten, ?_, ?_⟩
          · refine List.forall_mem_cons.mpr ⟨textual, fun field hfield => ?_⟩
            rw [← hlater field hfield]
            exact hall field hfield
          · intro key
            rw [hat, Entries.at?_put]
            by_cases hkey : key = head
            · simp [hkey, hhead]
            · simp [hkey]
        · refine Or.inr ⟨written, field, other, hwritten, ?_, ?_⟩
          · refine IsFirst.tail (fun h => h textual) (hfirst.congr fun key hkey => ?_)
            rw [hlater key hkey]
          · rw [← hlater field hfirst.mem]
            exact hother
      · simp only [hheld]
        exact Or.inr ⟨spec, head, other, rfl, .head refused, hother⟩

namespace DependentKind

/-- The fields of a kind's spec that the operator writes blocks into, in this order. -/
def blockFields (kind : DependentKind) : List String := commonLabels :: kind.affinityFields

theorem nodup_blockFields (kind : DependentKind) : kind.blockFields.Nodup := by
  cases kind <;> simp [blockFields, commonLabels, affinityFields]

end DependentKind

namespace Composition

variable {composition : Composition} {kind : DependentKind}

def blockOf (composition : Composition) (field : String) : String :=
  if field = DependentKind.commonLabels then composition.labelBlock else composition.affinityBlock

/-- The labels and the affinity are written into a spec, and into nothing else than their fields; or
the first of these fields that is no text refuses them. -/
theorem inject_cases (composition : Composition) (kind : DependentKind) (spec : Fields) :
    (∃ written, composition.inject kind spec = .ok written ∧
        (∀ field ∈ kind.blockFields, Textual (spec.at? field)) ∧
        ∀ key, written.at? key =
          if key ∈ kind.blockFields then
            some (.string (blockWith (composition.blockOf key) (spec.at? key)))
          else spec.at? key) ∨
      ∃ field other, composition.inject kind spec = .error (notTextual field other) ∧
        IsFirst (fun field => ¬ Textual (spec.at? field)) kind.blockFields field ∧
        spec.at? field = some other := by
  obtain ⟨hlabels, hdistinct⟩ := List.nodup_cons.mp kind.nodup_blockFields
  have hsingle : [DependentKind.commonLabels].Nodup := List.pairwise_singleton _ _
  unfold inject injectLabels injectAffinity
  rcases prependBlock_cases hsingle composition.labelBlock spec with
    ⟨labelled, hlabelled, htextual, hat⟩ | ⟨_, field, other, hfault, hfirst, hother⟩
  · have hkept : ∀ key ∈ kind.affinityFields, labelled.at? key = spec.at? key := by
      rintro key hkey
      refine (hat key).trans (if_neg fun hmem => ?_)
      rw [List.mem_singleton] at hmem
      exact hlabels (hmem ▸ hkey)
    rw [hlabelled]
    rcases prependBlock_cases hdistinct composition.affinityBlock labelled with
      ⟨written, hwritten, hall, hat'⟩ | ⟨_, field, other, hfault, hfirst, hother⟩
    · refine Or.inl ⟨written, by simp only [hwritten], ?_, fun key => ?_⟩
      · refine List.forall_mem_cons.mpr ⟨htextual _ List.mem_cons_self, fun field hfield => ?_⟩
        rw [← hkept field hfield]
        exact hall field hfield
      · rw [hat', hat]
        by_cases hkey : key = DependentKind.commonLabels
        · subst hkey
          simp [DependentKind.blockFields, blockOf, hlabels]
        · simp [DependentKind.blockFields, blockOf, hkey]
    · refine Or.inr ⟨field, other, by simp only [hfault], ?_, ?_⟩
      · refine IsFirst.tail (fun h => h (htextual _ List.mem_cons_self)) ?_
        exact hfirst.congr fun key hkey => by rw [hkept key hkey]
      · rw [← hkept field hfirst.mem]
        exact hother
  · rw [hfault]
    obtain rfl := List.mem_singleton.mp hfirst.mem
    exact Or.inr ⟨_, other, rfl, .head hfirst.holds, hother⟩

end Composition

end SiteOperator

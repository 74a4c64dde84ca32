import SiteOperator.Proofs.Layering.Overlaid

/-!
# Three layers

Of three layers it does not matter which two are put together first (`layerSpec_assoc`). In both
orders all three can be laid over each other if and only if any two of them agree in the types that
they have (`exists_lower_iff`, `exists_upper_iff`), and what they become under each key is the same
(`Overlaid.assoc`). The results of the first step differ in general, and so do the faults.
-/

namespace SiteOperator

namespace Overlaid

variable {joins : Prop} {top middle base lower upper result result' : Option Json}

/-- A value that is laid over a value other than null becomes one. -/
theorem not_blank {value : Json} (h : Overlaid joins top (some value) result)
    (hvalue : value ≠ .null) : ∃ inner, result = some inner ∧ inner ≠ .null := by
  cases h with
  | kept => exact ⟨_, rfl, hvalue⟩
  | fresh hnew | replaced hnew => exact ⟨_, rfl, hnew⟩
  | joined | merged => exact ⟨_, rfl, by simp⟩

/-- Values meet in the same way whether the upper two are put together first or the lower two. The
induction is on the way in which the lower two meet, and the cases are those of the uppermost value:
it is blank, or it meets both of them in this way. -/
theorem assoc (hlower : Overlaid joins middle base lower)
    (hresult : Overlaid joins top lower result) (hupper : Overlaid joins top middle upper)
    (hresult' : Overlaid joins upper base result') : result = result' := by
  induction hlower generalizing top upper result result' with
  | @kept joins middle base blank =>
      rcases Json.blank_or_exists top with htop | ⟨value, rfl, hvalue⟩
      · rw [hupper.of_blank_top htop] at hresult'
        rw [hresult.of_blank_top htop, hresult'.of_blank_top blank]
      · rw [hupper.of_blank_base hvalue blank] at hresult'
        exact hresult.unique hresult'
  | fresh hmiddle blank =>
      obtain ⟨inner, rfl, hinner⟩ := hupper.not_blank hmiddle
      rw [hresult'.of_blank_base hinner blank]
      exact hresult.unique hupper
  | joined hjoins above below =>
      rcases Json.blank_or_exists top with htop | ⟨value, rfl, hvalue⟩
      · rw [hupper.of_blank_top htop] at hresult'
        rw [hresult.of_blank_top htop]
        exact unique (.joined hjoins above below) hresult'
      · obtain ⟨text, rfl⟩ := Json.exists_string_of_type (hupper.type_eq hvalue (by simp)).symm
        obtain rfl := hupper.unique (.joined hjoins text above)
        rw [hresult.unique (.joined hjoins text (above ++ "\n" ++ below)),
          hresult'.unique (.joined hjoins (text ++ "\n" ++ above) below)]
        simp only [String.append_assoc]
  | @replaced joins middle base hmiddle htype plain apart =>
      obtain rfl := hresult.unique hupper
      rcases Json.blank_or_exists top with htop | ⟨value, rfl, hvalue⟩
      · rw [hupper.of_blank_top htop] at hresult' ⊢
        exact unique (.replaced hmiddle htype plain apart) hresult'
      · have hsame := hupper.type_eq hvalue hmiddle
        obtain rfl := hupper.unique (.replaced hvalue hsame (hsame ▸ plain) (hsame ▸ apart))
        exact unique (.replaced hvalue (htype.trans hsame) (hsame ▸ plain) (hsame ▸ apart)) hresult'
  | merged sorted hfields ih =>
      rcases Json.blank_or_exists top with htop | ⟨value, rfl, hvalue⟩
      · rw [hupper.of_blank_top htop] at hresult'
        rw [hresult.of_blank_top htop]
        exact unique (.merged sorted hfields) hresult'
      · obtain ⟨fields, rfl⟩ := Json.exists_object_of_type (hupper.type_eq hvalue (by simp)).symm
        obtain ⟨uppers, rfl, -, hupper⟩ := hupper.of_objects
        obtain ⟨results, rfl, hsorted, hresult⟩ := hresult.of_objects
        obtain ⟨results', rfl, hsorted', hresult'⟩ := hresult'.of_objects
        refine congrArg (fun fields => some (Json.object fields))
          (hsorted.ext hsorted' fun key => ?_)
        exact ih key (hresult key) (hupper key) (hresult' key)

end Overlaid

section Three

variable {first second first' second' : String} {joined : List String}
  {top middle base lower upper merged merged' : Fields}
  (htop : (Json.object top).Ordered) (hmiddle : (Json.object middle).Ordered)
  (hbase : (Json.object base).Ordered)

include htop hmiddle

/-- If the upper two layers are put together first, the three can be laid over each other if and
only if any two of them agree. -/
theorem exists_upper_iff :
    (∃ upper merged, layerSpec first joined top middle = .ok upper ∧
        layerSpec second joined upper base = .ok merged) ↔
      Json.Agree (some (.object middle)) (some (.object base)) ∧
        Json.Agree (some (.object top)) (some (.object middle)) ∧
        Json.Agree (some (.object top)) (some (.object base)) := by
  constructor
  · rintro ⟨upper, merged, hupper, hmerged⟩
    have agree := (layerSpec_succeeds_iff_agree htop).mp ⟨upper, hupper⟩
    have ordered := ordered_of_layerSpec htop hmiddle hupper
    have agreeBase := (layerSpec_succeeds_iff_agree ordered).mp ⟨merged, hmerged⟩
    obtain ⟨agreeTop, agreeMiddle⟩ :=
      (Json.agree_or_iff agree (typeAt?_of_layerSpec htop hmiddle hupper)).mp
        (Json.agree_comm.mp agreeBase)
    exact ⟨Json.agree_comm.mp agreeMiddle, agree, Json.agree_comm.mp agreeTop⟩
  · rintro ⟨agreeMiddle, agree, agreeTop⟩
    obtain ⟨upper, hupper⟩ := (layerSpec_succeeds_iff_agree htop).mpr agree
    have agreeBase := (Json.agree_or_iff agree (typeAt?_of_layerSpec htop hmiddle hupper)).mpr
      ⟨Json.agree_comm.mp agreeTop, Json.agree_comm.mp agreeMiddle⟩
    have ordered := ordered_of_layerSpec htop hmiddle hupper
    obtain ⟨merged, hmerged⟩ :=
      (layerSpec_succeeds_iff_agree ordered).mpr (Json.agree_comm.mp agreeBase)
    exact ⟨upper, merged, hupper, hmerged⟩

include hbase

/-- The same if the lower two layers are put together first. -/
theorem exists_lower_iff :
    (∃ lower merged, layerSpec first joined middle base = .ok lower ∧
        layerSpec second joined top lower = .ok merged) ↔
      Json.Agree (some (.object middle)) (some (.object base)) ∧
        Json.Agree (some (.object top)) (some (.object middle)) ∧
        Json.Agree (some (.object top)) (some (.object base)) := by
  constructor
  · rintro ⟨lower, merged, hlower, hmerged⟩
    have agree := (layerSpec_succeeds_iff_agree hmiddle).mp ⟨lower, hlower⟩
    have agreeTop := (layerSpec_succeeds_iff_agree htop).mp ⟨merged, hmerged⟩
    exact ⟨agree, (Json.agree_or_iff agree (typeAt?_of_layerSpec hmiddle hbase hlower)).mp agreeTop⟩
  · rintro ⟨agree, agreeTop⟩
    obtain ⟨lower, hlower⟩ := (layerSpec_succeeds_iff_agree hmiddle).mpr agree
    have agreeLower :=
      (Json.agree_or_iff agree (typeAt?_of_layerSpec hmiddle hbase hlower)).mpr agreeTop
    obtain ⟨merged, hmerged⟩ := (layerSpec_succeeds_iff_agree htop).mpr agreeLower
    exact ⟨lower, merged, hlower, hmerged⟩

theorem merged_eq (hlower : layerSpec first joined middle base = .ok lower)
    (hmerged : layerSpec second joined top lower = .ok merged)
    (hupper : layerSpec first' joined top middle = .ok upper)
    (hmerged' : layerSpec second' joined upper base = .ok merged') : merged = merged' := by
  have lowerOrdered := ordered_of_layerSpec hmiddle hbase hlower
  have upperOrdered := ordered_of_layerSpec htop hmiddle hupper
  refine (ordered_of_layerSpec htop lowerOrdered hmerged).sorted.ext
    (ordered_of_layerSpec upperOrdered hbase hmerged').sorted fun key => ?_
  exact (overlaid_of_layerSpec hmiddle hbase hlower key).assoc
    (overlaid_of_layerSpec htop lowerOrdered hmerged key)
    (overlaid_of_layerSpec htop hmiddle hupper key)
    (overlaid_of_layerSpec upperOrdered hbase hmerged' key)

/-- Layering is associative: three objects can be laid over each other from below if and only if
they can from above, and what becomes of them is the same. Only faults differ, and the roots that
these begin with do not matter. -/
theorem layerSpec_assoc (merged : Fields) :
    (∃ lower, layerSpec first joined middle base = .ok lower ∧
        layerSpec second joined top lower = .ok merged) ↔
      ∃ upper, layerSpec first' joined top middle = .ok upper ∧
        layerSpec second' joined upper base = .ok merged := by
  constructor
  · rintro ⟨lower, hlower, hmerged⟩
    obtain ⟨upper, merged', hupper, hmerged'⟩ := (exists_upper_iff htop hmiddle).mpr
      ((exists_lower_iff htop hmiddle hbase).mp ⟨lower, merged, hlower, hmerged⟩)
    obtain rfl := merged_eq htop hmiddle hbase hlower hmerged hupper hmerged'
    exact ⟨upper, hupper, hmerged'⟩
  · rintro ⟨upper, hupper, hmerged'⟩
    obtain ⟨lower, merged', hlower, hmerged⟩ := (exists_lower_iff htop hmiddle hbase).mpr
      ((exists_upper_iff htop hmiddle).mp ⟨upper, merged, hupper, hmerged'⟩)
    obtain rfl := merged_eq htop hmiddle hbase hlower hmerged hupper hmerged'
    exact ⟨lower, hlower, hmerged⟩

end Three

def nestedNulls : Fields :=
  [("a", .object [("x", .object [("k", .null)])]), ("n", .string "m")]

/-- A layer for below `nestedNulls`, with a null where that has an object. -/
def belowNestedNulls : Fields :=
  [("a", .object [("x", .null), ("y", .int 1)]), ("n", .string "t")]

/-- A layer for above `nestedNulls`, with a value where that has a null. -/
def aboveNestedNulls : Fields :=
  [("a", .object [("x", .object [("k", .int 2)]), ("y", .null)]), ("n", .string "o")]

/-- Three layers with nulls in each of them and with texts that are joined. -/
theorem layerSpec_assoc_of_nested_nulls :
    ∃ merged,
      (∃ lower, layerSpec "s" ["n"] nestedNulls belowNestedNulls = .ok lower ∧
        layerSpec "s" ["n"] aboveNestedNulls lower = .ok merged) ∧
      (∃ upper, layerSpec "s" ["n"] aboveNestedNulls nestedNulls = .ok upper ∧
        layerSpec "s" ["n"] upper belowNestedNulls = .ok merged) ∧
      merged =
        [("a", .object [("x", .object [("k", .int 2)]), ("y", .int 1)]),
          ("n", .string "o\nm\nt")] := by
  have htop : (Json.object aboveNestedNulls).Ordered :=
    (Json.Ordered.empty.put "n" (.string "o")).put "a"
      ((Json.Ordered.empty.put "y" .null).put "x" (Json.Ordered.empty.put "k" (.number _)))
  have hmiddle : (Json.object nestedNulls).Ordered :=
    (Json.Ordered.empty.put "n" (.string "m")).put "a"
      (Json.Ordered.empty.put "x" (Json.Ordered.empty.put "k" .null))
  have hbase : (Json.object belowNestedNulls).Ordered :=
    (Json.Ordered.empty.put "n" (.string "t")).put "a"
      ((Json.Ordered.empty.put "y" (.number _)).put "x" .null)
  obtain ⟨lower, merged, hlower, hmerged, hfields⟩ : ∃ lower merged,
      layerSpec "s" ["n"] nestedNulls belowNestedNulls = .ok lower ∧
        layerSpec "s" ["n"] aboveNestedNulls lower = .ok merged ∧
        merged = [("a", .object [("x", .object [("k", .int 2)]), ("y", .int 1)]),
          ("n", .string "o\nm\nt")] := ⟨_, _, rfl, rfl, rfl⟩
  refine ⟨merged, ⟨lower, hlower, hmerged⟩, ?_, hfields⟩
  exact (layerSpec_assoc htop hmiddle hbase merged).mp ⟨lower, hlower, hmerged⟩

end SiteOperator

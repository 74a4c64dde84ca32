import SiteOperator.Proofs.Cluster.Paths

/-!
# Which requests can be sent

A request can be sent if its object has a name and its target is valid. For an object this is the
same question whether the request is about the object or about its status (`Locator.Addressable`).
-/

namespace SiteOperator

namespace Target

def isSendable (cs : List Char) : Bool :=
  (pathPart cs).all isPathChar &&
    (((cs.takeWhile (· ≠ '#')).dropWhile (· ≠ '?')).drop 1).all isQueryChar

theorem isSome_split? (target : String) : (split? target).isSome = isSendable target.toList := by
  simp only [split?, isSendable, takeWhile_takeWhile_eq]
  split <;> simp_all

theorem isSendable_cons {c : Char} (h : isBefore c = true) (cs : List Char) :
    isSendable (c :: cs) = (isPathChar c && isSendable cs) := by
  have hends := Bool.and_eq_true_iff.mp h
  simp only [isSendable, pathPart, List.takeWhile_cons, List.dropWhile_cons, h, hends, if_true,
    List.all_cons, Bool.and_assoc]

theorem isSendable_query (cs : List Char) :
    isSendable ('?' :: cs) = (cs.takeWhile (· ≠ '#')).all isQueryChar := by
  simp [isSendable, pathPart, isBefore]

theorem isSendable_fragment (cs : List Char) : isSendable ('#' :: cs) = true := by
  simp [isSendable, pathPart, isBefore]

theorem all_isQueryChar_append {more : List Char} (h : more.all isQueryChar = true)
    (cs : List Char) :
    ((cs ++ more).takeWhile (· ≠ '#')).all isQueryChar =
      (cs.takeWhile (· ≠ '#')).all isQueryChar := by
  induction cs with
  | nil =>
      refine List.all_eq_true.mpr fun c hc => List.all_eq_true.mp h c ?_
      exact (List.takeWhile_prefix _).subset hc
  | cons c cs ih => by_cases hsign : c = '#' <;> simp_all

/-- What leads to the status of an object is as valid as what leads to the object, even if the path
of the object holds a question mark or a number sign. -/
theorem isSendable_status (cs : List Char) :
    isSendable (cs ++ "/status?".toList) = isSendable (cs ++ "?".toList) := by
  induction cs with
  | nil => decide
  | cons c cs ih =>
      rw [List.cons_append, List.cons_append]
      by_cases hbefore : isBefore c = true
      · rw [isSendable_cons hbefore, isSendable_cons hbefore, ih]
      -- A number sign cuts off both endings, and in a query both are valid.
      · by_cases hsign : c = '#'
        · rw [hsign, isSendable_fragment, isSendable_fragment]
        · obtain rfl : c = '?' := by simpa [isBefore, hsign] using hbefore
          rw [isSendable_query, isSendable_query, all_isQueryChar_append (by decide),
            all_isQueryChar_append (by decide)]

/-- A character that is valid in the path and in the query of a target, and that ends neither. -/
def isPlain (c : Char) : Bool := isBefore c && isPathChar c && isQueryChar c

theorem takeWhile_insert {word : List Char} (plain : word.all isPlain = true)
    (cs rest : List Char) :
    ((cs ++ (word ++ rest)).takeWhile (· ≠ '#')).all isQueryChar =
      ((cs ++ rest).takeWhile (· ≠ '#')).all isQueryChar := by
  induction cs with
  | nil =>
      induction word with
      | nil => rfl
      | cons c word ih =>
          obtain ⟨hc, hword⟩ := Bool.and_eq_true_iff.mp plain
          obtain ⟨⟨⟨hsign, -⟩, -⟩, hquery⟩ : ((¬ c = '#' ∧ ¬ c = '?') ∧ isPathChar c = true) ∧
              isQueryChar c = true := by simpa [isPlain, isBefore] using hc
          simpa [hsign, hquery] using ih hword
  | cons c cs ih => by_cases hsign : c = '#' <;> simp_all

/-- Plain characters make no difference to whether a target is valid, wherever they stand. -/
theorem isSendable_insert {word : List Char} (plain : word.all isPlain = true)
    (cs rest : List Char) : isSendable (cs ++ (word ++ rest)) = isSendable (cs ++ rest) := by
  induction cs with
  | nil =>
      induction word with
      | nil => rfl
      | cons c word ih =>
          obtain ⟨hc, hword⟩ := Bool.and_eq_true_iff.mp plain
          obtain ⟨hfirst, -⟩ := Bool.and_eq_true_iff.mp hc
          obtain ⟨hbefore, hpath⟩ := Bool.and_eq_true_iff.mp hfirst
          simpa [isSendable_cons hbefore, hpath] using ih hword
  | cons c cs ih =>
      rw [List.cons_append, List.cons_append]
      by_cases hbefore : isBefore c = true
      · rw [isSendable_cons hbefore, isSendable_cons hbefore, ih]
      · by_cases hsign : c = '#'
        · rw [hsign, isSendable_fragment, isSendable_fragment]
        · obtain rfl : c = '?' := by simpa [isBefore, hsign] using hbefore
          rw [isSendable_query, isSendable_query, takeWhile_insert plain]

end Target

/-- A request about the object can be sent. -/
def Locator.Addressable (object : Locator) : Prop :=
  object.name ≠ "" ∧ (Target.split? (object.path ++ "?")).isSome = true

instance (object : Locator) : Decidable object.Addressable :=
  inferInstanceAs (Decidable (_ ∧ _))

namespace Request

variable {object : Locator} {body : Json}

theorem isSome_wire?_get : (get object).wire?.isSome = true ↔ object.Addressable := by
  by_cases h : object.name = "" <;> simp [wire?, Request.object, onWire?, h, Locator.Addressable]

theorem isSome_wire?_patch : (patch object body).wire?.isSome = true ↔ object.Addressable := by
  by_cases h : object.name = "" <;> simp [wire?, Request.object, onWire?, h, Locator.Addressable]

theorem isSome_wire?_patchStatus :
    (patchStatus object body).wire?.isSome = true ↔ object.Addressable := by
  have hsame : (Target.split? (object.path ++ "/status?")).isSome =
      (Target.split? (object.path ++ "?")).isSome := by
    rw [Target.isSome_split?, Target.isSome_split?, String.toList_append, String.toList_append]
    exact Target.isSendable_status _
  by_cases h : object.name = "" <;>
    simp [wire?, Request.object, onWire?, h, Locator.Addressable, ← hsame]

theorem not_addressable_of_patch (h : (patch object body).wire? = none) :
    ¬ object.Addressable := by
  rw [← isSome_wire?_patch, h]
  exact nofun

theorem not_addressable_of_patchStatus (h : (patchStatus object body).wire? = none) :
    ¬ object.Addressable := by
  rw [← isSome_wire?_patchStatus, h]
  exact nofun

end Request

end SiteOperator

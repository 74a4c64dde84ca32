import SiteOperator.Status.Draft

/-!
# What a list of conditions says

Two conditions say the same when they have the same content: status, reason and message. The time
of the last transition does not count. `content? conditions type` is the content of the first
condition of a type. Under this view setting a condition is an update of a finite map
(`content?_set`): it does not matter whether the entry was replaced, kept because nothing changed,
or added at the end. `map_untimed_place` says the same of the whole list without its times.

`ReadyHolds` is the part of the view that readiness is about, for sites and dependents alike.
-/

namespace SiteOperator

def Condition.content (c : Condition) : String × Option String × Option String :=
  (c.status, c.reason, c.message)

theorem Condition.differs_eq_false_iff {earlier later : Condition} :
    earlier.differs later = false ↔ earlier.content = later.content := by
  simp [differs, content, and_assoc]

def Condition.untimed (c : Condition) : Condition := { c with lastTransitionTime := none }

theorem Condition.fails_ne_holds : fails ≠ holds := by
  simp [fails, holds]

namespace Conditions

def content? (conditions : Conditions) (type : String) :
    Option (String × Option String × Option String) :=
  (conditions.ofType? type).map Condition.content

@[simp] theorem content?_nil (type : String) : content? [] type = none := rfl

theorem ofType?_cons (c : Condition) (rest : Conditions) (type : String) :
    ofType? (c :: rest) type = if c.type = type then some c else ofType? rest type := by
  by_cases h : c.type = type <;> simp [ofType?, h]

theorem content?_cons (c : Condition) (rest : Conditions) (type : String) :
    content? (c :: rest) type = if c.type = type then some c.content else content? rest type := by
  rw [content?, ofType?_cons]
  split
  · rfl
  · rfl

theorem content?_place (conditions : Conditions) (c : Condition) (type : String) :
    (conditions.place c).1.content? type =
      if c.type = type then some c.content else conditions.content? type := by
  induction conditions with
  | nil => exact content?_cons c [] type
  | cons head rest ih =>
      rw [place]
      by_cases htype : head.type = c.type
      · have hrest : content? (head :: rest) type =
            if c.type = type then some head.content else content? rest type := by
          rw [content?_cons, htype]
        rw [if_pos htype, hrest]
        by_cases hdiffers : head.differs c = true
        · rw [if_pos hdiffers, content?_cons]
          by_cases h : c.type = type <;> simp [h]
        · have hcontent := Condition.differs_eq_false_iff.mp (Bool.eq_false_iff.mpr hdiffers)
          rw [if_neg hdiffers, hrest, hcontent]
          by_cases h : c.type = type <;> simp [h]
      · rw [if_neg htype, content?_cons, content?_cons, ih]
        by_cases h : c.type = type
        · subst h
          simp [htype]
        · simp [h]

/-- Setting a condition changes the content of its type and of no other type. -/
theorem content?_set (conditions : Conditions) (now : String) (c : Condition) (type : String) :
    (conditions.set now c).1.content? type =
      if c.type = type then some c.content else conditions.content? type :=
  content?_place conditions _ type

theorem content?_of_same {current new : Conditions} (h : same current new = true) {type : String}
    {x : String × Option String × Option String} (hnew : new.content? type = some x) :
    current.content? type = some x := by
  obtain ⟨n, hn, rfl⟩ := Option.map_eq_some_iff.mp hnew
  obtain rfl : n.type = type := by simpa using List.find?_some hn
  have hall := (Bool.and_eq_true_iff.mp h).2
  have hmatch := List.all_eq_true.mp hall n (List.mem_of_find?_eq_some hn)
  cases hc : current.ofType? n.type with
  | none => simp [hc] at hmatch
  | some c =>
      have hcontent : c.content = n.content :=
        Condition.differs_eq_false_iff.mp (by simpa [hc] using hmatch)
      rw [content?, hc, Option.map_some, hcontent]

/-- Puts a condition in the place of the first one of its type, or at the end. -/
def overwrite : Conditions → Condition → Conditions
  | [], condition => [condition]
  | c :: rest, condition =>
      if c.type = condition.type then condition :: rest else c :: overwrite rest condition

/-- Up to times a condition always takes the place of the first one of its type. -/
theorem map_untimed_place (conditions : Conditions) (c : Condition) :
    (conditions.place c).1.map Condition.untimed =
      overwrite (conditions.map Condition.untimed) c.untimed := by
  induction conditions with
  | nil => rfl
  | cons head rest ih =>
      by_cases htype : head.type = c.type
      · by_cases hdiffers : head.differs c = true
        · simp [place, overwrite, Condition.untimed, htype, hdiffers]
        · have hcontent := Condition.differs_eq_false_iff.mp (Bool.eq_false_iff.mpr hdiffers)
          have huntimed : head.untimed = c.untimed := by
            simp_all [Condition.untimed, Condition.content]
          simp [place, overwrite, htype, hdiffers, huntimed]
      · have huntimed : ¬ head.untimed.type = c.untimed.type := htype
        simp [place, overwrite, htype, huntimed, ih]

theorem map_untimed_set (conditions : Conditions) (now : String) (c : Condition) :
    (conditions.set now c).1.map Condition.untimed =
      overwrite (conditions.map Condition.untimed) c.untimed :=
  map_untimed_place conditions _

theorem overwrite_overwrite (conditions : Conditions) {c d : Condition} (h : c.type = d.type) :
    overwrite (overwrite conditions c) d = overwrite conditions d := by
  induction conditions with
  | nil => simp [overwrite, h]
  | cons head rest ih =>
      by_cases htype : head.type = d.type <;> simp [overwrite, htype, h, ih]

theorem overwrite_eq_self {conditions : Conditions} {c : Condition}
    (h : conditions.ofType? c.type = some c) : overwrite conditions c = conditions := by
  induction conditions with
  | nil => cases h
  | cons head rest ih =>
      rw [ofType?_cons] at h
      by_cases htype : head.type = c.type
      · simp_all [overwrite]
      · rw [if_neg htype] at h
        simp [overwrite, htype, ih h]

theorem ofType?_map_untimed (conditions : Conditions) (type : String) :
    ofType? (conditions.map Condition.untimed) type =
      (conditions.ofType? type).map Condition.untimed := by
  induction conditions with
  | nil => rfl
  | cons head rest ih =>
      rw [List.map_cons, ofType?_cons, ofType?_cons, ih]
      by_cases htype : head.type = type <;> simp [Condition.untimed, htype]

/-- A condition whose content is there already changes nothing but times. -/
theorem overwrite_untimed_eq_self {conditions : Conditions} {c : Condition}
    (h : conditions.content? c.type = some c.content) :
    overwrite (conditions.map Condition.untimed) c.untimed =
      conditions.map Condition.untimed := by
  obtain ⟨d, hd, hcontent⟩ := Option.map_eq_some_iff.mp h
  have htype : d.type = c.type := by simpa using List.find?_some hd
  have huntimed : d.untimed = c.untimed := by
    simp_all [Condition.untimed, Condition.content]
  refine overwrite_eq_self ?_
  rw [ofType?_map_untimed]
  exact (congrArg _ hd).trans (congrArg some huntimed)

def ReadyHolds (conditions : Conditions) : Prop :=
  ∃ c, conditions.ofType? Condition.ready = some c ∧ c.status = Condition.holds

theorem readyHolds_iff {conditions : Conditions} :
    conditions.ReadyHolds ↔
      ∃ x, conditions.content? Condition.ready = some x ∧ x.1 = Condition.holds := by
  constructor
  · rintro ⟨c, hc, hstatus⟩
    exact ⟨c.content, by rw [content?, hc]; rfl, hstatus⟩
  · rintro ⟨x, hcontent, hstatus⟩
    obtain ⟨c, hc, rfl⟩ := Option.map_eq_some_iff.mp hcontent
    exact ⟨c, hc, hstatus⟩

theorem not_readyHolds_nil : ¬ ReadyHolds [] := by
  rintro ⟨c, h, -⟩
  cases h

theorem readyHolds_set_of_ne (conditions : Conditions) (now : String) {c : Condition}
    (h : c.type ≠ Condition.ready) :
    (conditions.set now c).1.ReadyHolds ↔ conditions.ReadyHolds := by
  rw [readyHolds_iff, readyHolds_iff, content?_set, if_neg h]

theorem readyHolds_set_of_eq (conditions : Conditions) (now : String) {c : Condition}
    (h : c.type = Condition.ready) :
    (conditions.set now c).1.ReadyHolds ↔ c.status = Condition.holds := by
  rw [readyHolds_iff, content?_set, if_pos h]
  simp [Condition.content]

end Conditions

end SiteOperator

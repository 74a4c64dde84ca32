import Mathlib.Data.List.Induction
import SiteOperator.Proofs.Status.Transitions

/-!
# Conditions that are set one after the other

A condition list is changed by settings only (`Conditions.Setting`): a condition and the time at
which it is set. A setting never moves, removes or doubles a type (`Conditions.types_set`), and it
leaves every condition of another type in its place (`Conditions.getElem?_set`).

What a list has for a type after many settings is told by the history of the type: the condition
that was there, and then the conditions of the type that were set, in their order. Settings of other
types between them do not count. The list has the condition that begins the last run of the history
in which status, reason and message stay the same (`Conditions.ofType?_setAll`,
`Conditions.BeginsLastRun`), so its time is the one of the last real change.
-/

namespace SiteOperator

theorem Condition.content_ne_iff {c d : Condition} :
    ¬ c.content = d.content ↔
      c.status ≠ d.status ∨ c.reason ≠ d.reason ∨ c.message ≠ d.message := by
  simp only [content, Prod.mk.injEq, not_and_or, ne_eq]

namespace Conditions

structure Setting where
  now : String
  condition : Condition
  deriving DecidableEq

namespace Setting

def type (setting : Setting) : String := setting.condition.type

/-- The condition as it is put into a list: with the time of the setting if it has none. -/
def timed (setting : Setting) : Condition := setting.condition.timed setting.now

end Setting

def setAll (settings : List Setting) (conditions : Conditions) : Conditions :=
  settings.foldl (fun conditions s => (conditions.set s.now s.condition).1) conditions

/-- What there is of a type: the condition of the list, and then what is set. -/
def history (conditions : Conditions) (settings : List Setting) (type : String) :
    List Condition :=
  (conditions.ofType? type).toList ++
    (settings.filter fun s => s.type = type).map Setting.timed

/-- The condition begins the last run of conditions that say the same: all that come after it say
the same, and the one before it, if there is one, says something else. -/
def BeginsLastRun (c : Condition) (history : List Condition) : Prop :=
  ∃ earlier run, history = earlier ++ c :: run ∧ (∀ d ∈ run, d.content = c.content) ∧
    ∀ d, earlier.getLast? = some d → d.content ≠ c.content

variable {conditions : Conditions} {settings : List Setting} {c d : Condition} {type : String}

/-! ### One setting -/

theorem types_map_untimed (conditions : Conditions) :
    types (conditions.map Condition.untimed) = conditions.types :=
  List.map_map

theorem types_place (conditions : Conditions) (c : Condition) :
    (conditions.place c).1.types =
      if c.type ∈ conditions.types then conditions.types else conditions.types ++ [c.type] := by
  rw [← types_map_untimed, map_untimed_place, types_overwrite, types_map_untimed]
  rfl

theorem types_set (conditions : Conditions) (now : String) (c : Condition) :
    (conditions.set now c).1.types =
      if c.type ∈ conditions.types then conditions.types else conditions.types ++ [c.type] :=
  types_place conditions _

/-- A setting says that it has changed the list exactly if what it says was not there. -/
theorem changed_place_iff (conditions : Conditions) (c : Condition) :
    (conditions.place c).2 = true ↔ conditions.content? c.type ≠ some c.content := by
  induction conditions with
  | nil => simp [place]
  | cons head rest ih =>
      rw [place, content?_cons]
      by_cases htype : head.type = c.type
      · rw [if_pos htype, if_pos htype, ne_eq, Option.some.injEq, ← Condition.differs_eq_false_iff,
          Bool.not_eq_false]
        split <;> simp [*]
      · rw [if_neg htype, if_neg htype]
        exact ih

theorem changed_set_iff (conditions : Conditions) (now : String) (c : Condition) :
    (conditions.set now c).2 = true ↔ conditions.content? c.type ≠ some c.content :=
  changed_place_iff conditions (c.timed now)

theorem getElem?_place (conditions : Conditions) (i : Nat) (h : d.type ≠ c.type) :
    (conditions.place c).1[i]? = some d ↔ conditions[i]? = some d := by
  have hne : c ≠ d := fun heq => h (heq ▸ rfl)
  induction conditions generalizing i with
  | nil => cases i <;> simp [place, hne]
  | cons head rest ih =>
      rw [place]
      by_cases htype : head.type = c.type
      · have hhead : head ≠ d := fun heq => h (heq ▸ htype)
        rw [if_pos htype]
        split
        · cases i <;> simp [hne, hhead]
        · exact Iff.rfl
      · rw [if_neg htype]
        cases i with
        | zero => exact Iff.rfl
        | succ i => exact ih i

/-- A condition of another type stays in its place. -/
theorem getElem?_set (conditions : Conditions) (now : String) (i : Nat) (h : d.type ≠ c.type) :
    (conditions.set now c).1[i]? = some d ↔ conditions[i]? = some d :=
  getElem?_place conditions i (c := c.timed now) h

/-! ### The last run of a history -/

/-- One more condition begins a run of its own, or the last run goes on. -/
theorem beginsLastRun_append_singleton {history : List Condition} :
    BeginsLastRun c (history ++ [d]) ↔
      (c = d ∧ ∀ e, history.getLast? = some e → e.content ≠ d.content) ∨
        (BeginsLastRun c history ∧ d.content = c.content) := by
  constructor
  · rintro ⟨earlier, run, hsplit, hrun, hearlier⟩
    cases run using List.reverseRecOn with
    | nil =>
        obtain ⟨rfl, hlast⟩ := List.append_inj' hsplit rfl
        obtain rfl : d = c := by simpa using hlast
        exact Or.inl ⟨rfl, hearlier⟩
    | append_singleton run last =>
        obtain ⟨rfl, hlast⟩ :=
          List.append_inj' (hsplit.trans (List.append_assoc earlier (c :: run) [last]).symm) rfl
        obtain rfl : d = last := by simpa using hlast
        have hrun' : ∀ e ∈ run, e.content = c.content := fun e he =>
          hrun e (List.mem_append_left _ he)
        exact Or.inr ⟨⟨earlier, run, rfl, hrun', hearlier⟩,
          hrun d (List.mem_append_right _ List.mem_cons_self)⟩
  · rintro (⟨rfl, hbefore⟩ | ⟨⟨earlier, run, rfl, hrun, hearlier⟩, hcontent⟩)
    · exact ⟨history, [], rfl, List.forall_mem_nil _, hbefore⟩
    · refine ⟨earlier, run ++ [d], List.append_assoc earlier (c :: run) [d], ?_, hearlier⟩
      intro e he
      rcases List.mem_append.mp he with he | he
      · exact hrun e he
      · rwa [List.mem_singleton.mp he]

def renewAll (old : Option Condition) (settings : List Condition) : Option Condition :=
  settings.foldl (fun old new => some (renewed old new)) old

theorem renewAll_append_singleton (old : Option Condition) (settings : List Condition)
    (new : Condition) :
    renewAll old (settings ++ [new]) = some (renewed (renewAll old settings) new) := by
  simp [renewAll]

theorem renewAll_toList_append (old : Option Condition) (settings : List Condition) :
    renewAll none (old.toList ++ settings) = renewAll old settings := by
  cases old <;> rfl

theorem content_renewAll (history : List Condition) :
    (renewAll none history).map Condition.content = history.getLast?.map Condition.content := by
  induction history using List.reverseRecOn with
  | nil => rfl
  | append_singleton history d _ => simp [renewAll_append_singleton]

/-- What is left of a history is the condition that its last run begins with. -/
theorem renewAll_eq_some_iff {history : List Condition} :
    renewAll none history = some c ↔ BeginsLastRun c history := by
  induction history using List.reverseRecOn generalizing c with
  | nil => simp [renewAll, BeginsLastRun]
  | append_singleton history d ih =>
      rw [renewAll_append_singleton, Option.some.injEq, beginsLastRun_append_singleton, ← ih]
      -- What is left says what the last condition of the history says, so `d` goes on with the
      -- run or begins a new one by the same test that keeps or replaces what is left.
      have hlast := content_renewAll history
      cases hold : renewAll none history with
      | none =>
          have hnil : history.getLast? = none :=
            Option.map_eq_none_iff.mp (by rw [← hlast, hold, Option.map_none])
          simp [hnil, eq_comm]
      | some b =>
          obtain ⟨e, he, hcontent⟩ : ∃ e, history.getLast? = some e ∧ e.content = b.content := by
            simpa [hold, eq_comm] using hlast
          by_cases h : b.content = d.content
          · rw [renewed_of_same h]
            have hgoes : e.content = d.content := hcontent.trans h
            have hsame : b = c → d.content = c.content := fun heq => heq ▸ h.symm
            simpa [he, hgoes] using hsame
          · rw [renewed_of_differs h]
            have hbegins : e.content ≠ d.content := hcontent ▸ h
            have hother : b = c → ¬ d.content = c.content := fun heq => heq ▸ Ne.symm h
            simp only [he, Option.some.injEq, forall_eq']
            constructor
            · intro heq
              exact Or.inl ⟨heq.symm, hbegins⟩
            · rintro (⟨heq, -⟩ | ⟨heq, hcontent⟩)
              · exact heq.symm
              · exact absurd hcontent (hother heq)

/-! ### Settings one after the other -/

theorem setAll_cons (s : Setting) (settings : List Setting) (conditions : Conditions) :
    setAll (s :: settings) conditions =
      setAll settings (conditions.set s.now s.condition).1 := rfl

theorem setAll_append (first rest : List Setting) (conditions : Conditions) :
    setAll (first ++ rest) conditions = setAll rest (setAll first conditions) :=
  List.foldl_append

theorem map_untimed_setAll (settings : List Setting) (conditions : Conditions) :
    (setAll settings conditions).map Condition.untimed =
      overwriteAll (settings.map fun s => s.condition.untimed)
        (conditions.map Condition.untimed) := by
  induction settings generalizing conditions with
  | nil => rfl
  | cons s settings ih => rw [setAll_cons, ih, map_untimed_set, List.map_cons, overwriteAll_cons]

/-- The types of a list stay where they are, and new ones follow in the order in which they are
set first. -/
theorem types_setAll (settings : List Setting) (conditions : Conditions) :
    (setAll settings conditions).types = conditions.types ++
      ((settings.map Setting.type).filter fun type => type ∉ conditions.types).eraseDups := by
  induction settings generalizing conditions with
  | nil => exact (List.append_nil _).symm
  | cons s settings ih =>
      have htype : s.condition.type = s.type := rfl
      rw [setAll_cons, ih, types_set, htype, List.map_cons]
      by_cases hmem : s.type ∈ conditions.types
      · rw [if_pos hmem, List.filter_cons_of_neg (by simpa using hmem)]
      · rw [if_neg hmem, List.filter_cons_of_pos (by simpa using hmem), List.eraseDups_cons,
          List.append_assoc, List.filter_filter]
        refine congrArg (fun added => conditions.types ++ s.type :: List.eraseDups added)
          (List.filter_congr fun type _ => ?_)
        rw [Bool.eq_iff_iff]
        simp [and_comm]

theorem nodup_types_setAll (settings : List Setting) (distinct : conditions.types.Nodup) :
    (setAll settings conditions).types.Nodup := by
  rw [← types_map_untimed, map_untimed_setAll]
  exact nodup_types_overwriteAll _ ((types_map_untimed conditions).symm ▸ distinct)

theorem ofType?_setAll_eq (settings : List Setting) (conditions : Conditions) (type : String) :
    (setAll settings conditions).ofType? type = renewAll (conditions.ofType? type)
      ((settings.filter fun s => s.type = type).map Setting.timed) := by
  induction settings generalizing conditions with
  | nil => rfl
  | cons s settings ih =>
      have htype : s.condition.type = s.type := rfl
      rw [setAll_cons, ih, ofType?_set, htype]
      by_cases h : s.type = type
      · rw [if_pos h, List.filter_cons_of_pos (by simpa using h)]
        rfl
      · rw [if_neg h, List.filter_cons_of_neg (by simpa using h)]

/-- A list has the condition of a type that begins the last run of the history of the type. -/
theorem ofType?_setAll (settings : List Setting) (conditions : Conditions) (type : String) :
    (setAll settings conditions).ofType? type = some c ↔
      BeginsLastRun c (history conditions settings type) := by
  rw [ofType?_setAll_eq, history, ← renewAll_eq_some_iff, renewAll_toList_append]

/-- What the list says of a type is what was set last. -/
theorem content?_setAll (settings : List Setting) (conditions : Conditions) (type : String) :
    (setAll settings conditions).content? type =
      (history conditions settings type).getLast?.map Condition.content := by
  rw [← content_renewAll, history, renewAll_toList_append, ← ofType?_setAll_eq, content?]

theorem getLast?_history {earlier later : List Setting} {s : Setting}
    (last : s.type ∉ later.map Setting.type) :
    (history conditions (earlier ++ s :: later) s.type).getLast? = some s.timed := by
  have hlater : later.filter (fun t => t.type = s.type) = [] := by
    refine List.filter_eq_nil_iff.mpr fun t ht heq => last ?_
    exact of_decide_eq_true heq ▸ List.mem_map_of_mem ht
  simp [history, hlater]

theorem ofType?_setAll_of_not_mem (h : type ∉ settings.map Setting.type) :
    (setAll settings conditions).ofType? type = conditions.ofType? type := by
  have hnone : settings.filter (fun s => s.type = type) = [] :=
    List.filter_eq_nil_iff.mpr fun s hs heq =>
      h (of_decide_eq_true heq ▸ List.mem_map_of_mem hs)
  rw [ofType?_setAll_eq, hnone]
  rfl

theorem getElem?_setAll (settings : List Setting) (conditions : Conditions) (i : Nat)
    (h : d.type ∉ settings.map Setting.type) :
    (setAll settings conditions)[i]? = some d ↔ conditions[i]? = some d := by
  induction settings generalizing conditions with
  | nil => exact Iff.rfl
  | cons s settings ih =>
      obtain ⟨hne, hrest⟩ := not_or.mp (mt List.mem_cons.mpr h)
      rw [setAll_cons, ih _ hrest, getElem?_set conditions s.now i hne]

/-- A list of conditions with distinct types remembers of many settings just this. Its types are the
ones that it had, in their order, and then the new ones in the order in which they were set first;
none occurs twice. Each setting says that it has changed the list exactly if its type was not there
or was there with another status, reason or message, and if no later setting is of its type, the
list says what it says. The condition of a type is the one that begins the last run of the history
of the type, so its time is the time that this condition came with or received when it was set, or
the time that it had at the beginning. -/
theorem setAll_remembers (distinct : conditions.types.Nodup) (settings : List Setting) :
    (setAll settings conditions).types = conditions.types ++
        ((settings.map Setting.type).filter fun type => type ∉ conditions.types).eraseDups ∧
      (setAll settings conditions).types.Nodup ∧
      (∀ earlier s later, settings = earlier ++ s :: later →
        (((setAll earlier conditions).set s.now s.condition).2 = true ↔
          (setAll earlier conditions).ofType? s.type = none ∨
            ∃ stored, (setAll earlier conditions).ofType? s.type = some stored ∧
              (stored.status ≠ s.condition.status ∨ stored.reason ≠ s.condition.reason ∨
                stored.message ≠ s.condition.message)) ∧
        (s.type ∉ later.map Setting.type →
          ∃ stored, (setAll settings conditions).ofType? s.type = some stored ∧
            stored.status = s.condition.status ∧ stored.reason = s.condition.reason ∧
              stored.message = s.condition.message)) ∧
      ∀ type c, (setAll settings conditions).ofType? type = some c ↔
        BeginsLastRun c (history conditions settings type) := by
  refine ⟨types_setAll settings conditions, nodup_types_setAll settings distinct, ?_,
    fun type c => ofType?_setAll settings conditions type⟩
  rintro earlier s later rfl
  constructor
  · have htype : s.condition.type = s.type := rfl
    rw [changed_set_iff, content?, htype]
    cases (setAll earlier conditions).ofType? s.type with
    | none => simp
    | some stored => simp [Condition.content_ne_iff]
  · intro last
    have hcontent := content?_setAll (earlier ++ s :: later) conditions s.type
    rw [getLast?_history last] at hcontent
    obtain ⟨stored, hstored, heq⟩ := Option.map_eq_some_iff.mp hcontent
    simp only [Condition.content, Prod.mk.injEq] at heq
    exact ⟨stored, hstored, heq⟩

/-- A condition that is set a second time with another time keeps the time that it received at
first, whatever was set in between. -/
theorem setAll_remembers_first_time :
    ∃ conditions settings, conditions.types.Nodup ∧
      settings.map Setting.type = ["MoodleReady", "Ready", "MoodleReady"] ∧
      settings.map (fun s => s.condition.lastTransitionTime) = [none, some "5", some "6"] ∧
      (setAll settings conditions).types = ["Ready", "MoodleReady"] ∧
      (setAll settings conditions).ofType? "MoodleReady" =
        some ⟨"MoodleReady", "False", none, none, some "1"⟩ ∧
      (setAll settings conditions).ofType? "Ready" =
        some ⟨"Ready", "True", none, none, some "5"⟩ := by
  let conditions : Conditions := [⟨"Ready", "False", none, none, some "0"⟩]
  let settings : List Setting := [⟨"1", ⟨"MoodleReady", "False", none, none, none⟩⟩,
    ⟨"2", ⟨"Ready", "True", none, none, some "5"⟩⟩,
    ⟨"3", ⟨"MoodleReady", "False", none, none, some "6"⟩⟩]
  have distinct : conditions.types.Nodup := List.pairwise_singleton _ _
  obtain ⟨htypes, -, -, hofType⟩ := setAll_remembers distinct settings
  refine ⟨conditions, settings, distinct, rfl, rfl, htypes.trans (by decide), ?_, ?_⟩
  · refine (hofType _ _).mpr ⟨[], [⟨"MoodleReady", "False", none, none, some "6"⟩], rfl, ?_, ?_⟩
    · simp [Condition.content]
    · simp
  · refine (hofType _ _).mpr ⟨[⟨"Ready", "False", none, none, some "0"⟩], [], rfl, ?_, ?_⟩
    · simp
    · simp [Condition.content]

end Conditions

end SiteOperator

import Mathlib.Data.List.Induction
import SiteOperator.SiteCache

/-!
# What the cache knows after a history of events

The cache answers from the list that was completed last and from the events that came after it. What
it has under a name is what was said last about this name: an event, or the end of a list
(`SiteCache.at?_ofEvents_iff`). It counts as complete from the end of the first list on
(`SiteCache.synced_ofEvents_iff`).
-/

namespace SiteOperator

/-- Something happened at some point of a history, given what had come before it, and all that came
after it was quiet. -/
def Since {α : Type} (quiet : α → Prop) (happened : List α → α → Prop) (history : List α) : Prop :=
  ∃ before x after, history = before ++ x :: after ∧ happened before x ∧ ∀ y ∈ after, quiet y

section Since

variable {α : Type} {quiet : α → Prop} {happened : List α → α → Prop} {history : List α} {x : α}

theorem not_since_nil : ¬ Since quiet happened [] := by
  rintro ⟨before, x, after, heq, -⟩
  simp at heq

theorem since_append_singleton_iff :
    Since quiet happened (history ++ [x]) ↔
      happened history x ∨ quiet x ∧ Since quiet happened history := by
  constructor
  · rintro ⟨before, y, after, heq, hy, hafter⟩
    rcases List.eq_nil_or_concat after with rfl | ⟨rest, z, rfl⟩
    · obtain ⟨rfl, hx⟩ := List.append_inj' heq rfl
      cases hx
      exact Or.inl hy
    · rw [List.concat_eq_append, ← List.cons_append, ← List.append_assoc] at heq
      obtain ⟨rfl, hx⟩ := List.append_inj' heq rfl
      cases hx
      refine Or.inr ⟨hafter x (by simp), before, y, rest, rfl, hy, fun z hz => ?_⟩
      exact hafter z (by simp [hz])
  · rintro (hx | ⟨hquiet, before, y, after, rfl, hy, hafter⟩)
    · exact ⟨history, x, [], rfl, hx, by simp⟩
    · refine ⟨before, y, after ++ [x], by simp, hy, fun z hz => ?_⟩
      rcases List.mem_append.mp hz with hz | hz
      · exact hafter z hz
      · rwa [List.mem_singleton.mp hz]

end Since

namespace CacheEvent

/-- The event changes what the list that is being read has under a name. -/
def Relists (name : String) : CacheEvent → Prop
  | listBegins | listEnds => True
  | listed site => SiteCache.keyOf site = name
  | applied _ | deleted _ => False

/-- The event changes what the cache has under a name. -/
def Replaces (name : String) : CacheEvent → Prop
  | listEnds => True
  | applied site | deleted site => SiteCache.keyOf site = name
  | listBegins | listed _ => False

end CacheEvent

/-- The list that is being read has shown the site under the name. -/
def Listed (events : List CacheEvent) (name : String) (site : Site) : Prop :=
  Since (fun e => ¬ e.Relists name)
    (fun _ e => e = .listed site ∧ SiteCache.keyOf site = name) events

/-- The list that was completed last, as the events after it have changed it, has the site under the
name. -/
def Known (events : List CacheEvent) (name : String) (site : Site) : Prop :=
  Since (fun e => ¬ e.Replaces name)
    (fun earlier e => e = .applied site ∧ SiteCache.keyOf site = name ∨
      e = .listEnds ∧ Listed earlier name site) events

namespace SiteCache

def ofEvents (events : List CacheEvent) : SiteCache := events.foldl receive empty

theorem ofEvents_append_singleton (events : List CacheEvent) (e : CacheEvent) :
    ofEvents (events ++ [e]) = (ofEvents events).receive e :=
  List.foldl_append

variable {events : List CacheEvent} {name : String} {site : Site}

theorem at?_put_eq_some_iff {m : Entries Site} {other : Site} :
    (m.put (keyOf other) other).at? name = some site ↔
      (other = site ∧ keyOf site = name) ∨ ¬ keyOf other = name ∧ m.at? name = some site := by
  rw [Entries.at?_put]
  by_cases hkey : name = keyOf other
  · subst hkey
    simp only [if_true, Option.some.injEq, not_true, false_and, or_false]
    exact ⟨fun heq => ⟨heq, heq ▸ rfl⟩, And.left⟩
  · rw [if_neg hkey]
    refine ⟨fun h => Or.inr ⟨Ne.symm hkey, h⟩, ?_⟩
    rintro (⟨rfl, heq⟩ | ⟨-, h⟩)
    · exact absurd heq.symm hkey
    · exact h

theorem at?_incoming_ofEvents_iff :
    (ofEvents events).incoming.at? name = some site ↔ Listed events name site := by
  induction events using List.reverseRecOn with
  | nil => exact iff_of_false nofun not_since_nil
  | append_singleton events e ih =>
      rw [ofEvents_append_singleton, Listed, since_append_singleton_iff, ← Listed, ← ih]
      cases e with
      | listed other => simp [receive, at?_put_eq_some_iff, CacheEvent.Relists]
      | listBegins | listEnds | applied | deleted => simp [receive, CacheEvent.Relists]

/-- Under a name the cache has the site that was told last. -/
theorem at?_ofEvents_iff :
    (ofEvents events).sites.at? name = some site ↔ Known events name site := by
  induction events using List.reverseRecOn with
  | nil => exact iff_of_false nofun not_since_nil
  | append_singleton events e ih =>
      rw [ofEvents_append_singleton, Known, since_append_singleton_iff, ← Known, ← ih,
        ← at?_incoming_ofEvents_iff]
      cases e with
      | applied other => simp [receive, at?_put_eq_some_iff, CacheEvent.Replaces]
      | deleted other =>
          simp [receive, Entries.at?_remove, CacheEvent.Replaces, eq_comm]
      | listBegins | listed | listEnds => simp [receive, CacheEvent.Replaces]

theorem synced_ofEvents_iff : (ofEvents events).synced = true ↔ CacheEvent.listEnds ∈ events := by
  induction events using List.reverseRecOn with
  | nil => exact iff_of_false nofun List.not_mem_nil
  | append_singleton events e ih =>
      rw [ofEvents_append_singleton]
      cases e <;> simp [receive, ih]

end SiteCache

end SiteOperator

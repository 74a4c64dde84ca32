/-!
# Results of computations that may fail

A computation that goes on from the result of another one succeeds if both do, and fails with the
fault of the first that fails. Where one thing after the other is tried, the fault belongs to the
first that is refused (`IsFirst`).
-/

namespace SiteOperator

section Except

variable {ε α β : Type}

theorem except_map_eq_ok_iff {x : Except ε α} {f : α → β} {y : β} :
    x.map f = .ok y ↔ ∃ a, x = .ok a ∧ f a = y := by
  cases x <;> simp [Except.map]

theorem except_map_eq_error_iff {x : Except ε α} {f : α → β} {e : ε} :
    x.map f = .error e ↔ x = .error e := by
  cases x <;> simp [Except.map]

theorem except_bind_eq_ok_iff {x : Except ε α} {f : α → Except ε β} {y : β} :
    x >>= f = .ok y ↔ ∃ a, x = .ok a ∧ f a = .ok y := by
  cases x <;> simp [bind, Except.bind]

theorem except_bind_eq_error_iff {x : Except ε α} {f : α → Except ε β} {e : ε} :
    x >>= f = .error e ↔ x = .error e ∨ ∃ a, x = .ok a ∧ f a = .error e := by
  cases x <;> simp [bind, Except.bind]

end Except

def IsFirst {α : Type} (p : α → Prop) (l : List α) (x : α) : Prop :=
  ∃ before after, l = before ++ x :: after ∧ p x ∧ ∀ y ∈ before, ¬ p y

namespace IsFirst

variable {α : Type} {p q : α → Prop} {l : List α} {a x : α}

theorem head (h : p x) : IsFirst p (x :: l) x := ⟨[], l, rfl, h, by simp⟩

theorem tail (ha : ¬ p a) (first : IsFirst p l x) : IsFirst p (a :: l) x := by
  obtain ⟨before, after, rfl, hx, hbefore⟩ := first
  exact ⟨a :: before, after, rfl, hx, List.forall_mem_cons.mpr ⟨ha, hbefore⟩⟩

theorem congr (h : ∀ y ∈ l, p y ↔ q y) (first : IsFirst p l x) : IsFirst q l x := by
  obtain ⟨before, after, rfl, hx, hbefore⟩ := first
  refine ⟨before, after, rfl, (h x (by simp)).mp hx, fun y hy hq => ?_⟩
  exact hbefore y hy ((h y (List.mem_append_left _ hy)).mpr hq)

theorem mem (first : IsFirst p l x) : x ∈ l := by
  obtain ⟨before, after, rfl, -⟩ := first
  exact List.mem_append_right before List.mem_cons_self

theorem holds (first : IsFirst p l x) : p x := by
  obtain ⟨-, -, -, hx, -⟩ := first
  exact hx

end IsFirst

end SiteOperator

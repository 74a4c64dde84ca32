import SiteOperator.Names

/-!
# Labels and subdomains

The names that the API admits are labels or subdomains, which are labels with dots in between.
Cutting a subdomain in two at a dot leaves two subdomains, and without dots it is a label, so facts
about subdomains are put together from these two (`isSubdomain_append_cons`,
`isSubdomain_iff_isLabel`). A beginning of a subdomain is a subdomain once it ends with a letter or
a digit, and a subdomain stays one if its first label begins with more or its last one goes on.
-/

namespace SiteOperator

def isAlnum (c : Char) : Bool := c.isLower || c.isDigit

def IsLabelText (cs : List Char) : Prop := ∀ c ∈ cs, isAlnum c = true ∨ c = '-'

/-- A label: letters, digits and hyphens, the first and the last of which are no hyphens. -/
def IsLabel (cs : List Char) : Prop :=
  IsLabelText cs ∧ cs.head?.any isAlnum = true ∧ cs.getLast?.any isAlnum = true

def IsSubdomain (cs : List Char) : Prop := ∀ part ∈ cs.splitOn '.', IsLabel part

-- Going through the list, not through all characters there are.
instance (cs : List Char) : Decidable (IsLabelText cs) := List.decidableBAll _ cs

instance (cs : List Char) : Decidable (IsLabel cs) := inferInstanceAs (Decidable (_ ∧ _))

instance (cs : List Char) : Decidable (IsSubdomain cs) := List.decidableBAll _ (cs.splitOn '.')

variable {cs xs ys : List Char} {c : Char}

theorem IsLabelText.dot_not_mem (h : IsLabelText cs) : '.' ∉ cs := by
  intro hmem
  rcases h '.' hmem with halnum | heq
  · exact absurd halnum (by decide)
  · exact absurd heq (by decide)

theorem IsLabelText.append (hxs : IsLabelText xs) (hys : IsLabelText ys) :
    IsLabelText (xs ++ ys) := fun c hc => (List.mem_append.mp hc).elim (hxs c) (hys c)

theorem any_head?_append (h : xs.head?.any isAlnum = true) :
    (xs ++ ys).head?.any isAlnum = true := by
  cases xs with
  | nil => exact absurd h (by decide)
  | cons c xs => exact h

theorem any_getLast?_append (h : ys.getLast?.any isAlnum = true) :
    (xs ++ ys).getLast?.any isAlnum = true := by
  rw [List.getLast?_append]
  cases hys : ys.getLast? with
  | none =>
      rw [hys] at h
      exact absurd h (by decide)
  | some c =>
      rw [hys] at h
      exact h

theorem isSubdomain_iff_isLabel (h : '.' ∉ cs) : IsSubdomain cs ↔ IsLabel cs := by
  rw [IsSubdomain, List.splitOn_eq_singleton h, List.forall_mem_singleton]

theorem isSubdomain_append_cons :
    IsSubdomain (xs ++ '.' :: ys) ↔ IsSubdomain xs ∧ IsSubdomain ys := by
  rw [IsSubdomain, List.splitOn_append_cons_self, List.forall_mem_append]
  rfl

theorem not_isSubdomain_nil : ¬ IsSubdomain [] := by decide

theorem not_isSubdomain_append_dot : ¬ IsSubdomain (xs ++ ['.']) := fun h =>
  not_isSubdomain_nil (isSubdomain_append_cons.mp h).2

theorem exists_last_part (h : '.' ∈ cs) : ∃ xs ys, cs = xs ++ '.' :: ys ∧ '.' ∉ ys := by
  obtain ⟨ys, xs, heq, hnot⟩ := List.eq_append_cons_of_mem (List.mem_reverse.mpr h)
  refine ⟨xs.reverse, ys.reverse, ?_, fun hmem => hnot (List.mem_reverse.mp hmem)⟩
  rw [← List.reverse_reverse cs, heq]
  simp

namespace IsSubdomain

theorem head (h : IsSubdomain (c :: cs)) : isAlnum c = true := by
  by_cases hdot : '.' ∈ c :: cs
  · obtain ⟨xs, ys, heq, hnot⟩ := List.eq_append_cons_of_mem hdot
    rw [heq, isSubdomain_append_cons] at h
    have hlabel := (isSubdomain_iff_isLabel hnot).mp h.1
    cases xs with
    | nil => exact absurd hlabel.2.1 (by decide)
    | cons x xs =>
        obtain ⟨rfl, -⟩ := List.cons.inj heq
        exact hlabel.2.1
  · exact ((isSubdomain_iff_isLabel hdot).mp h).2.1

theorem chars (h : IsSubdomain cs) (hmem : c ∈ cs) (hdot : c ≠ '.') :
    isAlnum c = true ∨ c = '-' := by
  induction hn : cs.length using Nat.strongRecOn generalizing cs with
  | ind n ih =>
    by_cases hdots : '.' ∈ cs
    · obtain ⟨xs, ys, rfl, -⟩ := exists_last_part hdots
      rw [isSubdomain_append_cons] at h
      rw [List.length_append, List.length_cons] at hn
      rcases List.mem_append.mp hmem with hxs | hys
      · exact ih xs.length (by omega) h.1 hxs rfl
      · exact ih ys.length (by omega) h.2 (List.mem_of_ne_of_mem hdot hys) rfl
    · exact ((isSubdomain_iff_isLabel hdots).mp h).1 c hmem

/-- A beginning of a subdomain that ends with a letter or a digit is a subdomain. -/
theorem of_append (h : IsSubdomain (xs ++ ys)) (hlast : xs.getLast?.any isAlnum = true) :
    IsSubdomain xs := by
  have label {part : List Char} (hpart : IsSubdomain (part ++ ys)) (hdot : '.' ∉ part)
      (hlast : part.getLast?.any isAlnum = true) : IsLabel part := by
    refine ⟨fun c hc => hpart.chars (List.mem_append_left _ hc) fun heq => hdot (heq ▸ hc), ?_,
      hlast⟩
    cases part with
    | nil => exact absurd hlast (by decide)
    | cons c part => exact hpart.head
  by_cases hdot : '.' ∈ xs
  · obtain ⟨front, part, rfl, hnot⟩ := exists_last_part hdot
    rw [List.append_assoc, List.cons_append, isSubdomain_append_cons] at h
    refine isSubdomain_append_cons.mpr
      ⟨h.1, (isSubdomain_iff_isLabel hnot).mpr (label h.2 hnot ?_)⟩
    cases part with
    | nil =>
        rw [List.getLast?_concat] at hlast
        exact absurd hlast (by decide)
    | cons c part =>
        rwa [List.getLast?_append, List.getLast?_cons_cons, List.getLast?_cons, Option.some_or,
          ← List.getLast?_cons] at hlast
  · exact (isSubdomain_iff_isLabel hdot).mpr (label h hdot hlast)

/-- The last label of a subdomain may go on. -/
theorem append (h : IsSubdomain xs) (htext : IsLabelText ys)
    (hlast : ys.getLast?.any isAlnum = true) : IsSubdomain (xs ++ ys) := by
  have label {part : List Char} (hpart : IsLabel part) : IsLabel (part ++ ys) :=
    ⟨hpart.1.append htext, any_head?_append hpart.2.1, any_getLast?_append hlast⟩
  by_cases hdot : '.' ∈ xs
  · obtain ⟨front, part, rfl, hnot⟩ := exists_last_part hdot
    rw [isSubdomain_append_cons, isSubdomain_iff_isLabel hnot] at h
    rw [List.append_assoc, List.cons_append, isSubdomain_append_cons]
    exact ⟨h.1, (isSubdomain_iff_isLabel (label h.2).1.dot_not_mem).mpr (label h.2)⟩
  · have hlabel := label ((isSubdomain_iff_isLabel hdot).mp h)
    exact (isSubdomain_iff_isLabel hlabel.1.dot_not_mem).mpr hlabel

/-- The first label of a subdomain may begin with more. -/
theorem prepend (h : IsSubdomain ys) (htext : IsLabelText xs)
    (hhead : xs.head?.any isAlnum = true) : IsSubdomain (xs ++ ys) := by
  have label {part : List Char} (hpart : IsLabel part) : IsLabel (xs ++ part) :=
    ⟨htext.append hpart.1, any_head?_append hhead, any_getLast?_append hpart.2.2⟩
  by_cases hdot : '.' ∈ ys
  · obtain ⟨part, rest, rfl, hnot⟩ := List.eq_append_cons_of_mem hdot
    rw [isSubdomain_append_cons, isSubdomain_iff_isLabel hnot] at h
    rw [← List.append_assoc, isSubdomain_append_cons]
    exact ⟨(isSubdomain_iff_isLabel (label h.1).1.dot_not_mem).mpr (label h.1), h.2⟩
  · have hlabel := label ((isSubdomain_iff_isLabel hdot).mp h)
    exact (isSubdomain_iff_isLabel hlabel.1.dot_not_mem).mpr hlabel

end IsSubdomain

end SiteOperator

/-!
# Finite maps as entry lists

Objects, label sets and stores are finite maps from text keys.  They are kept as the list of their
entries, and every map that is read or built here lists its keys in strictly increasing order of
code points, which is also the order of their UTF-8 bytes.  The laws of `at?`, `put` and `remove`
hold for every entry list; `Sorted` is the normal form that the operations keep.
-/

namespace SiteOperator

/-- A finite map from text keys to values, as the list of its entries. -/
abbrev Entries (α : Type) := List (String × α)

namespace Entries

variable {α β : Type}

def at? : Entries α → String → Option α
  | [], _ => none
  | (k, v) :: rest, key => if k = key then some v else at? rest key

/-- Stores a value under a key, replacing an earlier value of that key. -/
def put : Entries α → String → α → Entries α
  | [], key, x => [(key, x)]
  | (k, v) :: rest, key, x =>
      if key < k then (key, x) :: (k, v) :: rest
      else if key = k then (key, x) :: rest
      else (k, v) :: put rest key x

def remove : Entries α → String → Entries α
  | [], _ => []
  | (k, v) :: rest, key => if k = key then remove rest key else (k, v) :: remove rest key

def keys (m : Entries α) : List String := m.map (·.1)

def values (m : Entries α) : List α := m.map (·.2)

def has (m : Entries α) (key : String) : Bool := (m.at? key).isSome

/-- Builds a map from entries in any order; of two values of one key the later one stays. -/
def ofList (es : List (String × α)) : Entries α :=
  es.foldl (fun m e => put m e.1 e.2) []

/-- Applies a function to every value and leaves the keys alone. -/
def mapValues (f : α → β) (m : Entries α) : Entries β := m.map fun e => (e.1, f e.2)

def Sorted (m : Entries α) : Prop := m.Pairwise fun a b => a.1 < b.1

@[simp] theorem at?_nil (key : String) : at? ([] : Entries α) key = none := rfl

theorem at?_cons (k : String) (v : α) (rest : Entries α) (key : String) :
    at? ((k, v) :: rest) key = if k = key then some v else at? rest key := rfl

@[simp] theorem at?_put_self (m : Entries α) (key : String) (x : α) :
    at? (put m key x) key = some x := by
  induction m with
  | nil => simp [put, at?]
  | cons e rest ih =>
      obtain ⟨k, v⟩ := e
      by_cases h₁ : key < k
      · simp [put, h₁, at?]
      · by_cases h₂ : key = k
        · simp [put, h₂, at?]
        · have h₃ : ¬ k = key := fun h => h₂ h.symm
          simp [put, h₁, h₂, at?, h₃, ih]

theorem at?_put_of_ne (m : Entries α) {key other : String} (x : α) (h : other ≠ key) :
    at? (put m key x) other = at? m other := by
  have hne : ¬ key = other := fun e => h e.symm
  induction m with
  | nil => simp [put, at?, hne]
  | cons e rest ih =>
      obtain ⟨k, v⟩ := e
      by_cases h₁ : key < k
      · simp [put, h₁, at?, hne]
      · by_cases h₂ : key = k
        · have h₃ : ¬ k = other := h₂ ▸ hne
          simp [put, h₂, at?, h₃]
        · simp only [put, h₁, h₂, if_false, at?, ih]

theorem at?_put (m : Entries α) (key other : String) (x : α) :
    at? (put m key x) other = if other = key then some x else at? m other := by
  by_cases h : other = key
  · simp [h]
  · simp [h, at?_put_of_ne m x h]

theorem at?_remove (m : Entries α) (key other : String) :
    at? (remove m key) other = if other = key then none else at? m other := by
  induction m with
  | nil => simp [remove]
  | cons e rest ih =>
      obtain ⟨k, v⟩ := e
      by_cases h₁ : k = key
      · subst h₁
        by_cases h₂ : other = k
        · subst h₂
          simpa [remove] using ih
        · have h₃ : ¬ k = other := fun h => h₂ h.symm
          simp [remove, ih, h₂, at?, h₃]
      · by_cases h₂ : other = key
        · subst h₂
          simp only [remove, h₁, if_false, at?, if_true] at ih ⊢
          exact ih
        · simp only [remove, h₁, if_false, at?, ih, h₂]

end Entries

end SiteOperator

import Mathlib.Tactic.SplitIfs

/-!
# Texts in the order of their bytes

Texts are compared by their code points, which is the same as comparing their bytes in UTF-8
(`textBytes_lt_iff`). A code point is written with digits to the base 64 behind a mark that tells
how many there are, and grows with their number, so a greater code point has the greater bytes
(`scalarBytes_append_lt`). Lists of texts are compared text by text, by code points or by bytes
(`pathBytes_lt_iff`).
-/

namespace SiteOperator

def textBytes (text : String) : List Nat := text.toUTF8.data.toList.map UInt8.toNat

def pathBytes (path : List String) : List (List Nat) := path.map textBytes

def scalarBytes (v : Nat) : List Nat :=
  if v ≤ 127 then [v]
  else if v ≤ 2047 then [v / 64 + 192, v % 64 + 128]
  else if v ≤ 65535 then [v / 64 / 64 + 224, v / 64 % 64 + 128, v % 64 + 128]
  else [v / 64 / 64 / 64 + 240, v / 64 / 64 % 64 + 128, v / 64 % 64 + 128, v % 64 + 128]

theorem map_toNat_utf8EncodeChar (c : Char) :
    (String.utf8EncodeChar c).map UInt8.toNat = scalarBytes c.toNat := by
  have hmax : c.val.toNat < 0x110000 := by
    rcases c.valid with h | h
    · exact Nat.lt_trans h (by decide)
    · exact h.2
  change _ = scalarBytes c.val.toNat
  unfold String.utf8EncodeChar scalarBytes
  generalize c.val.toNat = v at hmax
  simp only
  split_ifs <;>
    simp only [List.map_cons, List.map_nil, UInt8.toNat_ofNat', List.cons.injEq, and_true] <;>
    omega

theorem textBytes_eq_flatMap (text : String) :
    textBytes text = text.toList.flatMap fun c => scalarBytes c.toNat := by
  have hbytes : text.toUTF8.data.toList = text.toList.flatMap String.utf8EncodeChar := by
    have hencode := String.toByteArray_ofList (l := text.toList)
    rw [String.ofList_toList] at hencode
    rw [String.toUTF8_eq_toByteArray, hencode, List.utf8Encode, List.data_toByteArray]
  rw [textBytes, hbytes, List.map_flatMap]
  simp only [map_toNat_utf8EncodeChar]

theorem div_lt_or_mod_lt {m n : Nat} (h : m < n) :
    m / 64 < n / 64 ∨ m / 64 = n / 64 ∧ m % 64 < n % 64 := by
  omega

/-- The bytes of two code points differ at a place that both have, so that nothing that follows
matters. -/
theorem scalarBytes_append_lt {m n : Nat} (h : m < n) (xs ys : List Nat) :
    scalarBytes m ++ xs < scalarBytes n ++ ys := by
  have h₀ := div_lt_or_mod_lt h
  have h₁ (hlt : m / 64 < n / 64) := div_lt_or_mod_lt hlt
  have h₂ (hlt : m / 64 / 64 < n / 64 / 64) := div_lt_or_mod_lt hlt
  unfold scalarBytes
  split_ifs <;> simp only [List.cons_append, List.nil_append, List.cons_lt_cons_iff] <;> omega

theorem scalarBytes_ne_nil (v : Nat) : scalarBytes v ≠ [] := by
  unfold scalarBytes
  split_ifs <;> exact List.cons_ne_nil _ _

theorem flatMap_scalarBytes_lt {cs ds : List Char} (h : cs < ds) :
    cs.flatMap (fun c => scalarBytes c.toNat) < ds.flatMap fun c => scalarBytes c.toNat := by
  induction cs generalizing ds with
  | nil =>
      cases ds with
      | nil => cases h
      | cons d ds =>
          obtain ⟨byte, bytes, hbytes⟩ := List.exists_cons_of_ne_nil (scalarBytes_ne_nil d.toNat)
          rw [List.flatMap_nil, List.flatMap_cons, hbytes]
          exact List.Lex.nil
  | cons c cs ih =>
      cases ds with
      | nil => cases h
      | cons d ds =>
          rw [List.flatMap_cons, List.flatMap_cons]
          rcases List.cons_lt_cons_iff.mp h with hlt | ⟨rfl, hrest⟩
          · exact scalarBytes_append_lt (UInt32.lt_iff_toNat_lt.mp hlt) _ _
          · exact List.append_left_lt (ih hrest)

theorem textBytes_lt {s t : String} (h : s < t) : textBytes s < textBytes t := by
  rw [textBytes_eq_flatMap, textBytes_eq_flatMap]
  exact flatMap_scalarBytes_lt h

/-- The order of texts is the order of their bytes. -/
theorem textBytes_lt_iff {s t : String} : textBytes s < textBytes t ↔ s < t := by
  refine ⟨fun h => ?_, textBytes_lt⟩
  rcases Std.lt_trichotomy s t with hlt | rfl | hgt
  · exact hlt
  · exact absurd h (List.lt_irrefl _)
  · exact absurd h (List.lt_asymm (textBytes_lt hgt))

theorem textBytes_inj {s t : String} : textBytes s = textBytes t ↔ s = t := by
  refine ⟨fun h => ?_, congrArg textBytes⟩
  rcases Std.lt_trichotomy s t with hlt | heq | hgt
  · exact absurd (h ▸ textBytes_lt hlt) (List.lt_irrefl _)
  · exact heq
  · exact absurd (h ▸ textBytes_lt hgt) (List.lt_irrefl _)

/-- Lists of texts are in the order of the bytes of their texts. -/
theorem pathBytes_lt_iff {path other : List String} :
    pathBytes path < pathBytes other ↔ path < other := by
  induction path generalizing other with
  | nil => cases other <;> simp [pathBytes]
  | cons key rest ih =>
      cases other with
      | nil => simp [pathBytes]
      | cons key' rest' =>
          rw [pathBytes, pathBytes, List.map_cons, List.map_cons, List.cons_lt_cons_iff,
            List.cons_lt_cons_iff, textBytes_lt_iff, textBytes_inj]
          exact or_congr_right (and_congr_right fun _ => ih)

end SiteOperator

import SiteOperator.Json.Decode
import SiteOperator.Yaml.Document

/-!
# Words in YAML documents

Labels and names are words: letters and digits, with a few marks in between that mean nothing to a
reader of YAML (`Yaml.IsWord`). A document has a word as it is, or in single quotes if it would be
read as something else than a text (`Yaml.scalarText_of_word`). So an object of texts is written
with one entry below the other (`Yaml.document_textMap`), and each entry that consists of words takes
one line (`Yaml.entryText_of_words`).
-/

namespace SiteOperator

namespace Yaml

def isWordChar (c : Char) : Bool := c.isAlphanum || ['-', '_', '.', '/'].contains c

/-- A text of such characters that does not begin with a mark. -/
def IsWord (text : String) : Prop :=
  text.toList.all isWordChar = true ∧ text.toList.head?.all Char.isAlphanum = true

instance (text : String) : Decidable (IsWord text) :=
  inferInstanceAs (Decidable (_ = true ∧ _ = true))

def IsPlain (text : String) : Prop := IsWord text ∧ isAmbiguous text = false

instance (text : String) : Decidable (IsPlain text) :=
  inferInstanceAs (Decidable (IsWord text ∧ _))

/-- A word as it stands in a document. -/
def shown (word : String) : String :=
  if isAmbiguous word then "'" ++ word ++ "'" else word

def entryText (entry : String × String) : String :=
  (if isSimpleKey entry.1 then scalarText 2 entry.1 ++ ":" ++ scalarLine 0 entry.2
  else "?" ++ scalarLine 0 entry.1 ++ ":" ++ scalarLine 0 entry.2)

section Characters

variable {c : Char} {cs : List Char}

theorem isAlphanum_iff : c.isAlphanum = true ↔
    (65 ≤ c.toNat ∧ c.toNat ≤ 90) ∨ (97 ≤ c.toNat ∧ c.toNat ≤ 122) ∨
      (48 ≤ c.toNat ∧ c.toNat ≤ 57) := by
  change (decide ('A'.val ≤ c.val ∧ c.val ≤ 'Z'.val) ||
    (decide ('a'.val ≤ c.val) && decide (c.val ≤ 'z'.val)) ||
      (decide ('0'.val ≤ c.val) && decide (c.val ≤ '9'.val))) = true ↔ _
  simp only [Bool.or_eq_true, Bool.and_eq_true, decide_eq_true_eq, UInt32.le_iff_toNat_le, or_assoc]
  rfl

theorem isWordChar_bounds (h : isWordChar c = true) :
    45 ≤ c.toNat ∧ c.toNat ≤ 122 ∧ c.toNat ≠ 58 := by
  rw [isWordChar, Bool.or_eq_true, isAlphanum_iff] at h
  rcases h with halnum | hmark
  · omega
  · simp only [List.contains_eq_mem, List.mem_cons, List.not_mem_nil, or_false,
      decide_eq_true_eq] at hmark
    rcases hmark with rfl | rfl | rfl | rfl <;> decide

theorem isBreak_eq_false (h : isWordChar c = true) : isBreak c = false := by
  obtain ⟨hleast, hmost, -⟩ := isWordChar_bounds h
  simp only [isBreak, List.contains_eq_mem, List.mem_cons, List.not_mem_nil, or_false,
    decide_eq_false_iff_not]
  omega

theorem isPrintable_of_word (h : isWordChar c = true) : isPrintable c = true := by
  obtain ⟨hleast, hmost, -⟩ := isWordChar_bounds h
  have hrange : (decide (0x20 ≤ c.toNat) && decide (c.toNat ≤ 0x7E)) = true := by
    rw [Bool.and_eq_true, decide_eq_true_eq, decide_eq_true_eq]
    omega
  simp only [isPrintable, hrange, Bool.or_true, Bool.true_or]

theorem someNeighbours_eq_false {related : Char → Char → Bool}
    (h : ∀ a ∈ cs, ∀ b, related a b = false) : someNeighbours related cs = false := by
  induction cs with
  | nil => rfl
  | cons a rest ih =>
      cases rest with
      | nil => rfl
      | cons b rest =>
          rw [someNeighbours, h a List.mem_cons_self b,
            ih fun a ha => h a (List.mem_cons_of_mem _ ha)]
          rfl

theorem hasInnerIndicator_eq_false (h : ∀ c ∈ cs, isWordChar c = true) :
    hasInnerIndicator cs = false := by
  induction cs with
  | nil => rfl
  | cons a rest ih =>
      cases rest with
      | nil => rfl
      | cons b rest =>
          have hcolon : b ≠ ':' := by
            rintro rfl
            exact absurd (h ':' (by simp)) (by decide)
          have hsign : b ≠ '#' := by
            rintro rfl
            exact absurd (h '#' (by simp)) (by decide)
          rw [hasInnerIndicator, ih fun c hc => h c (List.mem_cons_of_mem _ hc),
            decide_eq_false hcolon, decide_eq_false hsign]
          rfl

theorem needsEscapes_eq_false (h : ∀ c ∈ cs, isWordChar c = true) :
    needsEscapes cs = false := by
  have hprintable : (cs.any fun c => !isPrintable c) = false := by
    rw [List.any_eq_false]
    intro c hc
    rw [isPrintable_of_word (h c hc)]
    exact Bool.false_ne_true
  have hspace : someNeighbours (fun a b => a = ' ' && isBreak b) cs = false := by
    refine someNeighbours_eq_false fun a ha b => ?_
    have hne : a ≠ ' ' := by
      rintro rfl
      exact absurd (h ' ' ha) (by decide)
    rw [decide_eq_false hne, Bool.false_and]
  rw [needsEscapes, hprintable, hspace, Bool.or_false]

theorem beginsWithIndicator_eq_false (h : cs.head?.all Char.isAlphanum = true) :
    beginsWithIndicator cs = false := by
  cases cs with
  | nil => decide
  | cons c rest =>
      replace h : c.isAlphanum = true := h
      have hnone : ("#,[]\x7b\x7d&*!|>'\"%@\x60".toList ++ ['?', ':', '-', '.']).all
          (!Char.isAlphanum ·) = true := by decide
      have hne {d : Char} (hd : d ∈ "#,[]\x7b\x7d&*!|>'\"%@\x60".toList ++ ['?', ':', '-', '.']) :
          d ≠ c := by
        rintro rfl
        have hmark := List.all_eq_true.mp hnone d hd
        rw [h] at hmark
        cases hmark
      have hmarks : ("#,[]\x7b\x7d&*!|>'\"%@\x60".toList).contains c = false := by
        rw [Bool.eq_false_iff]
        exact fun hc => hne (List.mem_append_left _ (List.contains_iff_mem.mp hc)) rfl
      have hsigns : (['?', ':', '-']).contains c = false := by
        rw [Bool.eq_false_iff]
        intro hc
        exact hne (List.mem_append_right _ (List.mem_append_left ['.'] (List.contains_iff_mem.mp hc)))
          rfl
      have hdash : '-' ≠ c := hne (by decide)
      have hdot : '.' ≠ c := hne (by decide)
      simp only [beginsWithIndicator, hmarks, hsigns, List.isPrefixOf, beq_eq_false_iff_ne.mpr hdash,
        beq_eq_false_iff_ne.mpr hdot, Bool.false_and, Bool.or_false]

end Characters

section Words

variable {word key value : String}

namespace IsWord

theorem chars (h : IsWord word) : ∀ c ∈ word.toList, isWordChar c = true :=
  List.all_eq_true.mp h.1

theorem not_mem (h : IsWord word) {c : Char} (hc : isWordChar c = false) : c ∉ word.toList :=
  fun hmem => Bool.false_ne_true (hc.symm.trans (h.chars c hmem))

theorem any_isBreak (h : IsWord word) : word.toList.any isBreak = false := by
  rw [List.any_eq_false]
  intro c hc
  rw [isBreak_eq_false (h.chars c hc)]
  exact Bool.false_ne_true

theorem plainAllowed (h : IsWord word) : plainAllowed word.toList = true := by
  have hfirst : word.toList.head? ≠ some ' ' := fun hc =>
    h.not_mem (by decide) (List.mem_of_head? hc)
  have hlast : word.toList.getLast? ≠ some ' ' := fun hc =>
    h.not_mem (by decide) (List.mem_of_getLast? hc)
  simp only [Yaml.plainAllowed, decide_eq_false hfirst, decide_eq_false hlast, h.any_isBreak,
    needsEscapes_eq_false h.chars, beginsWithIndicator_eq_false h.2, hasInnerIndicator_eq_false h.chars,
    Bool.or_false, Bool.not_false]

theorem singleQuotedAllowed (h : IsWord word) : singleQuotedAllowed word.toList = true := by
  have hbreak : someNeighbours (fun a b => isBreak a && b = ' ') word.toList = false := by
    refine someNeighbours_eq_false fun a ha b => ?_
    rw [isBreak_eq_false (h.chars a ha), Bool.false_and]
  rw [Yaml.singleQuotedAllowed, hbreak, needsEscapes_eq_false h.chars, Bool.or_false, Bool.not_false]

theorem styleOf_eq (h : IsWord word) :
    styleOf word = if isAmbiguous word then .singleQuoted else .plain := by
  have hfeed : word.toList.contains '\n' = false := by
    rw [Bool.eq_false_iff]
    exact fun hc => h.not_mem (by decide) (List.contains_iff_mem.mp hc)
  simp only [styleOf, hfeed, h.plainAllowed, h.singleQuotedAllowed, Bool.false_eq_true, if_false,
    Bool.and_true, if_true]
  cases isAmbiguous word <;> rfl

end IsWord

theorem singleQuotedBody_eq_self (indent : Nat) {cs : List Char}
    (h : ∀ c ∈ cs, isWordChar c = true) : singleQuotedBody indent false cs = cs := by
  induction cs with
  | nil => rfl
  | cons c rest ih =>
      have hc := h c List.mem_cons_self
      have hquote : c ≠ '\'' := by
        rintro rfl
        exact absurd hc (by decide)
      rw [singleQuotedBody, isBreak_eq_false hc, if_neg Bool.false_ne_true,
        if_neg Bool.false_ne_true, if_neg hquote, ih fun c hc => h c (List.mem_cons_of_mem _ hc)]
      rfl

theorem scalarText_of_word (indent : Nat) (h : IsWord word) :
    scalarText indent word = shown word := by
  unfold scalarText shown
  rw [h.styleOf_eq]
  cases isAmbiguous word with
  | false => rfl
  | true =>
      simp only [if_true, singleQuotedBody_eq_self indent h.chars]
      rw [← String.toList_inj]
      simp

theorem scalarLine_of_word (indent : Nat) (h : IsWord word) :
    scalarLine indent word = " " ++ shown word ++ "\n" := by
  have hends : endsLine word = false := by
    rw [endsLine, h.styleOf_eq]
    cases isAmbiguous word <;> rfl
  rw [scalarLine, scalarText_of_word _ h, hends, if_neg Bool.false_ne_true]

theorem isSimpleKey_of_word (h : IsWord key) (short : key.utf8ByteSize ≤ simpleKeyMost) :
    isSimpleKey key = true := by
  rw [isSimpleKey, h.any_isBreak, decide_eq_true short]
  rfl

theorem IsPlain.shown (h : IsPlain word) : shown word = word := by
  rw [Yaml.shown, h.2, if_neg Bool.false_ne_true]

theorem scalarLine_of_plain (indent : Nat) (h : IsPlain word) :
    scalarLine indent word = " " ++ word ++ "\n" := by
  rw [scalarLine_of_word indent h.1, h.shown]

theorem fieldLines_of_plain (indent : Nat) (begun : Bool) (field : Json) (rest : Fields)
    (h : IsPlain key) (short : key.utf8ByteSize ≤ simpleKeyMost) :
    fieldLines indent begun ((key, field) :: rest) =
      (if begun then "" else String.ofList (spaces indent)) ++
        (key ++ ":" ++ valueLines indent .afterKey field) ++ fieldLines indent false rest := by
  rw [fieldLines, isSimpleKey_of_word h.1 short, if_pos rfl, scalarText_of_word _ h.1, h.shown]

/-- An entry that consists of words takes one line. -/
theorem entryText_of_words (hkey : IsWord key) (short : key.utf8ByteSize ≤ simpleKeyMost)
    (hvalue : IsWord value) :
    entryText (key, value) = shown key ++ ": " ++ shown value ++ "\n" := by
  rw [entryText, isSimpleKey_of_word hkey short, if_pos rfl, scalarText_of_word _ hkey,
    scalarLine_of_word _ hvalue, ← String.toList_inj]
  simp

end Words

theorem fieldLines_textMap (entries : Entries String) :
    fieldLines 0 false (entries.mapValues Json.string) = String.join (entries.map entryText) := by
  induction entries with
  | nil => rfl
  | cons entry rest ih =>
      have hspaces : String.ofList (spaces 0) = "" := rfl
      rw [List.map_cons, String.join_cons, ← ih]
      simp only [Entries.mapValues, List.map_cons, fieldLines, valueLines, entryText, hspaces,
        Bool.false_eq_true, if_false, String.empty_append, String.append_empty]

/-- An object of texts is written with one entry below the other. -/
theorem document_textMap {entries : Entries String} (h : entries ≠ []) :
    document (.textMap entries) = String.join (entries.map entryText) := by
  cases entries with
  | nil => exact absurd rfl h
  | cons entry rest => exact fieldLines_textMap (entry :: rest)

end Yaml

end SiteOperator

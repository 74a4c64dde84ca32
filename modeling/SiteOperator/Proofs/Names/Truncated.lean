import SiteOperator.Proofs.Names.Subdomains

/-!
# Texts that are cut

A text is cut to a number of characters, while its bytes tell whether it was cut. Both agree, since
no character is without bytes (`utf8ByteSize_take_lt_iff`). So a text that is short enough is kept as
it is, and of a longer one the first characters are kept without the hyphens at their end
(`truncate_of_le`, `toList_truncate_of_lt`); all else about a cut follows from these two.

What is kept of a subdomain is a subdomain unless its last character is a dot
(`isSubdomain_truncate_cases`): a hyphen at the end is dropped there, a dot is not. What is kept of a
label is a label, since there is no dot in it.
-/

namespace SiteOperator

variable {cs : List Char} {value : String} {most : Nat}

theorem exists_hyphens (cs : List Char) :
    ∃ n, cs = dropTrailingHyphens cs ++ List.replicate n '-' := by
  refine ⟨(cs.reverse.takeWhile (· = '-')).length, ?_⟩
  have hhyphens : (cs.reverse.takeWhile (· = '-')).reverse =
      List.replicate (cs.reverse.takeWhile (· = '-')).length '-' := by
    refine List.eq_replicate_iff.mpr ⟨List.length_reverse, fun c hc => ?_⟩
    exact of_decide_eq_true
      (List.all_eq_true.mp List.all_takeWhile c (List.mem_reverse.mp hc))
  rw [dropTrailingHyphens, ← hhyphens, ← List.reverse_append, List.takeWhile_append_dropWhile,
    List.reverse_reverse]

theorem getLast?_dropTrailingHyphens (cs : List Char) :
    (dropTrailingHyphens cs).getLast? ≠ some '-' := by
  rw [dropTrailingHyphens, List.getLast?_reverse]
  intro h
  have hnot := List.head?_dropWhile_not (· = '-') cs.reverse
  rw [h] at hnot
  exact absurd hnot (by decide)

theorem isPrefix_dropTrailingHyphens (cs : List Char) : dropTrailingHyphens cs <+: cs := by
  obtain ⟨n, hn⟩ := exists_hyphens cs
  exact ⟨_, hn.symm⟩

theorem dropTrailingHyphens_append_dot (cs : List Char) :
    dropTrailingHyphens (cs ++ ['.']) = cs ++ ['.'] := by
  simp [dropTrailingHyphens]

/-- The first characters of a text have fewer bytes exactly if the text has more characters. -/
theorem utf8ByteSize_take_lt_iff :
    (String.ofList (value.toList.take most)).utf8ByteSize < value.utf8ByteSize ↔
      most < value.toList.length := by
  have hbytes : value.utf8ByteSize = (String.ofList (value.toList.take most)).utf8ByteSize +
      (String.ofList (value.toList.drop most)).utf8ByteSize := by
    rw [← String.utf8ByteSize_append, ← String.ofList_append, List.take_append_drop,
      String.ofList_toList]
  rw [hbytes, Nat.lt_add_right_iff_pos, Nat.pos_iff_ne_zero, Ne, String.utf8ByteSize_eq_zero_iff,
    String.ofList_eq_empty_iff, List.drop_eq_nil_iff, Nat.not_le]

theorem truncate_of_le (h : value.toList.length ≤ most) : truncate value most = value := by
  have hsame := mt utf8ByteSize_take_lt_iff.mp (Nat.not_lt.mpr h)
  unfold truncate
  rw [if_neg hsame, List.take_of_length_le h, String.ofList_toList]

theorem toList_truncate_of_lt (h : most < value.toList.length) :
    (truncate value most).toList = dropTrailingHyphens (value.toList.take most) := by
  unfold truncate
  rw [if_pos (utf8ByteSize_take_lt_iff.mpr h), String.toList_ofList, String.toList_ofList]

theorem isPrefix_truncate_take (value : String) (most : Nat) :
    (truncate value most).toList <+: value.toList.take most := by
  rcases Nat.lt_or_ge most value.toList.length with hlt | hle
  · rw [toList_truncate_of_lt hlt]
    exact isPrefix_dropTrailingHyphens _
  · have hkept : (truncate value most).toList = value.toList.take most := by
      rw [truncate_of_le hle, List.take_of_length_le hle]
    exact hkept ▸ List.prefix_rfl

theorem isPrefix_truncate (value : String) (most : Nat) :
    (truncate value most).toList <+: value.toList := by
  have htake : value.toList.take most <+: value.toList := List.take_prefix most value.toList
  exact (isPrefix_truncate_take value most).trans htake

theorem length_truncate_le (value : String) (most : Nat) :
    (truncate value most).toList.length ≤ most :=
  Nat.le_trans (isPrefix_truncate_take value most).length_le (List.length_take_le _ _)

theorem truncate_eq_self_iff : truncate value most = value ↔ value.toList.length ≤ most := by
  refine ⟨fun h => ?_, truncate_of_le⟩
  have hlength := length_truncate_le value most
  rwa [h] at hlength

theorem truncate_truncate (value : String) (most : Nat) :
    truncate (truncate value most) most = truncate value most :=
  truncate_of_le (length_truncate_le value most)

theorem take_succ_of_getElem? {c : Char} (h : cs[most]? = some c) :
    cs.take (most + 1) = cs.take most ++ [c] := by
  rw [List.take_add_one, h]
  rfl

/-- If a beginning of a subdomain ends neither with a dot nor with nothing, then it ends with a
letter or a digit once the hyphens at its end are dropped. -/
theorem any_getLast?_dropTrailingHyphens {xs ys : List Char} (h : IsSubdomain (xs ++ ys))
    (hne : xs ≠ []) (hdot : xs.getLast? ≠ some '.') :
    (dropTrailingHyphens xs).getLast?.any isAlnum = true := by
  obtain ⟨n, hn⟩ := exists_hyphens xs
  have hhyphen := getLast?_dropTrailingHyphens xs
  rw [hn, List.append_assoc] at h
  rcases List.eq_nil_or_concat (dropTrailingHyphens xs) with hnil | ⟨front, c, hfront⟩
  · rw [hnil, List.nil_append] at hn h
    cases n with
    | zero => exact absurd hn hne
    | succ n => exact absurd h.head (by decide)
  · rw [List.concat_eq_append] at hfront
    rw [hfront] at hn h hhyphen ⊢
    rw [List.getLast?_concat] at hhyphen ⊢
    have hc : c ≠ '.' := by
      rintro rfl
      cases n with
      | zero =>
          rw [hn, List.replicate_zero, List.append_nil, List.getLast?_concat] at hdot
          exact hdot rfl
      | succ n =>
          -- no label begins with a hyphen
          rw [List.append_assoc] at h
          exact absurd (isSubdomain_append_cons.mp h).2.head (by decide)
    have hmem : c ∈ front ++ [c] ++ (List.replicate n '-' ++ ys) := by simp
    exact (h.chars hmem hc).resolve_right fun heq => hhyphen (congrArg some heq)

/-- What is kept of a subdomain that is cut is a subdomain, unless the last character that may be
kept is a dot. Then the cut ends with it. -/
theorem isSubdomain_truncate_cases (h : IsSubdomain value.toList) (most : Nat) :
    (IsSubdomain (truncate value (most + 1)).toList ∧ value.toList[most]? ≠ some '.') ∨
      ((∃ front, (truncate value (most + 1)).toList = front ++ ['.']) ∧
        value.toList[most]? = some '.') := by
  by_cases hdot : value.toList[most]? = some '.'
  · have htake := take_succ_of_getElem? hdot
    rcases Nat.lt_or_ge (most + 1) value.toList.length with hlt | hle
    · rw [toList_truncate_of_lt hlt, htake, dropTrailingHyphens_append_dot]
      exact Or.inr ⟨⟨_, rfl⟩, hdot⟩
    · rw [List.take_of_length_le hle] at htake
      rw [htake] at h
      exact absurd h not_isSubdomain_append_dot
  · refine Or.inl ⟨?_, hdot⟩
    rcases Nat.lt_or_ge (most + 1) value.toList.length with hlt | hle
    · obtain ⟨n, hn⟩ := exists_hyphens (value.toList.take (most + 1))
      have hcut := h
      rw [← List.take_append_drop (most + 1) value.toList] at hcut
      have hlast := any_getLast?_dropTrailingHyphens hcut ?_ ?_
      · rw [hn, List.append_assoc] at hcut
        rw [toList_truncate_of_lt hlt]
        exact hcut.of_append hlast
      · exact List.ne_nil_of_length_pos (by rw [List.length_take]; omega)
      · rw [List.getLast?_take, if_neg (Nat.succ_ne_zero most), Nat.add_sub_cancel]
        rw [List.getElem?_eq_getElem (by omega)] at hdot ⊢
        exact hdot
    · rwa [truncate_of_le hle]

/-- What is kept of a label is a label, unless nothing may be kept. -/
theorem isLabel_truncate (h : IsLabel value.toList) (hmost : 0 < most) :
    IsLabel (truncate value most).toList := by
  have hdot : '.' ∉ value.toList := h.1.dot_not_mem
  have hkept : '.' ∉ (truncate value most).toList := fun hmem =>
    hdot ((isPrefix_truncate value most).subset hmem)
  cases most with
  | zero => exact absurd hmost (Nat.lt_irrefl 0)
  | succ most =>
      rcases isSubdomain_truncate_cases ((isSubdomain_iff_isLabel hdot).mpr h) most with
        ⟨hsubdomain, -⟩ | ⟨-, hlast⟩
      · exact (isSubdomain_iff_isLabel hkept).mp hsubdomain
      · exact absurd (List.mem_of_getElem? hlast) hdot

/-- What is kept of a text that is cut to a number of characters. It is a beginning of the text and
has no more characters than that. A text that has no more itself is kept as it is; of any other one
the first characters are kept without all hyphens at their end, and nothing else is dropped. So
cutting once more changes nothing, and a label stays a label unless nothing may be kept. -/
theorem truncate_outcome (value : String) (most : Nat) :
    (truncate value most).toList <+: value.toList ∧
      (truncate value most).toList.length ≤ most ∧
      (truncate value most = value ↔ value.toList.length ≤ most) ∧
      (most < value.toList.length →
        (∃ n, value.toList.take most = (truncate value most).toList ++ List.replicate n '-') ∧
          (truncate value most).toList.getLast? ≠ some '-') ∧
      truncate (truncate value most) most = truncate value most ∧
      (0 < most → IsLabel value.toList → IsLabel (truncate value most).toList) := by
  refine ⟨isPrefix_truncate value most, length_truncate_le value most, truncate_eq_self_iff,
    fun hlong => ?_, truncate_truncate value most, fun hmost hlabel => isLabel_truncate hlabel hmost⟩
  rw [toList_truncate_of_lt hlong]
  exact ⟨exists_hyphens _, getLast?_dropTrailingHyphens _⟩

/-- A label that is cut behind two hyphens. -/
theorem truncate_outcome_of_hyphens :
    0 < 6 ∧ IsLabel "town--school".toList ∧ 6 < "town--school".toList.length ∧
      truncate "town--school" 6 ≠ "town--school" ∧
      (truncate "town--school" 6).toList.getLast? ≠ some '-' ∧
      IsLabel (truncate "town--school" 6).toList := by
  have hmost : 0 < 6 := by decide
  have hlabel : IsLabel "town--school".toList := by decide
  have hlong : 6 < "town--school".toList.length := by decide
  obtain ⟨-, -, hself, hcut, -, hkeeps⟩ := truncate_outcome "town--school" 6
  exact ⟨hmost, hlabel, hlong, fun h => absurd (hself.mp h) (Nat.not_le.mpr hlong),
    (hcut hlong).2, hkeeps hmost hlabel⟩

example : truncate "ñandú--2" 7 = "ñandú" := by decide +kernel

end SiteOperator

import SiteOperator.Composition
import SiteOperator.Proofs.Json.Merge
import SiteOperator.Proofs.Yaml.Words

/-!
# The labels and the affinity of a site

All objects of a site share its labels: those of its template, with the name of the site and that of
the operator under two keys that a template cannot set (`SharedLabels`). Their block of text has the
entries of the labels below one another, one line each if they consist of words, as labels in the
API do (`LabelBlock`). The block of the affinity is the same for all sites but for one line, which
has the name of the site (`AffinityBlock`). So the blocks of a composed site show its labels and its
affinity (`Composition.shows_ofSite`).
-/

namespace SiteOperator

variable {labels : Entries String} {templateLabels : Option (Entries String)}

/-- The labels are those of the template, with the name of the site and that of the operator under
their keys. -/
structure SharedLabels (site : String) (templateLabels : Option (Entries String))
    (labels : Entries String) : Prop where
  named : labels.at? "lms.krestomat.io/lms-name" = some site
  managed : labels.at? "lms.krestomat.io/meta-operator-name" = some "lms-moodle-operator"
  inherited : ∀ key, key ≠ "lms.krestomat.io/lms-name" →
    key ≠ "lms.krestomat.io/meta-operator-name" →
    labels.at? key = Entries.at? (templateLabels.getD []) key
  sorted : Entries.Sorted (templateLabels.getD []) → labels.Sorted

/-- A text that has the labels below one another. A label that consists of words takes one line. -/
structure LabelBlock (labels : Entries String) (block : String) : Prop where
  document : block = Yaml.document (.textMap labels)
  lines : ∃ line : String × String → String, block = String.join (labels.map line) ∧
    ∀ label ∈ labels, Yaml.IsWord label.1 → label.1.utf8ByteSize ≤ 128 → Yaml.IsWord label.2 →
      line label = Yaml.shown label.1 ++ ": " ++ Yaml.shown label.2 ++ "\n"

/-- The preference to run all pods with one value of the site's label on one host. -/
def colocation (value : String) : String :=
  "podAffinity:\n" ++
  "  preferredDuringSchedulingIgnoredDuringExecution:\n" ++
  "  - podAffinityTerm:\n" ++
  "      labelSelector:\n" ++
  "        matchExpressions:\n" ++
  "        - key: lms.krestomat.io/lms-name\n" ++
  "          operator: In\n" ++
  "          values:\n" ++
  "          -" ++ value ++
  "      topologyKey: kubernetes.io/hostname\n" ++
  "    weight: 100\n"

structure AffinityBlock (site block : String) : Prop where
  text : block = colocation (Yaml.scalarLine 10 site)
  word : Yaml.IsWord site → block = colocation (" " ++ Yaml.shown site ++ "\n")

/-- Labels that are sorted by key still are with the two labels of the site. -/
theorem sorted_siteLabels (site : String) (h : Entries.Sorted (templateLabels.getD [])) :
    (siteLabels site templateLabels).Sorted :=
  (h.put siteNameLabel site).put operatorNameLabel operatorName

theorem sharedLabels_siteLabels (site : String) (templateLabels : Option (Entries String)) :
    SharedLabels site templateLabels (siteLabels site templateLabels) where
  named := by
    have hne : siteNameLabel ≠ operatorNameLabel := by decide
    exact (Entries.at?_put_of_ne _ operatorName hne).trans (Entries.at?_put_self _ _ site)
  managed := Entries.at?_put_self _ operatorNameLabel operatorName
  inherited key hsite hoperator :=
    (Entries.at?_put_of_ne _ operatorName hoperator).trans (Entries.at?_put_of_ne _ site hsite)
  sorted := sorted_siteLabels site

structure Composition.Shows (composition : Composition) (site : String)
    (templateLabels : Option (Entries String)) : Prop where
  labels : SharedLabels site templateLabels composition.labels
  labelBlock : LabelBlock composition.labels composition.labelBlock
  affinityBlock : AffinityBlock site composition.affinityBlock

theorem SharedLabels.ne_nil {site : String} (shared : SharedLabels site templateLabels labels) :
    labels ≠ [] := by
  rintro rfl
  cases shared.named

theorem labelBlock_document (h : labels ≠ []) :
    LabelBlock labels (Yaml.document (.textMap labels)) where
  document := rfl
  lines := ⟨Yaml.entryText, Yaml.document_textMap h, fun _ _ hkey short hvalue =>
    Yaml.entryText_of_words hkey short hvalue⟩

theorem siteAffinity_eq (site : String) : siteAffinity site =
    .object [("podAffinity", .object
      [("preferredDuringSchedulingIgnoredDuringExecution", .array [.object
        [("podAffinityTerm", .object
          [("labelSelector", .object
            [("matchExpressions", .array [.object
              [("key", .string siteNameLabel), ("operator", .string "In"),
                ("values", .array [.string site])]])]),
            ("topologyKey", .string "kubernetes.io/hostname")]),
          ("weight", .int 100)]])])] := by
  have hoperator : ¬ "operator" < "key" := by decide +kernel
  have hvalues : ¬ "values" < "key" ∧ ¬ "values" < "operator" := by decide +kernel
  have htopology : ¬ "topologyKey" < "labelSelector" := by decide +kernel
  have hweight : ¬ "weight" < "podAffinityTerm" := by decide +kernel
  simp only [siteAffinity, Json.ofFields, Entries.ofList, List.foldl_cons, List.foldl_nil,
    Entries.put, hoperator, hvalues, htopology, hweight, String.reduceEq, if_false, Json.strings,
    List.map_cons, List.map_nil]

theorem document_siteAffinity (site : String) :
    Yaml.document (siteAffinity site) = colocation (Yaml.scalarLine 10 site) := by
  generalize hline : Yaml.scalarLine 10 site = line
  have plain : ∀ key ∈ ["podAffinity", "preferredDuringSchedulingIgnoredDuringExecution",
      "podAffinityTerm", "labelSelector", "matchExpressions", "key", "operator", "values",
      "topologyKey", "weight"], Yaml.IsPlain key ∧ key.utf8ByteSize ≤ Yaml.simpleKeyMost := by
    decide +kernel
  have hlabel : Yaml.scalarLine 10 siteNameLabel = " lms.krestomat.io/lms-name\n" :=
    Yaml.scalarLine_of_plain 10 (by decide +kernel)
  have hoperator : Yaml.scalarLine 10 "In" = " In\n" :=
    Yaml.scalarLine_of_plain 10 (by decide +kernel)
  have hhost : Yaml.scalarLine 6 "kubernetes.io/hostname" = " kubernetes.io/hostname\n" :=
    Yaml.scalarLine_of_plain 6 (by decide +kernel)
  have hweight : Yaml.valueLines 4 .afterKey (.int 100) = " 100\n" := rfl
  rw [siteAffinity_eq]
  simp only [Yaml.document, Yaml.fieldLines_of_plain, plain, List.mem_cons, String.reduceEq,
    true_or, or_true, false_or, Yaml.fieldLines.eq_1, Yaml.itemLines, Yaml.valueLines,
    Nat.reduceAdd, Bool.false_eq_true, if_false, if_true, hlabel, hoperator, hhost, hweight, hline]
  -- both sides have the line of the name in the middle: first join what follows it, then the rest
  unfold colocation
  simp only [Yaml.spaces, List.replicate, String.reduceOfList, String.append_assoc,
    String.reduceAppend, String.append_empty, String.empty_append]
  generalize line ++ _ = rest
  simp only [← String.append_assoc, String.reduceAppend]

theorem affinityBlock_document (site : String) :
    AffinityBlock site (Yaml.document (siteAffinity site)) where
  text := document_siteAffinity site
  word hword := by rw [document_siteAffinity, Yaml.scalarLine_of_word 10 hword]

theorem Composition.shows_ofSite (site : String) (templateLabels : Option (Entries String)) :
    (Composition.ofSite site templateLabels).Shows site templateLabels :=
  have shared := sharedLabels_siteLabels site templateLabels
  ⟨shared, labelBlock_document shared.ne_nil, affinityBlock_document site⟩

end SiteOperator

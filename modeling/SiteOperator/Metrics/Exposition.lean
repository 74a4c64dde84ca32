import SiteOperator.Decimal.Shortest
import SiteOperator.Metrics.Registry
import SiteOperator.TextOrder

/-!
# The text of metrics

Metrics are shown as families in the order of their names.  A family without samples is left out.
The labels of a sample stand in the order of their names and samples in the order of their label
values.
-/

namespace SiteOperator

/-- The label pairs of a sample, in the order of the label names. -/
abbrev Labels := List (String × String)

/-- A family of samples: what it is called, what it means, its type, and for each of its label sets
the lines that show the values. -/
structure Family where
  name : String
  help : String
  type : String
  samples : List (Labels × List String)

namespace Exposition

def nameStart : String := "lms_krestomat_io_"

def escape (s : String) : String :=
  String.ofList <| s.toList.flatMap fun c =>
    if c = '\\' then ['\\', '\\']
    else if c = '\n' then ['\\', 'n']
    else if c = '"' then ['\\', '"']
    else [c]

def labelText (labels : Labels) : String :=
  "\x7b" ++ ",".intercalate (labels.map fun (k, v) => k ++ "=\"" ++ escape v ++ "\"") ++ "\x7d"

def sampleLine (name : String) (labels : Labels) (value : String) : String :=
  nameStart ++ name ++ labelText labels ++ " " ++ value

def countText (n : Nat) : String :=
  match Binary64.ofNat? n with
  | some x => NumberLayout.sample.render x
  | none => toString n

/-- The lines of a histogram: its buckets, the sum and the number of durations. -/
def histogramLines (name : String) (labels : Labels) (histogram : Histogram) : List String :=
  let bucket (bound : String) (n : Nat) : String :=
    sampleLine (name ++ "_bucket") (labels ++ [("le", bound)]) (toString n)
  ((Histogram.boundValues.zip histogram.below).map fun (bound, n) =>
      bucket (NumberLayout.sample.render bound) n) ++
    [bucket "+Inf" histogram.count,
      sampleLine (name ++ "_sum") labels (NumberLayout.sample.render histogram.sum),
      sampleLine (name ++ "_count") labels (toString histogram.count)]

/-- Whether the values of one label set come before those of another one, or are the same. -/
def before (a b : Labels × List String) : Bool :=
  textsLe (a.1.map (·.2)) (b.1.map (·.2))

/-- The counters that a function gives labels to, as samples of a family. -/
def counterSamples (registry : Registry) (name : String) (labels : Counter → Option Labels) :
    List (Labels × List String) :=
  registry.counters.filterMap fun (counter, n) =>
    (labels counter).map fun labels => (labels, [sampleLine name labels (countText n)])

/-- The families of a registry, in the order of their names. -/
def families (registry : Registry) : List Family :=
  let counters (name help : String) (labels : Counter → Option Labels) : Family :=
    ⟨name, help, "counter", counterSamples registry name labels⟩
  [counters "dependants_applied_total" "Total number of dependant applies by kind" fun
      | .applied kind => some [("kind", kind)]
      | _ => none,
    counters "dependants_deleted_total" "Total number of dependant deletions by kind" fun
      | .deleted kind => some [("kind", kind)]
      | _ => none,
    counters "errors_total" "Total number of errors by resource type and error category" fun
      | .errors resource reason => some [("error_type", reason), ("resource_type", resource)]
      | _ => none,
    ⟨"reconciliation_duration_seconds", "Duration of reconciliations in seconds by resource type",
      "histogram",
      registry.durations.map fun (resource, histogram) =>
        let labels := [("resource_type", resource)]
        (labels, histogramLines "reconciliation_duration_seconds" labels histogram)⟩,
    counters "reconciliations_total"
      "Total number of reconciliations by resource type and status" fun
      | .reconciliations resource outcome =>
          some [("resource_type", resource), ("status", outcome.label)]
      | _ => none,
    counters "requeues_total" "Total number of requeue operations by resource type and reason" fun
      | .requeues resource reason => some [("reason", reason), ("resource_type", resource)]
      | _ => none,
    ⟨"template_references", "Number of LMSMoodle resources referencing a template", "gauge",
      registry.references.map fun (template, n) =>
        let labels := [("template", template)]
        (labels, [sampleLine "template_references" labels (countText n)])⟩]

def sampleLines (family : Family) : List String :=
  (family.samples.mergeSort before).flatMap (·.2)

def familyLines (family : Family) : List String :=
  if family.samples.isEmpty then []
  else
    ("# HELP " ++ nameStart ++ family.name ++ " " ++ family.help) ::
      ("# TYPE " ++ nameStart ++ family.name ++ " " ++ family.type) :: sampleLines family

def lines (registry : Registry) : List String := (families registry).flatMap familyLines

def text (registry : Registry) : String := String.join ((lines registry).map (· ++ "\n"))

end Exposition

end SiteOperator

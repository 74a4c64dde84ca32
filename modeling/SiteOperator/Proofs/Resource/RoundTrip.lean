import SiteOperator.Proofs.Json.Alike
import SiteOperator.Proofs.Resource.Patched
import SiteOperator.Resource.Dependent

/-!
# Reading what was printed

Specs, statuses and conditions are printed as JSON values and read back as they were. What is
printed of a value that was read is in normal form: to read and print it once more changes nothing.
Values that differ only in fields that nobody reads, or in whether an optional field is missing or
null, are printed alike (`RoundTrip`). A record may also be written as an array of its leading
fields, and the desired state of a site as an object; their normal forms are an object and a name.
-/

namespace SiteOperator

/-- The values of a type are printed and read without a loss. `Fits` holds of the values of the
type, and the layout says which JSON values are the same to its reader. -/
structure RoundTrip {α : Type} (read : Decoder α) (print : α → Json) (Fits : α → Prop)
    (layout : Layout) : Prop where
  /-- Every value is read as it was printed. -/
  read_print : ∀ x, Fits x → read (print x) = some x
  /-- What is printed of a value that was accepted is accepted and printed as it is. -/
  normal : ∀ value printed, (read value).map print = some printed →
    (read printed).map print = some printed
  /-- An optional field that is missing, one that is null and a field that is unknown leave no
  trace: with or without them the same is printed, or both values are refused. -/
  alike : ∀ value other, value.Alike layout other → (read value).map print = (read other).map print

theorem RoundTrip.of_respects {α : Type} {read : Decoder α} {print : α → Json} {Fits : α → Prop}
    {layout : Layout} (read_print : ∀ x, Fits x → read (print x) = some x)
    (fits : ∀ value x, read value = some x → Fits x) (respects : read.Respects layout) :
    RoundTrip read print Fits layout where
  read_print := read_print
  normal := by
    intro value printed h
    obtain ⟨x, hx, rfl⟩ := Option.map_eq_some_iff.mp h
    rw [read_print x (fits value x hx), Option.map_some]
  alike _ _ h := congrArg (Option.map print) (respects h)

def FitsWord (n : Int) : Prop := -(Nat.pow 2 63 : Nat) ≤ n ∧ n < (Nat.pow 2 63 : Nat)

namespace Decoder

theorem integer64_int {n : Int} (h : FitsWord n) : integer64 (.int n) = some n := by
  obtain ⟨least, greatest⟩ := h
  have within : (decide (-(Nat.pow 2 63 : Nat) ≤ n) && decide (n ≤ (Nat.pow 2 63 : Nat) - 1)) =
      true := by
    rw [Bool.and_eq_true, decide_eq_true_eq, decide_eq_true_eq]
    exact ⟨least, Int.le_sub_one_of_lt greatest⟩
  exact if_pos within

theorem fitsWord_of_integer64 {value : Json} {n : Int} (h : integer64 value = some n) :
    FitsWord n := by
  unfold integer64 integerBetween at h
  split at h
  · obtain ⟨hrange, heq⟩ := Option.ite_none_right_eq_some.mp h
    cases heq
    rw [Bool.and_eq_true, decide_eq_true_eq, decide_eq_true_eq] at hrange
    exact ⟨hrange.1, Int.lt_of_le_sub_one hrange.2⟩
  · cases h

theorem eq_of_nullable {α : Type} {read : Decoder α} {value : Json} {x : α}
    (h : nullable read value = some (some x)) : read value = some x := by
  unfold nullable at h
  split at h
  · cases h
  · simpa using h

end Decoder

namespace SpecBlocks

variable {a b : Fields}

def layout : Layout :=
  DependentKind.all.map (fun kind => (kind.specKey, .orNull Eq)) ++ [(omitPoliciesKey, .orNull Eq)]

theorem decode_encode (spec : SpecBlocks) : decode spec.encode = some spec := by
  simp [decode, encode, ofFields?, toFields, Decoder.record, Json.ofFields, Fields.optional,
    DependentKind.all, DependentKind.specKey, omitPoliciesKey, PerKind.get, Entries.at?_ofList,
    Entries.at?_append, Json.at?_fieldIf, Json.reverse_fieldIf, Decoder.nullable_fields,
    Decoder.nullable_flag]

/-- The blocks are read alike from any two objects that agree on them, whatever stands beside. -/
theorem ofFields?_congr (h : Fields.Agree layout a b) : ofFields? a = ofFields? b := by
  simp only [Fields.Agree, layout, DependentKind.all, List.map_cons, List.map_nil,
    List.cons_append, List.nil_append, List.forall_mem_cons] at h
  obtain ⟨moodle, postgres, keydb, nfs, omitPolicies, -⟩ := h
  simp only [ofFields?, Fields.optional_congr moodle, Fields.optional_congr postgres,
    Fields.optional_congr keydb, Fields.optional_congr nfs, Fields.optional_congr omitPolicies]

theorem respects : Decoder.Respects decode layout :=
  .of_fields (fun _ => rfl) ofFields?_congr

end SpecBlocks

namespace SiteSpec

/-- The fields of a site's own and, in the same object, those of its overrides. -/
def layout : Layout :=
  [("lmsMoodleTemplateName", .exact), ("desiredState", .orNull Eq)] ++ SpecBlocks.layout

theorem decode_encode (spec : SiteSpec) : decode spec.encode = some spec := by
  have states (value : Option DesiredState) :
      Decoder.nullable DesiredState.decode
        ((value.map fun state => Json.string state.name).getD .null) = some value :=
    Decoder.nullable_getD_map value (fun state _ => by cases state <;> rfl) nofun
  have flat (fields : Fields) : Decoder.object (.object fields) = some fields := rfl
  simp [decode, encode, SpecBlocks.ofFields?, SpecBlocks.toFields, flat, Json.ofFields,
    Fields.required, Fields.optional, DependentKind.all, DependentKind.specKey,
    SpecBlocks.omitPoliciesKey, PerKind.get, Entries.at?_ofList, Entries.at?_append,
    Entries.at?_cons, Json.at?_fieldIf, Json.reverse_fieldIf, Decoder.text,
    Decoder.nullable_fields, Decoder.nullable_flag, states]

theorem respects : Decoder.Respects decode layout := by
  refine .of_fields (fun _ => rfl) fun agree => ?_
  simp only [Fields.Agree, layout, List.cons_append, List.nil_append, List.forall_mem_cons] at agree
  obtain ⟨templateName, state, blocks⟩ := agree
  simp only [Fields.required_congr templateName, Fields.optional_congr state,
    SpecBlocks.ofFields?_congr blocks]

end SiteSpec

namespace Condition

def layout : Layout :=
  [("type", .exact), ("status", .exact), ("reason", .orNull Eq), ("message", .orNull Eq),
    ("lastTransitionTime", .orNull Eq)]

theorem respects : Decoder.Respects decode layout := by
  refine .of_fields (fun _ => rfl) fun agree => ?_
  simp only [Fields.Agree, layout, List.forall_mem_cons] at agree
  obtain ⟨type, status, reason, message, time, -⟩ := agree
  simp only [Fields.required_congr type, Fields.required_congr status,
    Fields.optional_congr reason, Fields.optional_congr message, Fields.optional_congr time]

end Condition

namespace SiteStatus

variable {status : SiteStatus}

/-- The list of conditions may be missing, but it is not null. -/
def layout : Layout :=
  [("conditions", .items (Json.Alike Condition.layout)), ("state", .orNull Eq),
    ("url", .orNull Eq), ("storageGb", .orNull Eq), ("registeredUsers", .orNull Eq),
    ("release", .orNull Eq)]

def Fits (status : SiteStatus) : Prop := ∀ n, status.registeredUsers = some n → FitsWord n

theorem decode_encode (h : status.Fits) : decode status.encode = some status := by
  have conditions := Decoder.list_map status.conditions Condition.decode_encode
  have users : Decoder.nullable Decoder.integer64
      ((status.registeredUsers.map Json.int).getD .null) = some status.registeredUsers :=
    Decoder.nullable_getD_map _ (fun n hn => Decoder.integer64_int (h n hn)) nofun
  obtain ⟨fields, hencode, -, hconditions, hstate, hurl, hstorage, husers, hrelease⟩ :=
    status.exists_encode_eq
  simp [hencode, decode, Decoder.record, Fields.defaulted, Fields.optional, hconditions, hstate,
    hurl, hstorage, husers, hrelease, conditions, users, Decoder.nullable_text]

theorem fits_of_decode {value : Json} (h : decode value = some status) : status.Fits := by
  simp only [decode, Option.bind_eq_bind, Option.bind_eq_some_iff] at h
  obtain ⟨_, -, _, -, _, -, _, -, _, -, users, husers, _, -, hstatus⟩ := h
  cases hstatus
  rintro n rfl
  exact Decoder.fitsWord_of_integer64 (Decoder.eq_of_nullable husers)

theorem respects : Decoder.Respects decode layout := by
  refine .of_fields (fun _ => rfl) fun agree => ?_
  simp only [Fields.Agree, layout, List.forall_mem_cons] at agree
  obtain ⟨conditions, state, url, storageGb, users, release, -⟩ := agree
  simp only [Fields.list_congr Condition.respects conditions, Fields.optional_congr state,
    Fields.optional_congr url, Fields.optional_congr storageGb, Fields.optional_congr users,
    Fields.optional_congr release]

end SiteStatus

namespace TemplateStatus

variable {status : TemplateStatus}

def layout : Layout :=
  [("state", .orNull Eq), ("lmsMoodles", .exact), ("lmsMoodleCount", .exact)]

def Fits (status : TemplateStatus) : Prop := FitsWord status.siteCount

theorem decode_encode (h : status.Fits) : decode status.encode = some status := by
  have sites := Decoder.text_strings status.sites
  have count := Decoder.integer64_int h
  simp [decode, encode, Decoder.record, Json.ofFields, Fields.optional, Fields.defaulted,
    Entries.at?_ofList, Entries.at?_cons, Json.at?_fieldIf, Json.reverse_fieldIf,
    Decoder.nullable_text, sites, count]

theorem fits_of_decode {value : Json} (h : decode value = some status) : status.Fits := by
  simp only [decode, Option.bind_eq_bind, Option.bind_eq_some_iff] at h
  obtain ⟨fields, -, _, -, _, -, count, hcount, hstatus⟩ := h
  cases hstatus
  unfold Fields.defaulted at hcount
  split at hcount
  · cases hcount
    simp [Fits, FitsWord]
  · exact Decoder.fitsWord_of_integer64 hcount

theorem respects : Decoder.Respects decode layout := by
  refine .of_fields (fun _ => rfl) fun agree => ?_
  simp only [Fields.Agree, layout, List.forall_mem_cons] at agree
  obtain ⟨state, sites, count, -⟩ := agree
  simp only [Fields.optional_congr state, Fields.defaulted_congr sites,
    Fields.defaulted_congr count]

end TemplateStatus

namespace UsageItem

def layout : Layout := [("name", .exact), ("value", .orNull Eq)]

theorem decode_encode (item : UsageItem) : decode item.encode = some item := by
  simp [decode, encode, Decoder.record, Json.ofFields, Fields.required, Fields.defaulted,
    Entries.at?_ofList, Entries.at?_cons, Decoder.text, Decoder.anything]

theorem respects : Decoder.Respects decode layout := by
  refine .of_fields (fun _ => rfl) fun agree => ?_
  simp only [Fields.Agree, layout, List.forall_mem_cons] at agree
  obtain ⟨name, value, -⟩ := agree
  simp only [Fields.required_congr name, Fields.anything_congr value]

end UsageItem

namespace WorkloadVersion

def layout : Layout := [("release", .orNull Eq)]

theorem decode_encode (version : WorkloadVersion) : decode version.encode = some version := by
  simp [decode, encode, Decoder.record, Json.ofFields, Fields.optional, Entries.at?_ofList,
    Json.at?_fieldIf, Json.reverse_fieldIf, Decoder.nullable_text]

theorem respects : Decoder.Respects decode layout := by
  refine .of_fields (fun _ => rfl) fun agree => ?_
  simp only [Fields.Agree, layout, List.forall_mem_cons] at agree
  obtain ⟨release, -⟩ := agree
  simp only [Fields.optional_congr release]

end WorkloadVersion

namespace DependentStatus

def layout : Layout :=
  [("conditions", .items (Json.Alike Condition.layout)), ("state", .orNull Eq),
    ("url", .orNull Eq), ("version", .orNull (Json.Alike WorkloadVersion.layout)),
    ("usage", .items (Json.Alike UsageItem.layout))]

theorem decode_encode (status : DependentStatus) : decode status.encode = some status := by
  have conditions := Decoder.list_map status.conditions Condition.decode_encode
  have version : Decoder.nullable WorkloadVersion.decode
      ((status.version.map WorkloadVersion.encode).getD .null) = some status.version :=
    Decoder.nullable_getD_map _ (fun version _ => version.decode_encode) nofun
  have usage := Decoder.list_map status.usage UsageItem.decode_encode
  simp [decode, encode, Decoder.record, Json.ofFields, Fields.optional, Fields.defaulted,
    Entries.at?_ofList, Entries.at?_append, Entries.at?_cons, Json.at?_fieldIf,
    Json.reverse_fieldIf, Decoder.nullable_text, conditions, version, usage]

theorem respects : Decoder.Respects decode layout := by
  refine .of_fields (fun _ => rfl) fun agree => ?_
  simp only [Fields.Agree, layout, List.forall_mem_cons] at agree
  obtain ⟨conditions, state, url, version, usage, -⟩ := agree
  simp only [Fields.list_congr Condition.respects conditions, Fields.optional_congr state,
    Fields.optional_congr url, Fields.optional_congr_of_respects WorkloadVersion.respects version,
    Fields.list_congr UsageItem.respects usage]

end DependentStatus

/-- Specs, statuses and conditions are read as they were printed, with any JSON in their blocks and
usage values, and whatever is read has one normal form, in which nothing is left of nulls and of
fields that nobody knows. The values of the two statuses of the operator are those whose numbers
fit 64 bits. -/
theorem resources_roundTrip :
    RoundTrip SpecBlocks.decode SpecBlocks.encode (fun _ => True) SpecBlocks.layout ∧
      RoundTrip SiteSpec.decode SiteSpec.encode (fun _ => True) SiteSpec.layout ∧
      RoundTrip SiteStatus.decode SiteStatus.encode SiteStatus.Fits SiteStatus.layout ∧
      RoundTrip TemplateStatus.decode TemplateStatus.encode TemplateStatus.Fits
        TemplateStatus.layout ∧
      RoundTrip Condition.decode Condition.encode (fun _ => True) Condition.layout ∧
      RoundTrip DependentStatus.decode DependentStatus.encode (fun _ => True)
        DependentStatus.layout := by
  refine ⟨?_, ?_, ?_, ?_, ?_, ?_⟩
  · exact .of_respects (fun spec _ => spec.decode_encode) (fun _ _ _ => trivial)
      SpecBlocks.respects
  · exact .of_respects (fun spec _ => spec.decode_encode) (fun _ _ _ => trivial) SiteSpec.respects
  · exact .of_respects (fun _ => SiteStatus.decode_encode) (fun _ _ => SiteStatus.fits_of_decode)
      SiteStatus.respects
  · exact .of_respects (fun _ => TemplateStatus.decode_encode)
      (fun _ _ => TemplateStatus.fits_of_decode) TemplateStatus.respects
  · exact .of_respects (fun condition _ => condition.decode_encode) (fun _ _ _ => trivial)
      Condition.respects
  · exact .of_respects (fun status _ => status.decode_encode) (fun _ _ _ => trivial)
      DependentStatus.respects

/-- A null and a field that nobody knows are not printed again. -/
theorem resources_roundTrip_of_unknown_field :
    (SiteSpec.decode (.object [("color", .string "red"), ("lmsMoodleTemplateName", .string "basic"),
        ("moodleSpec", .null)])).map SiteSpec.encode =
      (SiteSpec.decode (.object [("lmsMoodleTemplateName", .string "basic")])).map
        SiteSpec.encode :=
  resources_roundTrip.2.1.alike _ _ (.object (by
    simp only [Fields.Agree, SiteSpec.layout, SpecBlocks.layout, DependentKind.all, List.map_cons,
      List.map_nil, List.cons_append, List.nil_append, List.forall_mem_cons]
    exact ⟨rfl, rfl, rfl, rfl, rfl, rfl, rfl, List.forall_mem_nil _⟩))

end SiteOperator

import SiteOperator.Resource.Site
import SiteOperator.Yaml.Document

/-!
# Manifests of the resources

Sites and templates are resources that a cluster must be told about.  A manifest gives their
names, the columns in which they are listed, and the schema of their fields; it is written as a
YAML document under a fixed heading.
-/

namespace SiteOperator

/-- A manifest as a file. -/
structure Manifest where
  fileName : String
  content : Json

namespace Manifest

/-- A schema with a description, its type and further fields. -/
def described (description type : String) (fields : List (String × Json)) : Json :=
  .ofFields ([("description", .string description), ("type", .string type)] ++ fields)

def optionalValue (description type : String) : Json :=
  described description type [("nullable", .bool true)]

def openBlock (description : String) : Json :=
  described description "object"
    [("nullable", .bool true), ("x-kubernetes-preserve-unknown-fields", .bool true)]

/-- An object with known fields, of which some are required. -/
def objectSchema (description : String) (required : List String)
    (properties : List (String × Json)) (fields : List (String × Json)) : Json :=
  described description "object"
    ([("properties", .ofFields properties)] ++
      Json.fieldIf "required" (if required.isEmpty then none else some (.strings required)) ++
      fields)

def paragraph (lines : List String) : String := "\n".intercalate lines

def blockProperties : List (String × Json) :=
  [(DependentKind.moodle.specKey, openBlock "Moodle workload spec"),
    (DependentKind.postgres.specKey, openBlock "Postgres database spec"),
    (DependentKind.keydb.specKey, openBlock "Keydb cache spec"),
    (DependentKind.nfs.specKey, openBlock "NFS Ganesha filesystem spec"),
    (SpecBlocks.omitPoliciesKey,
      optionalValue "Skip the default network policies in the site namespace." "boolean")]

def conditionSchema : Json :=
  objectSchema
    (paragraph
      ["Condition represents an observation of a resource's current state.",
        "",
        "The same shape is used for the operator's own conditions and for the conditions",
        "read back from dependents."])
    ["status", "type"]
    [("type",
        described "Type of condition: `Ready` or one of the mirrored `<Kind>Ready` types."
          "string" []),
      ("status", described "Status of the condition: True, False, or Unknown." "string" []),
      ("reason",
        optionalValue "Brief CamelCase reason for the condition's last transition." "string"),
      ("message",
        optionalValue "Human-readable message indicating details about the transition."
          "string"),
      ("lastTransitionTime",
        optionalValue
          "Last time the condition transitioned from one status to another (RFC3339 format)."
          "string")]
    []

def templateSpecSchema : Json :=
  objectSchema
    (paragraph
      ["Baseline spec shared by many sites.",
        "",
        "A dependent kind is provisioned for a site when either the template or the site",
        "provides its block."])
    [] blockProperties []

def templateStatusSchema : Json :=
  objectSchema "`LMSMoodleTemplate` status" []
    [("state", optionalValue "`Ready` or `Terminating`" "string"),
      ("lmsMoodles",
        described "Names of the `LMSMoodle` resources referencing this template" "array"
          [("default", .array []), ("items", .ofFields [("type", .string "string")])]),
      ("lmsMoodleCount",
        .ofFields
          [("default", .int 0), ("format", .string "int64"), ("type", .string "integer")])]
    [("nullable", .bool true)]

def siteSpecSchema : Json :=
  objectSchema
    (paragraph
      ["`LMSMoodle` provisions one Moodle site with its database, cache and shared filesystem.",
        "",
        "The effective spec of each dependent is the referenced template's block merged with",
        "the override block of the same name on this resource.",
        "",
        "# Example",
        "",
        "```yaml",
        "apiVersion: lms.krestomat.io/v1alpha1",
        "kind: LMSMoodle",
        "metadata:",
        "  name: school-a",
        "spec:",
        "  lmsMoodleTemplateName: basic",
        "  desiredState: Suspended",
        "```"])
    ["lmsMoodleTemplateName"]
    ([("lmsMoodleTemplateName",
        described "Name of the `LMSMoodleTemplate` providing the baseline specs." "string" []),
      ("desiredState",
        described "Lifecycle requested for a site." "string"
          [("enum", .strings [DesiredState.ready.name, DesiredState.suspended.name]),
            ("nullable", .bool true)])] ++
      blockProperties)
    []

def siteStatusSchema : Json :=
  objectSchema "`LMSMoodle` status" []
    [("conditions",
        .ofFields
          [("default", .array []), ("items", conditionSchema), ("type", .string "array")]),
      ("state",
        optionalValue
          "Aggregate state, e.g. `Ready`, `PostgresPending`, `SuspendingMoodleSuccessful`"
          "string"),
      ("url", optionalValue "Site URL mirrored from the Moodle workload" "string"),
      ("storageGb",
        optionalValue "Storage used in GB, mirrored from the workload `storage_total` usage item"
          "string"),
      ("registeredUsers",
        described "Registered users, mirrored from the workload `users_total` usage item"
          "integer" [("format", .string "int64"), ("nullable", .bool true)]),
      ("release", optionalValue "Moodle release mirrored from the workload" "string")]
    [("nullable", .bool true)]

def column (name type path : String) : Json :=
  .ofFields [("name", .string name), ("type", .string type), ("jsonPath", .string path)]

def ageColumn : Json := column "Age" "date" ".metadata.creationTimestamp"

def ofType (type : ResourceType) (singular shortName description : String)
    (columns : List Json) (spec status : Json) : Manifest where
  fileName := type.plural ++ ".crd.yaml"
  content :=
    let schema := Json.ofFields
      [("description", .string description), ("title", .string type.kind),
        ("type", .string "object"), ("required", .strings ["spec"]),
        ("properties", .ofFields [("spec", spec), ("status", status)])]
    let version := Json.ofFields
      [("name", .string type.version), ("served", .bool true), ("storage", .bool true),
        ("additionalPrinterColumns", .array columns),
        ("schema", .ofFields [("openAPIV3Schema", schema)]),
        ("subresources", .ofFields [("status", .object [])])]
    let names := Json.ofFields
      [("categories", .array []), ("kind", .string type.kind), ("plural", .string type.plural),
        ("shortNames", .strings [shortName]), ("singular", .string singular)]
    .ofFields
      [("apiVersion", .string "apiextensions.k8s.io/v1"),
        ("kind", .string "CustomResourceDefinition"),
        ("metadata", .ofFields [("name", .string (type.plural ++ "." ++ type.group))]),
        ("spec", .ofFields
          [("group", .string type.group), ("names", names), ("scope", .string "Cluster"),
            ("versions", .array [version])])]

def templates : Manifest :=
  ofType Template.resourceType "lmsmoodletemplate" "lmsmt"
    ("LMSMoodleTemplate holds the baseline Moodle, Postgres, Keydb and NFS specs shared by " ++
      "LMSMoodle sites. Deletion is refused while any LMSMoodle references it.")
    [column "State" "string" ".status.state",
      column "Sites" "integer" ".status.lmsMoodleCount", ageColumn]
    templateSpecSchema templateStatusSchema

def sites : Manifest :=
  ofType Site.resourceType "lmsmoodle" "lmsm"
    ("LMSMoodle provisions a Moodle site from an LMSMoodleTemplate. The operator creates the " ++
      "site namespace and applies Moodle, Postgres, Keydb and NFS Ganesha resources, mirroring " ++
      "their readiness in status.")
    [column "State" "string" ".status.state", column "URL" "string" ".status.url",
      column "Release" "string" ".status.release", ageColumn]
    siteSpecSchema siteStatusSchema

/-- Every manifest, in the order in which they are written. -/
def all : List Manifest := [templates, sites]

def heading : List String :=
  ["# Copyright (c) 2025 Erick Bourgeois, firestoned",
    "# SPDX-License-Identifier: MIT",
    "#",
    "# This file is AUTO-GENERATED from src/crd.rs",
    "# DO NOT EDIT MANUALLY - Run `cargo run --bin crdgen` to regenerate",
    "#"]

def text (manifest : Manifest) : String :=
  String.join (heading.map (· ++ "\n")) ++ Yaml.document manifest.content

def ofFileName? (fileName : String) : Option Manifest :=
  all.find? fun manifest => manifest.fileName = fileName

def report : List String :=
  ["Generating CRD YAML files from src/crd.rs..."] ++
    all.map (fun manifest => "  ✓ Generated " ++ manifest.fileName) ++
    ["✓ Successfully generated CRD YAML files in deploy/crds/", "", "Next steps:",
      "  1. Review the generated files", "  2. Deploy with: kubectl apply -f deploy/crds/"]

end Manifest

end SiteOperator

import SiteOperator.Reconcile.Owned

/-!
# Reconciling a site

A reconcile resolves the template, composes the plan, and puts the labels of the site in place.  A
site that is being deleted is finalized and loses its finalizer once nothing of it is left.  Any
other site gets its finalizer, its namespace and its network policies before its dependents are
applied or suspended.  The status is written last, and only if it says something new.
-/

namespace SiteOperator

/-- The finalizer by which the operator holds on to sites and templates. -/
def operatorFinalizer : String := "lms.krestomat.io/finalizer"

def metadataPatch (key : String) (value : Json) : Json :=
  .ofFields [("metadata", .ofFields [(key, value)])]

def statusPatch (status : Json) : Json := .ofFields [("status", status)]

namespace Task

/-- Adds the operator's finalizer to an object that does not carry it. -/
def ensureFinalizer {α : Type} (object : Locator) (data : ObjectMeta) (read : Decoder α) :
    Task Unit :=
  match data.finalizersWith? operatorFinalizer with
  | none => pure ()
  | some finalizers => do
      let _ ← request (.patch object (metadataPatch "finalizers" (.strings finalizers))) read

/-- Removes the operator's finalizer from an object that carries it. -/
def removeFinalizer {α : Type} (object : Locator) (data : ObjectMeta) (read : Decoder α) :
    Task Unit :=
  match data.finalizersWithout? operatorFinalizer with
  | none => pure ()
  | some finalizers => do
      let _ ← request (.patch object (metadataPatch "finalizers" (.strings finalizers))) read

end Task

/-- The labels and the blocks of a site's template.  A site that is being deleted goes on without a
template that no longer exists. -/
def resolveTemplate (template : Option Template) (name : String) (deleting : Bool) :
    Except Fault (Option (Entries String) × SpecBlocks) :=
  match template with
  | some template => .ok (template.metadata.labels, template.spec)
  | none => if deleting then .ok (none, .empty) else .error (.templateNotFound name)

def labelsNeedPatch (current : Option (Entries String)) (desired : Entries String) : Bool :=
  desired.any fun (key, value) => (current.getD []).at? key ≠ some value

namespace Site

def isTerminating (site : Site) : Bool := site.metadata.isTerminating

def ownLocator (site : Site) : Locator := locator site.name

def patchLabels (site : Site) (labels : Entries String) : Task Unit :=
  if labelsNeedPatch site.metadata.labels labels then do
    let _ ← Task.request (.patch site.ownLocator (metadataPatch "labels" (.textMap labels)))
      decode
  else pure ()

/-- Writes the collected status, if it says something new. -/
def writeStatus (site : Site) (draft : StatusDraft) : Task Unit :=
  if draft.hasChanges then do
    let _ ← Task.request (.patchStatus site.ownLocator (statusPatch draft.collected.encode))
      decode
  else pure ()

/-- Deletes the network policies of the site, or creates those that are missing. -/
def reconcilePolicies (plan : Plan) (owner : SiteOwner) : Task Unit := do
  let names := plan.names
  let labels := plan.composition.labels
  let read := Decoder.typedMeta .networkPolicies Shape.networkPolicy
  let drop (name : String) : Task Unit := do
    let _ ← Task.deleteOwned (names.policyLocator name) ResourceType.networkPolicies.kind
      owner.reference.uid read
  let create (name : String) (body : Json) : Task Unit := do
    let _ ← Task.createMissing (names.policyLocator name) Shape.networkPolicy body
  if plan.omitPolicies then
    drop names.namespacePolicy
    drop names.nginxPolicy
  else
    create names.namespacePolicy (names.namespacePolicyObject owner.reference labels)
    create names.nginxPolicy (names.nginxPolicyObject owner.reference labels)

/-- Creates the namespace of the site if it is missing and sees to its network policies. -/
def reconcileNamespace (plan : Plan) (owner : SiteOwner) : Task Unit := do
  let labels := plan.composition.labels
  let _ ← Task.createMissing plan.names.namespaceLocator Shape.namespaces
    (plan.names.namespaceObject owner.reference labels)
  reconcilePolicies plan owner

/-- Finalizes a site that is being deleted, unless it does not carry the finalizer. -/
def finalize (site : Site) (plan : Plan) (owner : SiteOwner) (now : String) :
    Task Progress :=
  if site.metadata.hasFinalizer operatorFinalizer then do
    let (progress, draft) ← owner.runPass (Pass.finalize plan now (.ofCurrent site.status))
    site.writeStatus draft
    if progress = .settled then
      Task.removeFinalizer site.ownLocator site.metadata decode
    pure progress
  else pure .settled

def maintain (site : Site) (plan : Plan) (owner : SiteOwner) (now : String) :
    Task Progress := do
  Task.ofExcept plan.names.validate
  Task.ensureFinalizer site.ownLocator site.metadata decode
  reconcileNamespace plan owner
  let draft := StatusDraft.ofCurrent site.status
  let pass := if site.spec.isSuspended then Pass.suspend plan now draft
    else Pass.present plan now draft
  let (progress, draft) ← owner.runPass pass
  site.writeStatus draft
  pure progress

def reconcile (site : Site) (manager now : String) : Task Progress := do
  let templateName := site.spec.templateName
  let template ← Task.find? (Template.locator templateName) Template.decode
  let (templateLabels, blocks) ←
    Task.ofExcept (resolveTemplate template templateName site.isTerminating)
  let plan ← Task.ofExcept (Plan.compose site.name templateLabels blocks site.spec.overrides)
  site.patchLabels plan.composition.labels
  let reference ← Task.ofExcept site.ownerReference
  let owner : SiteOwner := ⟨reference, plan.composition.labels, manager⟩
  if site.isTerminating then site.finalize plan owner now
  else site.maintain plan owner now

end Site

end SiteOperator

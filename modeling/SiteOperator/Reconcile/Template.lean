import SiteOperator.Reconcile.Site
import SiteOperator.SiteCache

/-!
# Reconciling a template

A template publishes which sites reference it and stays until none does.  Before the cache of
sites is complete nothing is known about references, so nothing is done.
-/

namespace SiteOperator

def TemplateStatus.desired (sites : List String) (deleting : Bool) : TemplateStatus :=
  ⟨some (if deleting then "Terminating" else "Ready"), sites, sites.length⟩

def checkDeletable (name : String) (sites : List String) : Except Fault Unit :=
  if sites.isEmpty then .ok () else .error (.templateInUse name sites.length)

namespace Template

def name (template : Template) : String := template.metadata.anyName

def ownLocator (template : Template) : Locator := locator template.name

/-- Publishes a status, if it is not the one that is stored. -/
def writeStatus (template : Template) (desired : TemplateStatus) : Task Unit :=
  if template.status = some desired then pure ()
  else do
    let _ ← Task.request (.patchStatus template.ownLocator (statusPatch desired.encode)) decode

/-- Reconciles a template against the sites of a complete cache. -/
def reconcileSynced (template : Template) (sites : List String) : Task Progress := do
  let deleting := template.metadata.isTerminating
  Task.record (.references template.name sites.length)
  template.writeStatus (.desired sites deleting)
  if !deleting then
    Task.ensureFinalizer template.ownLocator template.metadata decode
    pure .settled
  else if !template.metadata.hasFinalizer operatorFinalizer then pure .settled
  else
    Task.ofExcept (checkDeletable template.name sites)
    Task.removeFinalizer template.ownLocator template.metadata decode
    pure .settled

def reconcile (template : Template) (cache : SiteCache) : Task Progress :=
  if cache.synced then template.reconcileSynced (cache.sitesUsing template.name)
  else pure .requeue

end Template

end SiteOperator

import SiteOperator.Control.Controller
import SiteOperator.Proofs.Cache.References

/-!
# Which templates a change of a site makes due

A site that comes, goes or changes makes the template due that the site references in the version
that the watch shows. Which sites reference a template depends on the version before as well, so the
template that a site has moved away from is missed, and no other template is
(`Controller.misses_template_iff`). As long as no site moves away from it, a template is made due
whenever its sites have become others (`Controller.exists_due_of_differs`).
-/

namespace SiteOperator

namespace SiteCache

variable {sites : Entries Site} {template name : String} {site earlier : Site}

theorem namesUsing_cons_of_ne (h : site.spec.templateName ≠ template) (others : List Site) :
    namesUsing (site :: others) template = namesUsing others template := by
  rw [namesUsing, List.filter_cons_of_neg (by simpa using h), namesUsing]

theorem namesUsing_cons_ne_of_eq (h : site.spec.templateName = template) (others : List Site) :
    namesUsing (site :: others) template ≠ namesUsing others template := by
  intro heq
  have hlength := congrArg List.length heq
  simp [h] at hlength

namespace Filed

theorem namesUsing_put (h : Filed sites) (name : String) (site : Site) (template : String) :
    namesUsing (sites.put name site).values template =
      namesUsing (site :: (sites.remove name).values) template :=
  namesUsing_perm ((h.sorted.put_perm name site).map _) template

theorem namesUsing_of_at? (h : Filed sites) (hat : sites.at? name = some earlier)
    (template : String) :
    namesUsing sites.values template =
      namesUsing (earlier :: (sites.remove name).values) template :=
  namesUsing_perm ((h.sorted.perm_of_at? hat).map _) template

end Filed

end SiteCache

def WatchEvent.Shows (event : WatchEvent) (site : Site) : Prop :=
  event = .listed (.site site) ∨ event = .applied (.site site)

theorem WatchEvent.Shows.unique {event : WatchEvent} {site other : Site} (h : event.Shows site)
    (h' : event.Shows other) : site = other := by
  rcases h with rfl | rfl <;> rcases h' with heq | heq <;> cases heq <;> rfl

open SiteCache in
/-- One of the sites has changed, as a watch tells it: from what to what. -/
inductive SiteChange (sites : Entries Site) : WatchEvent → Entries Site → Prop where
  | created {event : WatchEvent} (site : Site) (shows : event.Shows site)
      (h : sites.at? (keyOf site) = none) :
      SiteChange sites event (sites.put (keyOf site) site)
  | updated {event : WatchEvent} (earlier site : Site) (shows : event.Shows site)
      (h : sites.at? (keyOf site) = some earlier) :
      SiteChange sites event (sites.put (keyOf site) site)
  | deleted (site : Site) (h : sites.at? (keyOf site) = some site) :
      SiteChange sites (.deleted (.site site)) (sites.remove (keyOf site))

/-- The event shows a site that referenced the template before and references another one now. -/
def MovesFrom (sites : Entries Site) (event : WatchEvent) (template : String) : Prop :=
  ∃ earlier site, event.Shows site ∧ sites.at? (SiteCache.keyOf site) = some earlier ∧
    earlier.spec.templateName = template ∧ site.spec.templateName ≠ template

theorem SiteChange.filed {sites later : Entries Site} {event : WatchEvent}
    (change : SiteChange sites event later) (h : SiteCache.Filed sites) :
    SiteCache.Filed later := by
  cases change with
  | created site => exact h.put site
  | updated earlier site => exact h.put site
  | deleted site => exact h.remove _

/-- Changes of sites one after the other, none of which moves a site away from the template. -/
inductive StaysWith (template : String) :
    Entries Site → List WatchEvent → Entries Site → Prop where
  | nil {sites : Entries Site} : StaysWith template sites [] sites
  | cons {sites middle later : Entries Site} {event : WatchEvent} {events : List WatchEvent}
      (change : SiteChange sites event middle) (stays : ¬ MovesFrom sites event template)
      (rest : StaysWith template middle events later) :
      StaysWith template sites (event :: events) later

namespace Controller

variable {controller : Controller} {cache : SiteCache} {event : WatchEvent} {site : Site}
  {sites later : Entries Site} {template : String}

theorem dueKeys_of_shows (duty : controller.duty = .templates) (shows : event.Shows site) :
    controller.dueKeys cache (.sites, event) = [⟨none, site.spec.templateName⟩] := by
  rcases shows with rfl | rfl <;> simp only [dueKeys, duty] <;> rfl

theorem dueKeys_of_deleted (duty : controller.duty = .templates) :
    controller.dueKeys cache (.sites, .deleted (.site site)) =
      [⟨none, site.spec.templateName⟩] := by
  simp only [dueKeys, duty]
  rfl

theorem not_movesFrom_deleted {seen : Sighting} : ¬ MovesFrom sites (.deleted seen) template := by
  rintro ⟨_, _, heq | heq, -⟩ <;> cases heq

/-- A template that is not due although its sites are others now has lost the site that moved. -/
theorem movesFrom_of_missed (duty : controller.duty = .templates) (filed : SiteCache.Filed sites)
    (change : SiteChange sites event later)
    (differs : SiteCache.namesUsing later.values template ≠
      SiteCache.namesUsing sites.values template)
    (missed : ⟨none, template⟩ ∉ controller.dueKeys cache (.sites, event)) :
    MovesFrom sites event template := by
  -- The other sites stay, so names come and go only with the two versions of the one site.
  cases change with
  | created site shows hat =>
      rw [dueKeys_of_shows duty shows, List.mem_singleton] at missed
      rw [filed.namesUsing_put, Entries.remove_of_at?_eq_none hat] at differs
      have hother : site.spec.templateName ≠ template := fun huses => missed (huses ▸ rfl)
      exact absurd (SiteCache.namesUsing_cons_of_ne hother _) differs
  | updated earlier site shows hat =>
      rw [dueKeys_of_shows duty shows, List.mem_singleton] at missed
      rw [filed.namesUsing_put, filed.namesUsing_of_at? hat] at differs
      have hleaves : site.spec.templateName ≠ template := fun huses => missed (huses ▸ rfl)
      refine ⟨earlier, site, shows, hat, ?_, hleaves⟩
      by_contra hother
      exact differs ((SiteCache.namesUsing_cons_of_ne hleaves _).trans
        (SiteCache.namesUsing_cons_of_ne hother _).symm)
  | deleted site hat =>
      rw [dueKeys_of_deleted duty, List.mem_singleton] at missed
      rw [filed.namesUsing_of_at? hat] at differs
      have hother : site.spec.templateName ≠ template := fun huses => missed (huses ▸ rfl)
      exact absurd (SiteCache.namesUsing_cons_of_ne hother _).symm differs

theorem missed_of_movesFrom (duty : controller.duty = .templates) (filed : SiteCache.Filed sites)
    (change : SiteChange sites event later) (moves : MovesFrom sites event template) :
    SiteCache.namesUsing later.values template ≠ SiteCache.namesUsing sites.values template ∧
      ⟨none, template⟩ ∉ controller.dueKeys cache (.sites, event) := by
  cases change with
  | created site shows hat =>
      obtain ⟨_, other, hother, hearlier, -⟩ := moves
      obtain rfl := shows.unique hother
      cases hat.symm.trans hearlier
  | updated earlier site shows hat =>
      obtain ⟨before, other, hother, hbefore, hused, hleaves⟩ := moves
      obtain rfl := shows.unique hother
      cases hat.symm.trans hbefore
      rw [dueKeys_of_shows duty shows, List.mem_singleton, filed.namesUsing_put,
        filed.namesUsing_of_at? hat, SiteCache.namesUsing_cons_of_ne hleaves]
      exact ⟨(SiteCache.namesUsing_cons_ne_of_eq hused _).symm,
        fun hdue => hleaves (WorkKey.mk.inj hdue).2.symm⟩
  | deleted => exact absurd moves not_movesFrom_deleted

/-- As long as no site moves away from a template, its sites do not become others without one of the
changes making it due. -/
theorem exists_due_of_differs {events : List WatchEvent} (duty : controller.duty = .templates)
    (filed : SiteCache.Filed sites) (history : StaysWith template sites events later)
    (differs : SiteCache.namesUsing later.values template ≠
      SiteCache.namesUsing sites.values template) :
    ∃ event ∈ events, ⟨none, template⟩ ∈ controller.dueKeys cache (.sites, event) := by
  induction history with
  | nil => exact absurd rfl differs
  | @cons sites middle later event events change stays _ ih =>
      by_cases hdue : ⟨none, template⟩ ∈ controller.dueKeys cache (.sites, event)
      · exact ⟨event, List.mem_cons_self, hdue⟩
      have hsame : SiteCache.namesUsing middle.values template =
          SiteCache.namesUsing sites.values template := by
        by_contra hdiffers
        exact stays (movesFrom_of_missed duty filed change hdiffers hdue)
      obtain ⟨event, hmem, hdue⟩ := ih (change.filed filed) (hsame ▸ differs)
      exact ⟨event, List.mem_cons_of_mem _ hmem, hdue⟩

/-- A change of a site makes every template due whose sites are others afterwards, but for the
template that the site has moved away from. -/
theorem misses_template_iff (duty : controller.duty = .templates) (filed : SiteCache.Filed sites)
    (change : SiteChange sites event later) (template : String) :
    SiteCache.namesUsing later.values template ≠ SiteCache.namesUsing sites.values template ∧
        ⟨none, template⟩ ∉ controller.dueKeys cache (.sites, event) ↔
      MovesFrom sites event template :=
  ⟨fun ⟨differs, missed⟩ => movesFrom_of_missed duty filed change differs missed,
    missed_of_movesFrom duty filed change⟩

def referrer (template : String) : Site :=
  ⟨{ ObjectMeta.empty with name := some "a" }, ⟨template, none, .empty⟩, none⟩

/-- The first site of a template is not missed. -/
theorem misses_no_template_of_created :
    SiteCache.namesUsing (Entries.put [] "a" (referrer "x")).values "x" ≠
        SiteCache.namesUsing [] "x" ∧
      ⟨none, "x"⟩ ∈ (Controller.start .templates).dueKeys .empty
        (.sites, .applied (.site (referrer "x"))) := by
  have hdiffers : SiteCache.namesUsing [referrer "x"] "x" ≠ SiteCache.namesUsing [] "x" :=
    SiteCache.namesUsing_cons_ne_of_eq rfl []
  refine ⟨hdiffers, ?_⟩
  by_contra hmissed
  have change : SiteChange [] (.applied (.site (referrer "x"))) [("a", referrer "x")] :=
    .created (referrer "x") (Or.inr rfl) rfl
  obtain ⟨_, site, -, hat, -⟩ :=
    (misses_template_iff rfl .nil change "x").mp ⟨hdiffers, hmissed⟩
  cases hat

/-- A site moves from one template to another, and the watch misses the template that it leaves. -/
theorem misses_template_of_moved :
    ∃ sites event later, SiteCache.Filed sites ∧ SiteChange sites event later ∧
      SiteCache.namesUsing later.values "x" ≠ SiteCache.namesUsing sites.values "x" ∧
      ⟨none, "x"⟩ ∉ (Controller.start .templates).dueKeys .empty (.sites, event) := by
  have hdiffers : SiteCache.namesUsing [referrer "x"] "x" ≠ SiteCache.namesUsing [] "x" :=
    SiteCache.namesUsing_cons_ne_of_eq rfl []
  have hleaves : SiteCache.namesUsing [referrer "y"] "x" = SiteCache.namesUsing [] "x" :=
    SiteCache.namesUsing_cons_of_ne (by decide) []
  refine ⟨[("a", referrer "x")], .applied (.site (referrer "y")), [("a", referrer "y")],
    SiteCache.Filed.nil.put (referrer "x"), .updated (referrer "x") (referrer "y") (Or.inr rfl) rfl,
    fun heq => hdiffers (heq.symm.trans hleaves), by decide⟩

end Controller

end SiteOperator

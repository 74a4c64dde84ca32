import SiteOperator.Proofs.Cluster.Sendable
import SiteOperator.Proofs.Reconcile.Adoption
import SiteOperator.Proofs.Reconcile.Deletions

/-!
# Finalizing a site among strangers

At the places of a site's dependents there may be objects that are not the site's. Two clusters that
differ in nothing else (`Cluster.StrangersDiffer`) lead the finalization of the site to the same
deletions and to the same end unless such an object is being deleted in one of them: it is waited
for like an object of the site, and the workload among them holds back the deletion of the other
dependents. `Plan.Unswayed` says when this makes no difference
(`Site.finalization_unswayed_iff`).
-/

namespace SiteOperator

theorem Site.Composed.has_moodle {site : Site} {trace : List AnsweredEffect} {plan : Plan}
    (composed : site.Composed trace plan) : plan.has .moodle = true := by
  obtain ⟨_, _, _, _, _, -, -, -, hcompose⟩ := composed
  obtain ⟨moodle, hmoodle⟩ := Plan.compose_workload hcompose
  exact Plan.has_iff.mpr ⟨moodle, hmoodle⟩

/-- If requests can be sent about one dependent, they can be sent about every other. -/
theorem SiteNames.isSome_wire?_get_dependent (names : SiteNames) (kind other : DependentKind) :
    (Request.get (names.dependent kind)).wire?.isSome =
      (Request.get (names.dependent other)).wire?.isSome := by
  have plain : ∀ kind ∈ DependentKind.all,
      (kind.resourceType.groupPath ++ "/namespaces/").toList.all Target.isPlain = true ∧
        ("/" ++ kind.resourceType.plural ++ "/").toList.all Target.isPlain = true := by
    decide +kernel
  have sendable (kind : DependentKind) :
      (Target.split? ((names.dependent kind).path ++ "?")).isSome =
        Target.isSendable (names.namespaceName.toList ++ (names.baseName ++ "?").toList) := by
    obtain ⟨hstart, hplural⟩ := plain kind kind.mem_all
    have hpath : ((names.dependent kind).path ++ "?").toList =
        [] ++ ((kind.resourceType.groupPath ++ "/namespaces/").toList ++
          (names.namespaceName.toList ++ (("/" ++ kind.resourceType.plural ++ "/").toList ++
            (names.baseName ++ "?").toList))) := by
      simp [Locator.path, Locator.collection, dependent, String.toList_append]
    rw [Target.isSome_split?, hpath, Target.isSendable_insert hstart, List.nil_append,
      Target.isSendable_insert hplural]
  rw [Bool.eq_iff_iff, Request.isSome_wire?_get, Request.isSome_wire?_get, Locator.Addressable,
    Locator.Addressable, sendable, sendable]
  rfl

namespace Site

variable {site : Site} {manager now uid : String} {plan : Plan} {owner : SiteOwner}
  {collects : Bool} {cluster last : Cluster} {trace : List AnsweredEffect}
  {result : Except Raised Progress}

theorem prepare_avoids (site : Site) (manager : String) (names : SiteNames) :
    Task.Always (OnlySends (·.Avoids names.IsPlace)) (site.prepare manager) :=
  fun _ _ run => (prepare_onlySends site manager _ _ run).mono fun _ h => h.avoids names

theorem endFinalizing_avoids (site : Site) (progress : Progress) (draft : StatusDraft)
    (names : SiteNames) :
    Task.Always (OnlySends (·.Avoids names.IsPlace)) (site.endFinalizing progress draft) := by
  refine fun _ _ run => (endFinalizing_onlySends progress draft _ _ run).mono fun request h => ?_
  rcases h with ⟨status, rfl⟩ | rfl
  · exact avoids_patchStatus _
  · exact avoids_patch _

/-- The end of a finalization that succeeds has the progress of its pass. -/
theorem progress_of_endFinalizing {progress ended : Progress} {draft : StatusDraft}
    (run : (site.endFinalizing progress draft).Runs trace (.ok ended)) : ended = progress := by
  rcases Task.runs_bind_iff.mp run with ⟨_, -, heq⟩ | ⟨_, ⟨⟩, rest, rfl, -, hrest⟩
  · cases heq
  cases progress with
  | requeue => exact Except.ok.inj (Task.runs_pure_iff.mp hrest).2
  | settled =>
      simp only [if_true] at hrest
      rcases Task.runs_bind_iff.mp hrest with ⟨_, -, heq⟩ | ⟨_, ⟨⟩, _, rfl, -, hend⟩
      · cases heq
      · exact Except.ok.inj (Task.runs_pure_iff.mp hend).2

/-- A site that is being deleted and carries the finalizer: its dependents are deleted, and the
progress that this makes decides on how the reconcile ends. -/
theorem reconcile_eq_of_terminating (terminating : site.isTerminating = true)
    (carries : site.metadata.hasFinalizer operatorFinalizer = true) (manager now : String) :
    site.reconcile manager now = site.prepare manager >>= fun prepared =>
      prepared.2.deleteDependents prepared.1 >>= fun progress => site.endFinalizing progress
        (Pass.finalizeResult prepared.1 now (.ofCurrent site.status) (.ok progress)).draft := by
  rw [reconcile_eq]
  refine congrArg (site.prepare manager >>= ·) (funext fun prepared => ?_)
  obtain ⟨plan, owner⟩ := prepared
  simp only [proceed, terminating, if_true, finalize, carries, SiteOwner.runPass_finalize,
    bind_assoc, pure_bind]
  rfl

/-- What comes of a finalization that was prepared, where the dependents can be asked about. It
deletes what it should by the cluster that it started in, and ends as its progress asks. -/
structure Finishes (site : Site) (plan : Plan) (now uid : String) (collects : Bool)
    (cluster middle last : Cluster) (checks tail : List AnsweredEffect)
    (result : Except Raised Progress) : Prop where
  deleted : deletedObjects checks = plan.deletedIn uid cluster
  onlyChecks : OnlySends (fun request => ∃ object, request = .get object ∨
    request = .delete object) checks
  ends : ∃ after, Cluster.AgreeOff plan.names.IsPlace middle after ∧
    (site.endFinalizing (plan.progressIn uid cluster) (Pass.finalizeResult plan now
      (.ofCurrent site.status) (.ok (plan.progressIn uid cluster))).draft).Plays collects after
        tail result last

/-- A finalization that has been prepared, in a cluster whose dependents can be read. It goes no
further if no request about the dependents can be sent. -/
theorem plays_finalization {prep : List AnsweredEffect} {middle : Cluster}
    (terminating : site.isTerminating = true)
    (carries : site.metadata.hasFinalizer operatorFinalizer = true)
    (huid : site.metadata.uid = some uid)
    (readable : ∀ kind, cluster.Readable ((SiteNames.derive site.name).dependent kind))
    (hprepare : (site.prepare manager).Plays collects cluster prep (.ok (plan, owner)) middle)
    (plays : (site.reconcile manager now).Plays collects cluster trace result last) :
    ((Request.get (plan.names.dependent .moodle)).wire?.isSome = false →
        trace = prep ∧ result = .error (.ofFault (.api none))) ∧
      ((Request.get (plan.names.dependent .moodle)).wire?.isSome = true →
        ∃ checks tail, trace = prep ++ (checks ++ tail) ∧
          site.Finishes plan now uid collects cluster middle last checks tail result) := by
  have prepared := runs_prepare hprepare.runs
  obtain ⟨wellFormed, hnames⟩ := prepared.composed.wellFormed
  obtain ⟨moodle, hmoodle⟩ := Plan.has_iff.mp prepared.composed.has_moodle
  obtain ⟨reference, hreference, rfl⟩ := prepared.owner
  obtain rfl : reference.uid = uid :=
    Option.some.inj ((of_ownerReference?_eq_some hreference).1.symm.trans huid)
  have kept (kind : DependentKind) : middle.stored? (plan.names.dependent kind) =
      cluster.stored? (plan.names.dependent kind) :=
    hprepare.object?_of_avoids (prepare_avoids site manager plan.names) ⟨kind, rfl⟩
  rw [reconcile_eq_of_terminating terminating carries] at plays
  obtain ⟨rest, rfl, hrest⟩ := hprepare.of_bind plays
  refine ⟨fun unsendable => ?_, fun sendable => ?_⟩
  · rw [← wellFormed.locator_eq hmoodle, Option.isSome_eq_false_iff, Option.isNone_iff_eq_none]
      at unsendable
    simp only [SiteOwner.deleteDependents_of_unsendable hmoodle unsendable] at hrest
    obtain ⟨rfl, rfl⟩ := Task.runs_fail_iff.mp hrest.runs
    exact ⟨List.append_nil _, rfl⟩
  · obtain ⟨checks, after, hdelete, hdeleted, agree⟩ := SiteOwner.exists_plays_deleteDependents
      ⟨reference, plan.composition.labels, manager⟩ collects wellFormed
      (Plan.has_iff.mpr ⟨moodle, hmoodle⟩)
      (fun kind => (plan.names.isSome_wire?_get_dependent kind .moodle).trans sendable)
      (fun kind => Cluster.Readable.of_stored?_eq (hnames ▸ readable kind) (kept kind))
    rw [Plan.progressIn_congr fun kind => Cluster.awaits_congr _ (kept kind)] at hdelete
    rw [Plan.deletedIn_congr kept] at hdeleted
    obtain ⟨tail, rfl, htail⟩ := hdelete.of_bind hrest
    exact ⟨checks, tail, rfl, hdeleted,
      SiteOwner.deleteDependents_onlySends _ _ _ _ hdelete.runs, after, agree, htail⟩

end Site

/-- Two clusters that hold the same objects but for those at the places of the dependents that are
not the owner's. Whatever is at these places can be read. -/
structure Cluster.StrangersDiffer (names : SiteNames) (uid : String) (cluster other : Cluster) :
    Prop where
  elsewhere : AgreeOff names.IsPlace cluster other
  strangers : ∀ kind, other.stored? (names.dependent kind) =
      cluster.stored? (names.dependent kind) ∨
    cluster.owns (names.dependent kind) uid = false ∧ other.owns (names.dependent kind) uid = false
  readable : ∀ kind, cluster.Readable (names.dependent kind) ∧
    other.Readable (names.dependent kind)

/-- What is deleted is the same in two clusters that differ in strangers. -/
theorem Cluster.StrangersDiffer.deletes_eq {names : SiteNames} {uid : String}
    {cluster other : Cluster} (differ : StrangersDiffer names uid cluster other)
    (kind : DependentKind) :
    other.deletes (names.dependent kind) uid = cluster.deletes (names.dependent kind) uid := by
  rcases differ.strangers kind with hsame | ⟨hforeign, hforeign'⟩
  · rw [deletes, deletes, hsame]
  · rw [deletes_eq_false_of_owns hforeign, deletes_eq_false_of_owns hforeign']

/-- A finalization waits for the same objects if none of them is being deleted for someone else. -/
theorem Cluster.StrangersDiffer.awaits_eq {names : SiteNames} {uid : String}
    {cluster other : Cluster} {kind : DependentKind}
    (differ : StrangersDiffer names uid cluster other)
    (stay : ∀ value, cluster.stored? (names.dependent kind) = some value ∨
      other.stored? (names.dependent kind) = some value →
      isTerminating value = true → value.ownedBy uid = true) :
    other.awaits (names.dependent kind) uid = cluster.awaits (names.dependent kind) uid := by
  have unawaited {cluster : Cluster} (foreign : cluster.owns (names.dependent kind) uid = false)
      (stay : ∀ value, cluster.stored? (names.dependent kind) = some value →
        isTerminating value = true → value.ownedBy uid = true) :
      cluster.awaits (names.dependent kind) uid = false := by
    rw [owns] at foreign
    rw [awaits]
    cases hstored : cluster.stored? (names.dependent kind) with
    | none => rfl
    | some value =>
        rw [hstored, Option.any_some] at foreign
        have hstays : isTerminating value = false := by
          refine Bool.eq_false_iff.mpr fun hterminating => ?_
          rw [stay value hstored hterminating] at foreign
          cases foreign
        rw [Option.any_some, hstays, foreign, Bool.or_false]
  rcases differ.strangers kind with hsame | ⟨hforeign, hforeign'⟩
  · rw [awaits, awaits, hsame]
  · rw [unawaited hforeign fun value h => stay value (Or.inl h),
      unawaited hforeign' fun value h => stay value (Or.inr h)]

/-- Two finalizations of a site delete the same objects, have the same result, and take the
finalizer away both or neither. -/
structure Site.FinalizeAlike (site : Site) (trace trace' : List AnsweredEffect)
    (result result' : Except Raised Progress) : Prop where
  deleted : deletedObjects trace' = deletedObjects trace
  result : result' = result
  finalizer : (∃ reply, sent site.finalizerRemoval reply ∈ trace') ↔
    ∃ reply, sent site.finalizerRemoval reply ∈ trace

/-- What two clusters differ in makes no difference to a finalization: either there is something to
wait for at the place of the workload in both or in neither, or no other dependent is to be deleted;
and there is something to wait for at any place in both or in neither. -/
structure Plan.Unswayed (plan : Plan) (uid : String) (cluster other : Cluster) : Prop where
  workload : other.awaits (plan.names.dependent .moodle) uid =
      cluster.awaits (plan.names.dependent .moodle) uid ∨
    ∀ kind ∈ Pass.deleteOrder, plan.has kind = true →
      cluster.deletes (plan.names.dependent kind) uid = false
  progress : plan.progressIn uid other = plan.progressIn uid cluster

theorem Plan.Unswayed.of_awaits_eq {plan : Plan} {uid : String} {cluster other : Cluster}
    (h : ∀ kind, other.awaits (plan.names.dependent kind) uid =
      cluster.awaits (plan.names.dependent kind) uid) : plan.Unswayed uid cluster other where
  workload := Or.inl (h .moodle)
  progress := progressIn_congr h

/-- The same is deleted in both clusters exactly if the workload holds back the other dependents in
both or in neither, or there is none to hold back. -/
theorem Plan.deletedIn_eq_iff {plan : Plan} {uid : String} {cluster other : Cluster}
    (hmoodle : plan.has .moodle = true)
    (h : ∀ kind, other.deletes (plan.names.dependent kind) uid =
      cluster.deletes (plan.names.dependent kind) uid) :
    plan.deletedIn uid other = plan.deletedIn uid cluster ↔
      (other.awaits (plan.names.dependent .moodle) uid =
          cluster.awaits (plan.names.dependent .moodle) uid ∨
        ∀ kind ∈ Pass.deleteOrder, plan.has kind = true →
          cluster.deletes (plan.names.dependent kind) uid = false) := by
  have hnone : ((plan.places Pass.deleteOrder).filter fun object =>
      cluster.deletes object uid) = [] ↔ ∀ kind ∈ Pass.deleteOrder, plan.has kind = true →
        cluster.deletes (plan.names.dependent kind) uid = false := by
    rw [List.filter_eq_nil_iff]
    constructor
    · intro hall kind hkind hhas
      exact Bool.eq_false_iff.mpr (hall _ (mem_places_iff.mpr ⟨kind, hkind, hhas, rfl⟩))
    · intro hall object hobject
      obtain ⟨kind, hkind, hhas, rfl⟩ := mem_places_iff.mp hobject
      exact Bool.eq_false_iff.mp (hall kind hkind hhas)
  have hworkload : [plan.names.dependent .moodle].filter (fun object => other.deletes object uid) =
      [plan.names.dependent .moodle].filter fun object => cluster.deletes object uid := by
    simp [List.filter_cons, h]
  rw [plan.deletedIn_eq hmoodle, plan.deletedIn_eq hmoodle, hworkload, filter_places_congr h,
    List.append_cancel_left_eq, ← hnone]
  cases other.awaits (plan.names.dependent .moodle) uid <;>
    cases cluster.awaits (plan.names.dependent .moodle) uid <;> simp

namespace Site

variable {site : Site} {manager now uid : String} {plan : Plan} {collects : Bool}
  {cluster other last last' : Cluster} {trace trace' : List AnsweredEffect}
  {result result' : Except Raised Progress}

theorem FinalizeAlike.refl (site : Site) (trace : List AnsweredEffect)
    (result : Except Raised Progress) : site.FinalizeAlike trace trace result result :=
  ⟨rfl, rfl, Iff.rfl⟩

/-- Before the dependents are turned to, and while they are deleted, the finalizer stays. -/
theorem finalizerRemoval_mem_iff {prep checks tail : List AnsweredEffect} {reply : Reply}
    (prepares : OnlySends site.Prepares prep)
    (checksOnly : OnlySends (fun request => ∃ object, request = .get object ∨
      request = .delete object) checks) :
    sent site.finalizerRemoval reply ∈ prep ++ (checks ++ tail) ↔
      sent site.finalizerRemoval reply ∈ tail := by
  rw [List.mem_append, List.mem_append, or_iff_right, or_iff_right]
  · intro hmem
    obtain ⟨_, heq | heq⟩ := checksOnly _ _ hmem
    · cases heq
    · cases heq
  · intro hmem
    exact (prepares _ _ hmem).not_removesFinalizer removesFinalizer_finalizerRemoval

/-- The end of a finalization deletes nothing more. -/
theorem deletedObjects_endFinalizing {progress : Progress} {draft : StatusDraft}
    {tail : List AnsweredEffect} (run : (site.endFinalizing progress draft).Runs tail result) :
    deletedObjects tail = [] := by
  refine deletedObjects_eq_nil (endFinalizing_onlySends progress draft _ _ run) fun request h => ?_
  rcases h with ⟨status, rfl⟩ | rfl
  · rfl
  · rfl

/-- After its preparation a finalization deletes what it should and nothing else. -/
theorem Finishes.deletedObjects_eq {middle : Cluster} {prep checks tail : List AnsweredEffect}
    (finishes : site.Finishes plan now uid collects cluster middle last checks tail result) :
    deletedObjects (prep ++ (checks ++ tail)) =
      deletedObjects prep ++ plan.deletedIn uid cluster := by
  obtain ⟨after, -, plays⟩ := finishes.ends
  rw [deletedObjects_append, deletedObjects_append, finishes.deleted,
    deletedObjects_endFinalizing plays.runs, List.append_nil]

theorem Finishes.progress_eq {middle : Cluster} {checks tail : List AnsweredEffect}
    {progress : Progress} (finishes : site.Finishes plan now uid collects cluster middle last checks
      tail (.ok progress)) : plan.progressIn uid cluster = progress := by
  obtain ⟨after, -, plays⟩ := finishes.ends
  exact (progress_of_endFinalizing plays.runs).symm

/-- Finalizations that delete the same and make the same progress end alike. -/
theorem Finishes.alike {middle middle' : Cluster}
    {prep checks tail checks' tail' : List AnsweredEffect}
    (finishes : site.Finishes plan now uid collects cluster middle last checks tail result)
    (finishes' : site.Finishes plan now uid collects other middle' last' checks' tail' result')
    (prepares : OnlySends site.Prepares prep)
    (agree : Cluster.AgreeOff plan.names.IsPlace middle middle')
    (hdeleted : plan.deletedIn uid other = plan.deletedIn uid cluster)
    (hprogress : plan.progressIn uid other = plan.progressIn uid cluster) :
    site.FinalizeAlike (prep ++ (checks ++ tail)) (prep ++ (checks' ++ tail')) result result' := by
  obtain ⟨after, hafter, plays⟩ := finishes.ends
  obtain ⟨after', hafter', plays'⟩ := finishes'.ends
  rw [hprogress] at plays'
  obtain ⟨_, same, -⟩ := plays.transfer (hafter.symm.trans (agree.trans hafter'))
    (endFinalizing_avoids site _ _ _)
  obtain ⟨rfl, rfl, -⟩ := same.unique plays'
  refine ⟨?_, rfl, exists_congr fun reply => ?_⟩
  · rw [finishes.deletedObjects_eq, finishes'.deletedObjects_eq, hdeleted]
  · rw [finalizerRemoval_mem_iff prepares finishes.onlyChecks,
      finalizerRemoval_mem_iff prepares finishes'.onlyChecks]

/-- The finalizations of a site in two clusters that differ in objects which are not the site's. If
they differ in none that makes a difference (`Plan.Unswayed`), the same objects are deleted, the
results are the same, and the finalizer is taken away in both or in neither. If both finalizations
return a progress, this is so only then. In particular it is so if none of the objects that are not
the site's is being deleted. -/
theorem finalization_unswayed_iff (terminating : site.isTerminating = true)
    (carries : site.metadata.hasFinalizer operatorFinalizer = true)
    (huid : site.metadata.uid = some uid)
    (differ : cluster.StrangersDiffer (.derive site.name) uid other)
    (plays : (site.reconcile manager now).Plays collects cluster trace result last)
    (plays' : (site.reconcile manager now).Plays collects other trace' result' last') :
    ((∀ plan, site.Composed trace plan → plan.Unswayed uid cluster other) →
        site.FinalizeAlike trace trace' result result') ∧
      (∀ progress progress' plan, result = .ok progress → result' = .ok progress' →
        site.Composed trace plan → site.FinalizeAlike trace trace' result result' →
          plan.Unswayed uid cluster other) ∧
      ((∀ kind value, cluster.stored? ((SiteNames.derive site.name).dependent kind) = some value ∨
          other.stored? ((SiteNames.derive site.name).dependent kind) = some value →
          Cluster.isTerminating value = true → value.ownedBy uid = true) →
        site.FinalizeAlike trace trace' result result') := by
  have stays (h : ∀ kind value,
      cluster.stored? ((SiteNames.derive site.name).dependent kind) = some value ∨
        other.stored? ((SiteNames.derive site.name).dependent kind) = some value →
        Cluster.isTerminating value = true → value.ownedBy uid = true) (plan : Plan)
      (composed : site.Composed trace plan) : plan.Unswayed uid cluster other := by
    have hnames := composed.wellFormed.2
    rw [← hnames] at differ h
    exact .of_awaits_eq fun kind => differ.awaits_eq (h kind)
  suffices exact : ((∀ plan, site.Composed trace plan → plan.Unswayed uid cluster other) →
        site.FinalizeAlike trace trace' result result') ∧
      (∀ progress progress' plan, result = .ok progress → result' = .ok progress' →
        site.Composed trace plan → site.FinalizeAlike trace trace' result result' →
          plan.Unswayed uid cluster other) from
    ⟨exact.1, exact.2, fun h => exact.1 (stays h)⟩
  obtain ⟨prep, prepared, middle, hprepare⟩ : ∃ prep prepared middle,
      (site.prepare manager).Plays collects cluster prep prepared middle :=
    ⟨_, _, _, Task.plays_transcript _ _ _⟩
  obtain ⟨middle', hprepare', agree⟩ :=
    hprepare.transfer differ.elsewhere (prepare_avoids site manager _)
  cases prepared with
  | error error =>
      rw [reconcile_eq] at plays plays'
      obtain ⟨rfl, rfl⟩ := hprepare.of_bind_error plays
      obtain ⟨rfl, rfl⟩ := hprepare'.of_bind_error plays'
      exact ⟨fun _ => .refl _ _ _, fun _ _ _ heq => by cases heq⟩
  | ok prepared =>
      obtain ⟨plan, owner⟩ := prepared
      have composed := (runs_prepare hprepare.runs).composed
      obtain ⟨unsendable, sendable⟩ := plays_finalization terminating carries huid
        (fun kind => (differ.readable kind).1) hprepare plays
      obtain ⟨unsendable', sendable'⟩ := plays_finalization terminating carries huid
        (fun kind => (differ.readable kind).2) hprepare' plays'
      rw [← composed.wellFormed.2] at differ agree
      have hdeletedIn := Plan.deletedIn_eq_iff composed.has_moodle differ.deletes_eq
      cases hsend : (Request.get (plan.names.dependent .moodle)).wire?.isSome with
      | false =>
          obtain ⟨rfl, rfl⟩ := unsendable hsend
          obtain ⟨rfl, rfl⟩ := unsendable' hsend
          exact ⟨fun _ => .refl _ _ _, fun _ _ _ heq => by cases heq⟩
      | true =>
          obtain ⟨checks, tail, rfl, finishes⟩ := sendable hsend
          obtain ⟨checks', tail', rfl, finishes'⟩ := sendable' hsend
          have prepares := prepare_onlySends site manager _ _ hprepare.runs
          constructor
          · intro unswayed
            obtain ⟨hworkload, hprogress⟩ := unswayed plan (composed.append _)
            exact finishes.alike finishes' prepares agree (hdeletedIn.mpr hworkload) hprogress
          · rintro progress progress' other rfl rfl hcomposed ⟨hsame, heq, -⟩
            obtain rfl := hcomposed.unique (composed.append _)
            refine ⟨hdeletedIn.mp ?_, ?_⟩
            · rw [finishes.deletedObjects_eq, finishes'.deletedObjects_eq] at hsame
              exact List.append_cancel_left hsame
            · rw [finishes.progress_eq, finishes'.progress_eq]
              exact Except.ok.inj heq

end Site

/-- A stranger that is put at the place of a dependent which is not the owner's. -/
theorem Cluster.strangersDiffer_store {names : SiteNames} {uid : String} {cluster : Cluster}
    {kind : DependentKind} {value : Json}
    (foreign : cluster.owns (names.dependent kind) uid = false)
    (foreign' : value.ownedBy uid = false)
    (readable : ∀ kind, cluster.Readable (names.dependent kind))
    (readable' : (Decoder.anyMeta value).isSome = true) :
    StrangersDiffer names uid cluster (cluster.store (names.dependent kind).wirePath value) := by
  have stored : (cluster.store (names.dependent kind).wirePath value).stored?
      (names.dependent kind) = some value := by
    rw [stored?, object?_store, if_pos rfl]
  have kept {other : DependentKind} (hne : other ≠ kind) :
      (cluster.store (names.dependent kind).wirePath value).stored? (names.dependent other) =
        cluster.stored? (names.dependent other) := by
    rw [stored?, object?_store_of_ne _ fun heq => hne (SiteNames.dependent_wirePath_inj heq).symm,
      stored?]
  refine ⟨fun path off => object?_store_of_ne _ fun heq => off ⟨kind, heq.symm⟩, fun other => ?_,
    fun other => ⟨readable other, ?_⟩⟩
  · by_cases hkind : other = kind
    · subst hkind
      exact Or.inr ⟨foreign, by rw [owns, stored, Option.any_some, foreign']⟩
    · exact Or.inl (kept hkind)
  · by_cases hkind : other = kind
    · subst hkind
      intro found hfound
      obtain rfl := Option.some.inj (stored.symm.trans hfound)
      exact readable'
    · exact (readable other).of_stored?_eq (kept hkind)

/-- A cluster that holds nothing but a site that is being deleted. -/
def Lifetime.leavingCluster : Cluster :=
  Cluster.empty.store (Site.locator "a").wirePath
    (.ofFields [("metadata", Site.leaving.metadata.encode), ("spec", Site.leaving.spec.encode)])

namespace Site

set_option maxRecDepth 10000 in
/-- There are no dependents in the cluster of a site that is being deleted. -/
theorem stored?_leavingCluster (kind : DependentKind) :
    Lifetime.leavingCluster.stored? ((SiteNames.derive "a").dependent kind) = none := by
  have absent : ∀ kind ∈ DependentKind.all,
      Lifetime.leavingCluster.stored? ((SiteNames.derive "a").dependent kind) = none := by
    decide +kernel
  exact absent kind kind.mem_all

/-- A stranger at the place of the workload of the site. -/
theorem strangersDiffer_leavingCluster {value : Json} (foreign : value.ownedBy "u" = false)
    (readable : (Decoder.anyMeta value).isSome = true) :
    Lifetime.leavingCluster.StrangersDiffer (.derive leaving.name) "u"
      (Lifetime.leavingCluster.store strangerLocator.wirePath value) := by
  refine Cluster.strangersDiffer_store (Cluster.owns_of_absent (stored?_leavingCluster .moodle))
    foreign (fun kind found hfound => ?_) readable
  cases (stored?_leavingCluster kind).symm.trans hfound

def besideLeaving (workload : Json) : Cluster :=
  Lifetime.leavingCluster.store strangerLocator.wirePath workload

set_option maxRecDepth 10000 in
/-- A workload of an earlier site of the same name makes no difference as long as it stays. -/
theorem finalization_unswayed_iff_of_stranger :
    ∃ trace trace' result result' last last',
      leaving.isTerminating = true ∧
      leaving.metadata.hasFinalizer operatorFinalizer = true ∧
      leaving.metadata.uid = some "u" ∧
      Lifetime.leavingCluster.StrangersDiffer (.derive leaving.name) "u"
        (besideLeaving stranger) ∧
      (leaving.reconcile "manager" "now").Plays false Lifetime.leavingCluster trace result last ∧
      (leaving.reconcile "manager" "now").Plays false (besideLeaving stranger) trace' result'
        last' ∧
      leaving.FinalizeAlike trace trace' result result' := by
  have terminating : leaving.isTerminating = true := by decide
  have carries : leaving.metadata.hasFinalizer operatorFinalizer = true := by decide
  have differ := strangersDiffer_leavingCluster (show stranger.ownedBy "u" = false by decide)
    (show (Decoder.anyMeta stranger).isSome = true by decide)
  have plays := Task.plays_transcript false (leaving.reconcile "manager" "now")
    Lifetime.leavingCluster
  have plays' := Task.plays_transcript false (leaving.reconcile "manager" "now")
    (besideLeaving stranger)
  have stays : ∀ kind ∈ DependentKind.all,
      ∀ value ∈ (besideLeaving stranger).stored? ((SiteNames.derive "a").dependent kind),
        Cluster.isTerminating value = true → value.ownedBy "u" = true := by
    decide +kernel
  refine ⟨_, _, _, _, _, _, terminating, carries, rfl, differ, plays, plays',
    (finalization_unswayed_iff terminating carries rfl differ plays plays').2.2 ?_⟩
  rintro kind value (hvalue | hvalue)
  · cases (stored?_leavingCluster kind).symm.trans hvalue
  · exact stays kind kind.mem_all value hvalue

def goingStranger : Json := Cluster.deletion.mergePatch stranger

set_option maxRecDepth 10000 in
/-- While a workload of someone else is being deleted, a site that owns nothing keeps waiting, and
keeps its finalizer, which it would lose if the workload were not there. -/
theorem finalization_swayed_by_going_stranger :
    ∃ trace trace' result result' last last',
      leaving.isTerminating = true ∧
      leaving.metadata.hasFinalizer operatorFinalizer = true ∧
      leaving.metadata.uid = some "u" ∧
      Lifetime.leavingCluster.StrangersDiffer (.derive leaving.name) "u"
        (besideLeaving goingStranger) ∧
      (leaving.reconcile "manager" "now").Plays false Lifetime.leavingCluster trace result last ∧
      (leaving.reconcile "manager" "now").Plays false (besideLeaving goingStranger) trace' result'
        last' ∧
      result.toOption = some .settled ∧ result'.toOption = some .requeue ∧
      (∃ reply, sent leaving.finalizerRemoval reply ∈ trace) ∧
      ¬ ∃ reply, sent leaving.finalizerRemoval reply ∈ trace' := by
  have differ := strangersDiffer_leavingCluster (show goingStranger.ownedBy "u" = false by decide)
    (show (Decoder.anyMeta goingStranger).isSome = true by decide)
  have runs : (Dialogue.run (Cluster.serve false) (leaving.reconcile "manager" "now").run
        Lifetime.leavingCluster).1.toOption = some .settled ∧
      (Dialogue.run (Cluster.serve false) (leaving.reconcile "manager" "now").run
        (besideLeaving goingStranger)).1.toOption = some .requeue ∧
      (.send leaving.finalizerRemoval) ∈ (Dialogue.transcript (Cluster.serve false)
        (leaving.reconcile "manager" "now").run Lifetime.leavingCluster).map Sigma.fst ∧
      (.send leaving.finalizerRemoval) ∉ (Dialogue.transcript (Cluster.serve false)
        (leaving.reconcile "manager" "now").run (besideLeaving goingStranger)).map Sigma.fst := by
    decide +kernel
  obtain ⟨settled, waits, removed, kept⟩ := runs
  refine ⟨_, _, _, _, _, _, by decide, by decide, rfl, differ, Task.plays_transcript _ _ _,
    Task.plays_transcript _ _ _, settled, waits, ?_, ?_⟩
  · obtain ⟨⟨effect, reply⟩, hmem, rfl⟩ := List.mem_map.mp removed
    exact ⟨reply, hmem⟩
  · rintro ⟨reply, hmem⟩
    exact kept (List.mem_map.mpr ⟨_, hmem, rfl⟩)

end Site

end SiteOperator

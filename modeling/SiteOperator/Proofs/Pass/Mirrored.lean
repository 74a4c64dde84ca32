import SiteOperator.Proofs.Pass.Idempotence
import SiteOperator.Proofs.Pass.Transitions
import SiteOperator.Proofs.Status.Steps

/-!
# What a pass does to the conditions of a site

Whatever a pass is about and however it ends, it sets conditions of two sorts only: those that
publish the answers to applying dependents, in the order of the answers, and after them the site's
own ready condition (`Pass.sets_of_runs`). So the condition of a kind says what the last apply of
the kind reported, and everything else in the list but the site's own ready condition stays as it is
and where it is (`Pass.mirrors`).
-/

namespace SiteOperator

open Conditions (Setting setAll)

def DependentCall.published (now : String) : (call : DependentCall) → call.Answer → List Setting
  | apply d, .ok status => (StatusDraft.Step.publish d.kind (some status)).settings now
  | observe _, .ok _ | delete _, .ok _ | observe _, .error _ | apply _, .error _
  | delete _, .error _ => []

theorem Plan.conditions_conclude (plan : Plan) (observed : Observed) (deleting suspending : Bool)
    (now : String) (draft : StatusDraft) :
    (plan.conclude observed deleting suspending now draft).1.collected.conditions =
      setAll
        ((StatusDraft.Step.readyForState
          (plan.siteState observed deleting suspending)).settings now)
        draft.collected.conditions := by
  have concluded := StatusDraft.Step.conditions_take now
    (.readyForState (plan.siteState observed deleting suspending))
    ((draft.setState (plan.siteState observed deleting suspending)).1.setFromWorkload
      observed.moodle).1
  rw [(StatusDraft.setFromWorkload_keeps _ _).1] at concluded
  exact concluded

namespace Pass

def published (now : String) (trace : List AnsweredCall) : List Setting :=
  trace.flatMap fun e => e.1.published now e.2

variable {plan : Plan} {now : String} {start draft : StatusDraft} {trace : List AnsweredCall}
  {result : PassResult}

theorem published_append (first rest : List AnsweredCall) :
    published now (first ++ rest) = published now first ++ published now rest :=
  List.flatMap_append

theorem conditions_publish_answer (e : AnsweredCall) (draft : StatusDraft) :
    (e.1.publish now e.2 draft).collected.conditions =
      setAll (e.1.published now e.2) draft.collected.conditions := by
  obtain ⟨call, answer⟩ := e
  cases call with
  | observe d | delete d => cases answer <;> rfl
  | apply d =>
      cases answer with
      | error error => rfl
      | ok status =>
          exact StatusDraft.Step.conditions_take now (.publish d.kind (some status)) draft

theorem conditions_mirror (trace : List AnsweredCall) (draft : StatusDraft) :
    (mirror now trace draft).collected.conditions =
      setAll (published now trace) draft.collected.conditions := by
  induction trace generalizing draft with
  | nil => rfl
  | cons e rest ih =>
      rw [mirror, ih, conditions_publish_answer, ← Conditions.setAll_append]
      rfl

/-- An answer sets conditions only if a dependent was applied and reported a ready condition. Their
types are the one of its kind and the one of the site's own ready condition. -/
theorem exists_of_mem_published {s : Setting} (h : s ∈ published now trace) :
    ∃ d status source, applied d status ∈ trace ∧ status.readyCondition? = some source ∧
      (s.type = Condition.ready ∨ s.type = d.kind.conditionType) := by
  obtain ⟨⟨call, answer⟩, he, hs⟩ := List.mem_flatMap.mp h
  cases call with
  | observe d | delete d => cases answer <;> cases hs
  | apply d =>
      cases answer with
      | error error => cases hs
      | ok status =>
          obtain ⟨⟨source, hsource⟩, htype⟩ := StatusDraft.Step.type_of_mem_settings_publish hs
          exact ⟨d, status, source, he, hsource, htype⟩

/-- The draft that a pass has left sets what the answers publish, and then the site's own ready
condition. -/
def Sets (now : String) (start : StatusDraft) (trace : List AnsweredCall) (draft : StatusDraft) :
    Prop :=
  ∃ ending : List Setting, (∀ s ∈ ending, s.type = Condition.ready) ∧
    draft.collected.conditions =
      setAll (published now trace ++ ending) start.collected.conditions

namespace Sets

theorem mirror (trace : List AnsweredCall) (start : StatusDraft) :
    Sets now start trace (mirror now trace start) :=
  ⟨[], List.forall_mem_nil _, by rw [List.append_nil, conditions_mirror]⟩

theorem append {settings : List Setting} {last : StatusDraft} (h : Sets now start trace draft)
    (hready : ∀ s ∈ settings, s.type = Condition.ready)
    (hlast : last.collected.conditions = setAll settings draft.collected.conditions) :
    Sets now start trace last := by
  obtain ⟨ending, hending, hconditions⟩ := h
  refine ⟨ending ++ settings, List.forall_mem_append.mpr ⟨hending, hready⟩, ?_⟩
  rw [hlast, hconditions, ← Conditions.setAll_append, List.append_assoc]

theorem conclude (h : Sets now start trace draft) (plan : Plan) (observed : Observed)
    (deleting suspending : Bool) :
    Sets now start trace (plan.conclude observed deleting suspending now draft).1 :=
  h.append (fun _ => StatusDraft.Step.type_of_mem_settings_readyForState)
    (plan.conditions_conclude observed deleting suspending now draft)

theorem setTerminated (h : Sets now start trace draft) :
    Sets now start trace (draft.setTerminated now).1 :=
  h.append (fun _ hs => List.mem_singleton.mp hs ▸ rfl)
    (StatusDraft.Step.conditions_take now .terminated draft)

/-- A type is set only if it is the one of the site's own ready condition, or of a kind that was
applied and reported a ready condition. -/
theorem type_not_mem {ending : List Setting} {type : String}
    (hending : ∀ s ∈ ending, s.type = Condition.ready) (hready : type ≠ Condition.ready)
    (hkind : ∀ d status, applied d status ∈ trace → d.kind.conditionType = type →
      status.readyCondition? = none) :
    type ∉ (published now trace ++ ending).map Setting.type := by
  intro hmem
  obtain ⟨s, hs, rfl⟩ := List.mem_map.mp hmem
  rcases List.mem_append.mp hs with hs | hs
  · obtain ⟨d, status, source, happlied, hsource, htype⟩ := exists_of_mem_published hs
    have hnone := hkind d status happlied (htype.resolve_left hready).symm
    cases hnone.symm.trans hsource
  · exact hready (hending s hs)

/-- The last ready condition that was reported of a kind is what the site says of it. -/
theorem content?_eq {earlier later : List AnsweredCall} {d : DependentSpec}
    {status : DependentStatus} {source : Condition}
    (h : Sets now start (earlier ++ applied d status :: later) draft)
    (hsource : status.readyCondition? = some source)
    (last : ∀ d' status', applied d' status' ∈ later → d'.kind = d.kind →
      status'.readyCondition? = none) :
    draft.collected.conditions.content? d.kind.conditionType = some source.content := by
  obtain ⟨ending, hending, hconditions⟩ := h
  obtain ⟨rest, hpublish, hrest⟩ := StatusDraft.Step.exists_settings_publish_eq now d.kind
    (show readyCondition? (some status) = some source from hsource)
  have hsplit : published now (earlier ++ applied d status :: later) ++ ending =
      published now earlier ++ ⟨now, { source with type := d.kind.conditionType }⟩ ::
        (rest ++ (published now later ++ ending)) := by
    have hhead : published now (applied d status :: later) =
        (StatusDraft.Step.publish d.kind (some status)).settings now ++ published now later := rfl
    rw [published_append, hhead, hpublish, List.append_assoc, List.append_assoc]
    rfl
  have hlast :
      d.kind.conditionType ∉ (rest ++ (published now later ++ ending)).map Setting.type := by
    rw [List.map_append, List.mem_append]
    rintro (hmem | hmem)
    · obtain ⟨s, hs, htype⟩ := List.mem_map.mp hmem
      exact d.kind.conditionType_ne_ready (htype.symm.trans (hrest s hs))
    · exact type_not_mem hending d.kind.conditionType_ne_ready (fun d' status' happlied hkind =>
        last d' status' happlied (DependentKind.conditionType_injective hkind)) hmem
  rw [hconditions, hsplit, Conditions.content?_setAll]
  exact congrArg _ (Conditions.getLast?_history hlast)

/-- What was not reported of a kind stays as it was. -/
theorem ofType?_eq (h : Sets now start trace draft) {kind : DependentKind}
    (hnone : ∀ d status, applied d status ∈ trace → d.kind = kind →
      status.readyCondition? = none) :
    draft.ofType? kind.conditionType = start.ofType? kind.conditionType := by
  obtain ⟨ending, hending, hconditions⟩ := h
  rw [StatusDraft.ofType?, hconditions]
  exact Conditions.ofType?_setAll_of_not_mem (type_not_mem hending kind.conditionType_ne_ready
    fun d status happlied hkind =>
      hnone d status happlied (DependentKind.conditionType_injective hkind))

/-- The conditions that are no business of a pass stay where they are. -/
theorem getElem?_iff (h : Sets now start trace draft) {c : Condition}
    (hready : c.type ≠ Condition.ready)
    (hkind : ∀ kind : DependentKind, c.type ≠ kind.conditionType) (i : Nat) :
    draft.collected.conditions[i]? = some c ↔ start.collected.conditions[i]? = some c := by
  obtain ⟨ending, hending, hconditions⟩ := h
  rw [hconditions]
  exact Conditions.getElem?_setAll _ _ i (type_not_mem hending hready fun d _ _ heq =>
    absurd heq.symm (hkind d.kind))

theorem exists_types_eq (h : Sets now start trace draft) :
    ∃ added, draft.collected.conditions.types = start.collected.conditions.types ++ added ∧
      ∀ type ∈ added,
        type = Condition.ready ∨ ∃ kind : DependentKind, type = kind.conditionType := by
  obtain ⟨ending, hending, hconditions⟩ := h
  refine ⟨_, hconditions ▸ Conditions.types_setAll _ _, fun type htype => ?_⟩
  by_contra hother
  obtain ⟨hready, hkind⟩ := not_or.mp hother
  have hset := (List.mem_filter.mp (List.mem_eraseDups.mp htype)).1
  exact type_not_mem hending hready (fun d _ _ heq => absurd ⟨d.kind, heq.symm⟩ hkind) hset

theorem nodup_types (h : Sets now start trace draft)
    (distinct : start.collected.conditions.types.Nodup) :
    draft.collected.conditions.types.Nodup := by
  obtain ⟨ending, -, hconditions⟩ := h
  rw [hconditions]
  exact Conditions.nodup_types_setAll _ distinct

end Sets

theorem apply_not_mem_deleteAll {deps : List DependentSpec} {answer : Except Raised Bool}
    (run : (deleteAll deps).Runs trace answer) (d : DependentSpec) : .apply d ∉ calls trace := by
  have hmade : calls trace <+: deps.map .delete := by
    rcases runs_deleteAll (fun _ _ _ => not_never _) run with ⟨error, walk, -⟩ | ⟨walk, -⟩
    · exact walk.calls_prefix_schedule
    · exact walk.calls_prefix_schedule
  intro hmem
  obtain ⟨d', -, heq⟩ := List.mem_map.mp (hmade.subset hmem)
  cases heq

theorem apply_not_mem_deletions {outcome : Except Raised Progress}
    (run : (deletions plan).Runs trace outcome) (d : DependentSpec) : .apply d ∉ calls trace := by
  obtain ⟨first, answer, rest, rfl, hfirst, hrest⟩ := Dialogue.runs_bind_iff.mp run
  have hnotFirst := apply_not_mem_deleteAll hfirst d
  rcases answer with error | pending
  · obtain ⟨rfl, -⟩ := Dialogue.runs_done_iff.mp hrest
    rwa [List.append_nil]
  cases pending with
  | true =>
      obtain ⟨rfl, -⟩ := Dialogue.runs_done_iff.mp hrest
      rwa [List.append_nil]
  | false =>
      obtain ⟨second, answer, last, rfl, hsecond, hlast⟩ := Dialogue.runs_bind_iff.mp hrest
      have hnotSecond := apply_not_mem_deleteAll hsecond d
      have hnil : last = [] := by
        rcases answer with error | pending
        · exact (Dialogue.runs_done_iff.mp hlast).1
        · cases pending <;> exact (Dialogue.runs_done_iff.mp hlast).1
      rw [hnil, List.append_nil, calls_append]
      exact fun hmem => (List.mem_append.mp hmem).elim hnotFirst hnotSecond

theorem sets_of_finalize (run : (finalize plan now start).Runs trace result) :
    Sets now start trace result.draft ∧ ∀ d, .apply d ∉ calls trace := by
  rw [finalize_eq] at run
  obtain ⟨first, outcome, rest, rfl, hfirst, hrest⟩ := Dialogue.runs_bind_iff.mp run
  obtain ⟨rfl, rfl⟩ := Dialogue.runs_done_iff.mp hrest
  rw [List.append_nil]
  have hnone := apply_not_mem_deletions hfirst
  -- The ready condition is set before the first call here, so nothing may be published after it.
  have hnothing : published now first = [] := by
    refine List.eq_nil_iff_forall_not_mem.mpr fun s hs => ?_
    obtain ⟨d, status, -, hmem, -⟩ := exists_of_mem_published hs
    exact hnone d (applied_mem_calls hmem)
  have started : Sets now start first start :=
    ⟨[], List.forall_mem_nil _, by rw [hnothing]; rfl⟩
  have concluded := started.conclude plan .none true false
  refine ⟨?_, hnone⟩
  rcases outcome with error | progress
  · exact concluded
  · cases progress with
    | requeue => exact concluded
    | settled => exact concluded.setTerminated

/-- Every pass sets what the answers publish, and then the site's own ready condition. -/
theorem sets_of_runs {course : Course} (run : (course.program plan now start).Runs trace result) :
    Sets now start trace result.draft := by
  cases course with
  | present =>
      rcases runs_present_cases run with
        ⟨error, -, rfl⟩ | ⟨first, rest, rfl, -, ⟨-, hrest⟩ | ⟨-, rfl, rfl⟩⟩
      · exact .mirror trace start
      · rcases runs_presentWorkload hrest with ⟨error, -, rfl⟩ | ⟨-, rfl⟩
        · exact mirror_append now first rest start ▸ .mirror _ start
        · exact .conclude (mirror_append now first rest start ▸ .mirror _ start) plan _ false false
      · rw [List.append_nil]
        exact .conclude (.mirror first start) plan _ false false
  | suspend =>
      obtain ⟨ending, -, rfl⟩ := runs_suspend run
      cases ending with
      | failed error => exact .mirror trace start
      | stopped | completed => exact .conclude (.mirror trace start) plan _ false true
  | finalize => exact (sets_of_finalize run).1

/-- If every dependent of the plan stands under its own kind, no kind is applied twice. -/
theorem appliedLast_of_runs {course : Course} (h : plan.WellFormed)
    (run : (course.program plan now start).Runs trace result) : AppliedLast (calls trace) := by
  cases course with
  | present => exact appliedLast_of_present h (runs_present h run)
  | suspend =>
      obtain ⟨ending, walk, -⟩ := runs_suspend run
      exact appliedLast_of_suspend h walk
  | finalize =>
      have hnone := (sets_of_finalize run).2
      refine List.pairwise_of_forall_mem_list fun call hcall later _ d heq => ?_
      exact absurd (heq ▸ hcall) (hnone d)

/-- What a pass makes of the conditions of a site, whether it succeeds or fails, if the site has no
status or conditions of distinct types. The condition of a kind has the status, the reason and
the message of the first ready condition in the status that applying a dependent of the kind
returned, the last one that has such a condition; a kind of which no such status was returned keeps
its condition, or goes on having none. Every other condition but the site's own ready condition
stays as it is and in its place, and no type is added but the one of this condition and those of the
kinds. If every dependent of the plan stands under its own kind, which is so in every plan that is
composed, then no kind is applied twice. -/
theorem mirrors {before : Option SiteStatus} {course : Course}
    (distinct : (before.getD .empty).conditions.types.Nodup)
    (run : (course.program plan now (.ofCurrent before)).Runs trace result) :
    (∀ earlier d status later source, trace = earlier ++ applied d status :: later →
        status.readyCondition? = some source →
        (∀ d' status', applied d' status' ∈ later → d'.kind = d.kind →
          status'.readyCondition? = none) →
        result.draft.collected.conditions.content? d.kind.conditionType = some source.content) ∧
      (∀ kind : DependentKind,
        (∀ d status, applied d status ∈ trace → d.kind = kind → status.readyCondition? = none) →
        result.draft.collected.conditions.ofType? kind.conditionType =
          (before.getD .empty).conditions.ofType? kind.conditionType) ∧
      (∀ (i : Nat) (c : Condition), c.type ≠ "Ready" →
        (∀ kind : DependentKind, c.type ≠ kind.conditionType) →
        (result.draft.collected.conditions[i]? = some c ↔
          (before.getD .empty).conditions[i]? = some c)) ∧
      (∃ added, result.draft.collected.conditions.types =
          (before.getD .empty).conditions.types ++ added ∧
        ∀ type ∈ added, type = "Ready" ∨ ∃ kind : DependentKind, type = kind.conditionType) ∧
      result.draft.collected.conditions.types.Nodup ∧
      (plan.WellFormed → ∀ earlier d status later, trace = earlier ++ applied d status :: later →
        ∀ d' status', applied d' status' ∈ later → d'.kind ≠ d.kind) := by
  have sets := sets_of_runs run
  refine ⟨?_, fun kind hnone => sets.ofType?_eq hnone,
    fun i c hready hkind => sets.getElem?_iff hready hkind i, sets.exists_types_eq,
    sets.nodup_types distinct, ?_⟩
  · rintro earlier d status later source rfl hsource last
    exact sets.content?_eq hsource last
  · rintro h earlier d status later rfl d' status' hmem heq
    have hlast := appliedLast_of_runs h run
    rw [calls_append, calls_cons] at hlast
    have hhead := (List.pairwise_cons.mp (List.pairwise_append.mp hlast).2.1).1
    exact hhead _ (applied_mem_calls hmem) d rfl heq

/-- Of two ready conditions that the workload reports the first one is published. A condition that
somebody else has put into the list and the one of a database that is not configured stay. -/
theorem mirrors_first_report :
    ∃ plan, Plan.compose "a" none .empty .empty = .ok plan ∧
      ∃ trace result, (present plan "now" (.ofCurrent (some { SiteStatus.empty with
          conditions := [⟨"Custom", "True", none, none, none⟩,
            ⟨"PostgresReady", "True", none, none, none⟩] }))).Runs trace result ∧
        result.outcome = .ok .requeue ∧
        result.draft.collected.conditions.content? "MoodleReady" =
          some ("False", some "Busy", none) ∧
        result.draft.collected.conditions.ofType? "PostgresReady" =
          some ⟨"PostgresReady", "True", none, none, none⟩ ∧
        result.draft.collected.conditions[0]? = some ⟨"Custom", "True", none, none, none⟩ := by
  obtain ⟨moodle, hplan⟩ := Plan.compose_empty "a" none
  let before : SiteStatus := { SiteStatus.empty with
    conditions := [⟨"Custom", "True", none, none, none⟩,
      ⟨"PostgresReady", "True", none, none, none⟩] }
  let reported : DependentStatus := { DependentStatus.empty with
    conditions := [⟨"Ready", "False", some "Busy", none, none⟩,
      ⟨"Ready", "True", some "Successful", none, none⟩] }
  have run := Dialogue.runs_transcript (steady ⟨some reported, none, none, none⟩)
    (Course.present.program (.ofSpecs "a" none ⟨some moodle, none, none, none⟩ false) "now"
      (.ofCurrent (some before))) ()
  have distinct : ((some before).getD .empty).conditions.types.Nodup := by decide
  obtain ⟨hmirrored, hkept, hframe, -⟩ := mirrors distinct run
  refine ⟨_, hplan, _, _, run, rfl, ?_, ?_, ?_⟩
  · exact hmirrored [_] _ reported [] _ rfl rfl nofun
  · refine (hkept .postgres ?_).trans rfl
    rintro d status (_ | ⟨_, _ | ⟨_, hmem⟩⟩) hkind
    · cases hkind
    · cases hmem
  · refine (hframe 0 _ (by decide) fun kind => ?_).mpr rfl
    cases kind <;> decide

end Pass

end SiteOperator

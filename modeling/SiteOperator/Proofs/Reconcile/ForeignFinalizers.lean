import SiteOperator.Proofs.Cluster.Finalizers
import SiteOperator.Proofs.Resource.Patched

/-!
# What a patch makes of the finalizers of others

The operator adds and removes its finalizer by writing the whole list, and it takes this list from
the object as it saw it when the reconcile began. What stands there after the patch is therefore
that list, whatever has been written in between (`Task.finalizers_of_patch`). The finalizers of
others survive exactly if they are still those that the operator saw
(`Task.spares_foreign_finalizers_iff`), and so they do if the object has not changed since
(`Task.spares_foreign_of_unchanged`).
-/

namespace SiteOperator

theorem Decoder.filterMap_of_list {α : Type} {read : Decoder α} {items : List Json}
    {values : List α} (h : Decoder.list read (.array items) = some values) :
    items.filterMap read = values := by
  replace h : items.mapM read = some values := h
  induction items generalizing values with
  | nil =>
      cases h
      rfl
  | cons item items ih =>
      rw [List.mapM_cons] at h
      obtain ⟨value, hitem, htail⟩ := Option.bind_eq_some_iff.mp h
      obtain ⟨rest, hrest, heq⟩ := Option.bind_eq_some_iff.mp htail
      cases heq
      rw [List.filterMap_cons_some hitem, ih hrest]

/-- The operator sees the finalizers that an object carries. -/
theorem ObjectMeta.finalizerList_of_decode {object : Json} {data : ObjectMeta}
    (h : ObjectMeta.decode (object.field "metadata") = some data) :
    data.finalizerList = object.finalizers := by
  have hread := (readFrom_of_decode h).finalizers
  rw [finalizerList, Json.finalizers]
  cases hvalue : (object.field "metadata").field "finalizers" with
  | null =>
      rw [hvalue] at hread
      rw [← Option.some.inj hread]
      rfl
  | array items =>
      rw [hvalue] at hread
      obtain ⟨values, hvalues, heq⟩ := Option.map_eq_some_iff.mp hread
      rw [← heq]
      exact (Decoder.filterMap_of_list hvalues).symm
  | bool | number | string | object =>
      rw [hvalue] at hread
      cases hread

def foreignFinalizers (finalizers : List String) : List String :=
  finalizers.filter (· ≠ operatorFinalizer)

/-- The list has the operator's finalizer now, and otherwise it is what it was before. -/
structure OnlyAdds (before after : List String) : Prop where
  carries : operatorFinalizer ∈ after
  foreign : foreignFinalizers after = foreignFinalizers before

/-- The list lacks the operator's finalizer now, and otherwise it is what it was before. -/
structure OnlyRemoves (before after : List String) : Prop where
  lacks : operatorFinalizer ∉ after
  foreign : foreignFinalizers after = foreignFinalizers before

theorem onlyAdds_append_iff {before seen : List String} :
    OnlyAdds before (seen ++ [operatorFinalizer]) ↔
      foreignFinalizers seen = foreignFinalizers before := by
  have hforeign : foreignFinalizers (seen ++ [operatorFinalizer]) = foreignFinalizers seen := by
    simp [foreignFinalizers]
  constructor
  · exact fun h => hforeign.symm.trans h.foreign
  · exact fun h => ⟨by simp, hforeign.trans h⟩

theorem onlyRemoves_filter_iff {before seen : List String} :
    OnlyRemoves before (seen.filter (· ≠ operatorFinalizer)) ↔
      foreignFinalizers seen = foreignFinalizers before := by
  have hforeign : foreignFinalizers (seen.filter (· ≠ operatorFinalizer)) =
      foreignFinalizers seen := by
    simp [foreignFinalizers]
  constructor
  · exact fun h => hforeign.symm.trans h.foreign
  · exact fun h => ⟨by simp, hforeign.trans h⟩

namespace Task

variable {α : Type} {object : Locator} {data : ObjectMeta} {read : Decoder α} {cluster : Cluster}
  {collects : Bool} {request : Request} {wire : WireRequest}

/-- A patch of finalizers that succeeds leaves those that it names. -/
theorem finalizers_of_patch {needed : Bool} {finalizers : List String}
    (hwire : request.wire? = some wire)
    (run : (requestIf needed (.patch object (metadataPatch "finalizers" (.strings finalizers)))
      read).Runs [sent request (cluster.answer collects wire).1] (.ok ())) :
    (cluster.answer collects wire).2.finalizers (Cluster.target wire) = finalizers := by
  cases needed with
  | false => cases (runs_pure_iff.mp run).1
  | true =>
      rcases exchanges_of_runs run with ⟨-, htrace, -⟩ | ⟨-, reply, htrace, hreply⟩
      · cases htrace
      obtain ⟨rfl, rfl⟩ := sent_inj (List.cons.inj htrace).1
      obtain ⟨hverb, hbody⟩ := Request.content_patch hwire
      cases hobject : cluster.object? (Cluster.target wire) with
      | none =>
          rw [Cluster.answer_merge hverb hbody, hobject] at hreply
          cases hreply
      | some value =>
          rw [Cluster.finalizers_answer_merge hverb hbody hobject, Json.finalizers_metadataPatch]

/-- If the object is as the operator saw it, the patch changes no finalizer but the operator's. -/
theorem spares_foreign_of_unchanged {value : Json} (hwire : request.wire? = some wire)
    (hvalue : cluster.object? (Cluster.target wire) = some value)
    (hseen : ObjectMeta.decode (value.field "metadata") = some data) :
    ((ensureFinalizer object data read).Runs [sent request (cluster.answer collects wire).1]
        (.ok ()) →
      OnlyAdds (cluster.finalizers (Cluster.target wire))
        ((cluster.answer collects wire).2.finalizers (Cluster.target wire))) ∧
    ((removeFinalizer object data read).Runs [sent request (cluster.answer collects wire).1]
        (.ok ()) →
      OnlyRemoves (cluster.finalizers (Cluster.target wire))
        ((cluster.answer collects wire).2.finalizers (Cluster.target wire))) := by
  have hstored : data.finalizerList = cluster.finalizers (Cluster.target wire) := by
    rw [Cluster.finalizers, hvalue]
    exact ObjectMeta.finalizerList_of_decode hseen
  constructor
  · intro run
    rw [ensureFinalizer_eq] at run
    rw [finalizers_of_patch hwire run, onlyAdds_append_iff, hstored]
  · intro run
    rw [removeFinalizer_eq] at run
    rw [finalizers_of_patch hwire run, onlyRemoves_filter_iff, hstored]

/-- The operator writes the finalizers that it saw on the object, with its own or without it. So
what others have written since is kept exactly if it is what the operator saw. -/
theorem spares_foreign_finalizers_iff (hwire : request.wire? = some wire) :
    ((ensureFinalizer object data read).Runs [sent request (cluster.answer collects wire).1]
        (.ok ()) →
      (OnlyAdds (cluster.finalizers (Cluster.target wire))
          ((cluster.answer collects wire).2.finalizers (Cluster.target wire)) ↔
        foreignFinalizers data.finalizerList =
          foreignFinalizers (cluster.finalizers (Cluster.target wire)))) ∧
    ((removeFinalizer object data read).Runs [sent request (cluster.answer collects wire).1]
        (.ok ()) →
      (OnlyRemoves (cluster.finalizers (Cluster.target wire))
          ((cluster.answer collects wire).2.finalizers (Cluster.target wire)) ↔
        foreignFinalizers data.finalizerList =
          foreignFinalizers (cluster.finalizers (Cluster.target wire)))) := by
  constructor
  · intro run
    rw [ensureFinalizer_eq] at run
    rw [finalizers_of_patch hwire run, onlyAdds_append_iff]
  · intro run
    rw [removeFinalizer_eq] at run
    rw [finalizers_of_patch hwire run, onlyRemoves_filter_iff]

def storedTemplate (finalizers : List String) : Json :=
  .ofFields [("metadata", .ofFields [("name", .string "t"), ("finalizers", .strings finalizers)]),
    ("spec", .object [])]

def templatePath : String := "/apis/lms.krestomat.io/v1alpha1/lmsmoodletemplates/t"

def holding (finalizers : List String) : Cluster := ⟨[(templatePath, storedTemplate finalizers)]⟩

def seen (finalizers : List String) : ObjectMeta :=
  { ObjectMeta.empty with name := some "t", finalizers := some finalizers }

def naming (finalizers : List String) : Request :=
  .patch (Template.locator "t") (metadataPatch "finalizers" (.strings finalizers))

def namingWire (finalizers : List String) : WireRequest :=
  ⟨.patch, templatePath, none,
    some (.mergePatch, metadataPatch "finalizers" (.strings finalizers))⟩

theorem wire?_naming (finalizers : List String) :
    (naming finalizers).wire? = some (namingWire finalizers) := by
  have hsplit : Target.split? ((Template.locator "t").path ++ "?") = some (templatePath, none) := by
    decide +kernel
  have hname : (Template.locator "t").name ≠ "" := by decide
  simp [naming, namingWire, Request.wire?, Request.object, Request.onWire?, hsplit, hname]

theorem runs_naming {finalizers : List String} {reply : Reply} {template : Template}
    (received : reply.received Template.decode = .ok template) :
    (requestIf true (naming finalizers) Template.decode).Runs [sent (naming finalizers) reply]
      (.ok ()) := by
  have hwire : (naming finalizers).wire?.isSome = true := by
    rw [wire?_naming]
    rfl
  exact runs_bind_iff.mpr (Or.inr ⟨_, template, [], rfl,
    runs_request_iff.mpr (Or.inr ⟨hwire, reply, rfl, received.symm⟩), runs_pure_iff.mpr ⟨rfl, rfl⟩⟩)

/-- The patches of a template that has not changed since it was seen keep the finalizer of another
client. -/
theorem spares_foreign_finalizers_of_fresh :
    (∃ wire, (naming ["hold", operatorFinalizer]).wire? = some wire ∧
      (ensureFinalizer (Template.locator "t") (seen ["hold"]) Template.decode).Runs
        [sent (naming ["hold", operatorFinalizer]) ((holding ["hold"]).answer true wire).1]
        (.ok ()) ∧
      OnlyAdds ((holding ["hold"]).finalizers (Cluster.target wire))
        (((holding ["hold"]).answer true wire).2.finalizers (Cluster.target wire))) ∧
    ∃ wire, (naming ["hold"]).wire? = some wire ∧
      (removeFinalizer (Template.locator "t") (seen ["hold", operatorFinalizer])
        Template.decode).Runs
        [sent (naming ["hold"]) ((holding ["hold", operatorFinalizer]).answer true wire).1]
        (.ok ()) ∧
      OnlyRemoves ((holding ["hold", operatorFinalizer]).finalizers (Cluster.target wire))
        (((holding ["hold", operatorFinalizer]).answer true wire).2.finalizers
          (Cluster.target wire)) := by
  constructor
  · have run : (ensureFinalizer (Template.locator "t") (seen ["hold"]) Template.decode).Runs
        [sent (naming ["hold", operatorFinalizer])
          ((holding ["hold"]).answer true (namingWire ["hold", operatorFinalizer])).1]
        (.ok ()) := by
      rw [ensureFinalizer_eq]
      exact runs_naming rfl
    exact ⟨_, wire?_naming _, run, ((spares_foreign_finalizers_iff (wire?_naming _)).1 run).mpr rfl⟩
  · have run : (removeFinalizer (Template.locator "t") (seen ["hold", operatorFinalizer])
        Template.decode).Runs
        [sent (naming ["hold"])
          ((holding ["hold", operatorFinalizer]).answer true (namingWire ["hold"])).1]
        (.ok ()) := by
      rw [removeFinalizer_eq]
      exact runs_naming rfl
    exact ⟨_, wire?_naming _, run, ((spares_foreign_finalizers_iff (wire?_naming _)).2 run).mpr rfl⟩

/-- A template without finalizers is seen, another client adds a finalizer, and the patch that adds
the operator's drops it. -/
theorem drops_foreign_finalizer :
    ∃ wire, (naming [operatorFinalizer]).wire? = some wire ∧
      ((holding []).object? (Cluster.target wire)).bind Template.decode =
        some ⟨seen [], .empty, none⟩ ∧
      (ensureFinalizer (Template.locator "t") (seen []) Template.decode).Runs
        [sent (naming [operatorFinalizer]) ((holding ["hold"]).answer true wire).1] (.ok ()) ∧
      ¬ OnlyAdds ((holding ["hold"]).finalizers (Cluster.target wire))
        (((holding ["hold"]).answer true wire).2.finalizers (Cluster.target wire)) := by
  refine ⟨_, wire?_naming _, rfl, ?_, fun only => ?_⟩
  · rw [ensureFinalizer_eq]
    exact runs_naming rfl
  · have hforeign := only.foreign
    revert hforeign
    decide +kernel

end Task

end SiteOperator

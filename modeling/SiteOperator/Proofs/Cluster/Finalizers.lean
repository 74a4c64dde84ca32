import SiteOperator.Proofs.Reconcile.Finalizer
import SiteOperator.Proofs.Reconcile.Serving

/-!
# The finalizers of stored objects

A cluster holds each object with the finalizers that were written last, whoever wrote them. A patch
of finalizers replaces all of them by those that it names (`Cluster.finalizers_of_patch`), and a
patch of a status leaves those of all objects as they are (`Served.finalizers_eq`).
-/

namespace SiteOperator

def Json.finalizers (object : Json) : List String :=
  match (object.field "metadata").field "finalizers" with
  | .array items => items.filterMap Decoder.text
  | _ => []

namespace Json

variable {object : Json}

theorem finalizers_of_field {finalizers : List String}
    (h : (object.field "metadata").field "finalizers" = .strings finalizers) :
    object.finalizers = finalizers := by
  rw [Json.finalizers, h, strings]
  simp [List.filterMap_map, Function.comp_def, Decoder.text]

/-- A patch of finalizers names all that are left. -/
theorem finalizers_metadataPatch (object : Json) (finalizers : List String) :
    ((metadataPatch "finalizers" (.strings finalizers)).mergePatch object).finalizers =
      finalizers := by
  refine finalizers_of_field ?_
  rw [metadataPatch, field_mergePatch rfl, if_pos rfl, field_mergePatch rfl, if_pos rfl]
  simp only [strings, mergePatch]

theorem finalizers_statusPatch {status : Json} (h : status.isNull = false) (object : Json) :
    ((statusPatch status).mergePatch object).finalizers = object.finalizers := by
  rw [Json.finalizers, statusPatch, field_mergePatch h, if_neg (by decide), Json.finalizers]

end Json

namespace Cluster

variable {cluster : Cluster} {collects : Bool} {wire : WireRequest} {path : String} {object : Json}

def finalizers (cluster : Cluster) (path : String) : List String :=
  ((cluster.object? path).map Json.finalizers).getD []

/-- An object that goes with the patch carries no finalizers any more. -/
theorem finalizers_storePatched (cluster : Cluster) (collects : Bool) (path : String)
    (object : Json) :
    (cluster.storePatched collects path object).finalizers path = object.finalizers := by
  unfold storePatched
  split
  · rename_i hgoes
    have hnone : hasFinalizers object = false := by
      simpa using (Bool.and_eq_true_iff.mp hgoes).2
    rw [finalizers, object?_remove, if_pos rfl, Json.finalizers]
    unfold hasFinalizers at hnone
    split
    · rename_i items hitems
      cases items with
      | nil => rfl
      | cons => simp [hitems] at hnone
    · rfl
  · rw [finalizers, object?_store, if_pos rfl]
    rfl

/-- What a merged patch makes of the finalizers of the object that it leads to. -/
theorem finalizers_answer_merge {body : Json} (hverb : wire.verb = .patch)
    (hbody : wire.body = some (.mergePatch, body))
    (hobject : cluster.object? (target wire) = some object) :
    (cluster.answer collects wire).2.finalizers (target wire) =
      (body.mergePatch object).finalizers := by
  rw [answer_merge hverb hbody, hobject]
  exact finalizers_storePatched _ _ _ _

end Cluster

namespace Request

variable {object : Locator} {body : Json} {wire : WireRequest}

theorem content_patch (h : (patch object body).wire? = some wire) :
    wire.verb = .patch ∧ wire.body = some (.mergePatch, body) := by
  obtain ⟨hverb, hbody, -⟩ := wire_of_onWire? (Option.ite_none_left_eq_some.mp h).2
  exact ⟨hverb, hbody⟩

theorem content_patchStatus (h : (patchStatus object body).wire? = some wire) :
    wire.verb = .patch ∧ wire.body = some (.mergePatch, body) := by
  obtain ⟨hverb, hbody, -⟩ := wire_of_onWire? (Option.ite_none_left_eq_some.mp h).2
  exact ⟨hverb, hbody⟩

/-- A request that writes nothing but the status of an object. -/
def WritesStatus (request : Request) : Prop :=
  ∃ object status, request = .patchStatus object (statusPatch status) ∧ status.isNull = false

end Request

variable {cluster last : Cluster} {request : Request} {reply : Reply} {trace : List AnsweredEffect}

theorem Serves.finalizers_eq (serves : Serves cluster (sent request reply) last)
    (h : request.WritesStatus) (path : String) :
    last.finalizers path = cluster.finalizers path := by
  obtain ⟨object, status, rfl, hstatus⟩ := h
  rcases serves.of_sent with ⟨rfl, -⟩ | ⟨collects, wire, hwire, rfl, -⟩
  · rfl
  · obtain ⟨hverb, hbody⟩ := Request.content_patchStatus hwire
    by_cases htarget : Cluster.target wire = path
    · subst htarget
      cases hobject : cluster.object? (Cluster.target wire) with
      | none => rw [Cluster.answer_merge hverb hbody, hobject]
      | some value =>
          rw [Cluster.finalizers_answer_merge hverb hbody hobject,
            Json.finalizers_statusPatch hstatus, Cluster.finalizers, hobject]
          rfl
    · rw [Cluster.finalizers, Cluster.object?_answer_of_ne htarget]
      rfl

/-- A run that writes nothing but statuses leaves the finalizers of all objects as they are. -/
theorem Served.finalizers_eq (served : Served cluster trace last)
    (h : OnlySends Request.WritesStatus trace) (path : String) :
    last.finalizers path = cluster.finalizers path :=
  served.of_onlySends (P := fun now => now.finalizers path = cluster.finalizers path)
    (h.mono fun _ writes _ _ _ serves hnow => (serves.finalizers_eq writes path).trans hnow) rfl

end SiteOperator

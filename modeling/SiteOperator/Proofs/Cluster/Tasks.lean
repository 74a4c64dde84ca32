import SiteOperator.Cluster.Task
import SiteOperator.Proofs.Dialogue.Runs

/-!
# Runs of a task

A run of a task is a run of its dialogue: the effects in their order, each with its answer, and the
result or the error at the end. A task that goes on after another one only does so if that one had a
result (`Task.runs_bind_iff`). A request that can be sent is one exchange, and what the task makes
of the reply is a function of the reply (`Exchanges`).

A property of traces that holds of a trace whenever it holds of its parts (`Chains`) holds of all
runs of a task if it holds of all runs of its parts (`Task.Always.bind`).
-/

namespace SiteOperator

abbrev AnsweredEffect := Dialogue.Answered Effect Effect.Answer

def sent (request : Request) (reply : Reply) : AnsweredEffect := ⟨.send request, reply⟩

def recorded (measurement : Measurement) : AnsweredEffect := ⟨.record measurement, ()⟩

theorem sent_inj {request other : Request} {reply answer : Reply}
    (h : sent request reply = sent other answer) : request = other ∧ reply = answer := by
  cases h
  exact ⟨rfl, rfl⟩

theorem sent_ne_recorded {request : Request} {reply : Reply} {measurement : Measurement} :
    sent request reply ≠ recorded measurement :=
  nofun

namespace Reply

variable {α : Type}

/-- What a reply means to someone who needs the object. -/
def received (read : Decoder α) : Reply → Except Raised α
  | success _ body => match body.bind read with
      | some x => .ok x
      | none => .error (.ofFault (.api none))
  | failure status => .error (.ofFault (.api (some status.code)))

/-- What a reply means to someone who asks whether there is an object. -/
def found (read : Decoder α) : Reply → Except Raised (Option α)
  | success _ body => match body.bind read with
      | some x => .ok (some x)
      | none => .error (.ofFault (.api none))
  | failure status =>
      if status.reason = "NotFound" then .ok none
      else .error (.ofFault (.api (some status.code)))

/-- What a reply means to someone who wants an object to go: whether it was still there. -/
def removed (read : Decoder α) : Reply → Except Raised Bool
  | success _ body => match body.bind (Task.deleted read) with
      | some () => .ok true
      | none => .error (.ofFault (.api none))
  | failure status =>
      if status.code = 404 then .ok false else .error (.ofFault (.api (some status.code)))

theorem received_eq_ok_iff {read : Decoder α} {reply : Reply} {x : α} :
    reply.received read = .ok x ↔
      ∃ code body, reply = .success code (some body) ∧ read body = some x := by
  constructor
  · intro h
    cases reply with
    | success code body =>
        cases body with
        | none => cases h
        | some body =>
            cases hread : read body with
            | none => simp [received, hread] at h
            | some y =>
                obtain rfl : y = x := by simpa [received, hread] using h
                exact ⟨code, body, rfl, hread⟩
    | failure status => cases h
  · rintro ⟨code, body, rfl, hread⟩
    simp [received, hread]

theorem found_eq_some_iff {read : Decoder α} {reply : Reply} {x : α} :
    reply.found read = .ok (some x) ↔
      ∃ code body, reply = .success code (some body) ∧ read body = some x := by
  constructor
  · intro h
    cases reply with
    | success code body =>
        cases body with
        | none => cases h
        | some body =>
            cases hread : read body with
            | none => simp [found, hread] at h
            | some y =>
                obtain rfl : y = x := by simpa [found, hread] using h
                exact ⟨code, body, rfl, hread⟩
    | failure status =>
        by_cases hreason : status.reason = "NotFound" <;> simp [found, hreason] at h
  · rintro ⟨code, body, rfl, hread⟩
    simp [found, hread]

theorem found_eq_none_iff {read : Decoder α} {reply : Reply} :
    reply.found read = .ok none ↔
      ∃ status, reply = .failure status ∧ status.reason = "NotFound" := by
  cases reply with
  | success code body => cases h : body.bind read <;> simp [found, h]
  | failure status => by_cases h : status.reason = "NotFound" <;> simp [found, h]

end Reply

/-- A request is sent and its reply is understood in some way, or it cannot be sent. -/
def Exchanges {α : Type} (request : Request) (understand : Reply → Except Raised α)
    (trace : List AnsweredEffect) (result : Except Raised α) : Prop :=
  request.wire? = none ∧ trace = [] ∧ result = .error (.ofFault (.api none)) ∨
    request.wire?.isSome = true ∧
      ∃ reply, trace = [sent request reply] ∧ result = understand reply

namespace Task

variable {α β : Type} {trace : List AnsweredEffect}

def Runs (task : Task α) (trace : List AnsweredEffect) (result : Except Raised α) : Prop :=
  Dialogue.Runs task.run trace result

theorem runs_pure_iff {x : α} {result : Except Raised α} :
    (pure x : Task α).Runs trace result ↔ trace = [] ∧ result = .ok x :=
  Dialogue.runs_done_iff

theorem runs_fail_iff {fault : Fault} {result : Except Raised α} :
    (fail fault : Task α).Runs trace result ↔ trace = [] ∧ result = .error (.ofFault fault) :=
  Dialogue.runs_done_iff

theorem runs_ofExcept_iff {x : Except Fault α} {result : Except Raised α} :
    (ofExcept x).Runs trace result ↔ trace = [] ∧ result = x.mapError .ofFault := by
  cases x with
  | ok x => exact runs_pure_iff
  | error fault => exact runs_fail_iff

/-- A task goes on after another one only with the result of that one. -/
theorem runs_bind_iff {task : Task α} {f : α → Task β} {result : Except Raised β} :
    (task >>= f).Runs trace result ↔
      (∃ error, task.Runs trace (.error error) ∧ result = .error error) ∨
        ∃ first x rest, trace = first ++ rest ∧ task.Runs first (.ok x) ∧
          (f x).Runs rest result := by
  have hbind : (task >>= f).Runs trace result ↔
      ∃ first x rest, trace = first ++ rest ∧ task.Runs first x ∧
        Dialogue.Runs (ExceptT.bindCont f x) rest result :=
    Dialogue.runs_bind_iff
  rw [hbind]
  constructor
  · rintro ⟨first, x, rest, rfl, hfirst, hrest⟩
    cases x with
    | ok x => exact Or.inr ⟨first, x, rest, rfl, hfirst, hrest⟩
    | error error =>
        obtain ⟨rfl, rfl⟩ := Dialogue.runs_done_iff.mp hrest
        rw [List.append_nil]
        exact Or.inl ⟨error, hfirst, rfl⟩
  · rintro (⟨error, hrun, rfl⟩ | ⟨first, x, rest, rfl, hfirst, hrest⟩)
    · exact ⟨trace, .error error, [], (List.append_nil _).symm, hrun, .done _⟩
    · exact ⟨first, .ok x, rest, rfl, hfirst, hrest⟩

theorem runs_within_iff {context : String} {task : Task α} {result : Except Raised α} :
    (within context task).Runs trace result ↔
      ∃ inner, task.Runs trace inner ∧
        result = inner.mapError fun error => error.within context := by
  have hwithin : (within context task).run =
      Dialogue.bind task.run fun inner =>
        .done (inner.mapError fun error => error.within context) := rfl
  rw [Runs, hwithin, Dialogue.runs_bind_iff]
  constructor
  · rintro ⟨first, inner, rest, rfl, hfirst, hrest⟩
    obtain ⟨rfl, rfl⟩ := Dialogue.runs_done_iff.mp hrest
    rw [List.append_nil]
    exact ⟨inner, hfirst, rfl⟩
  · rintro ⟨inner, hrun, rfl⟩
    exact ⟨trace, inner, [], (List.append_nil _).symm, hrun, .done _⟩

theorem runs_record_iff {measurement : Measurement} {result : Except Raised Unit} :
    (record measurement).Runs trace result ↔
      trace = [recorded measurement] ∧ result = .ok () := by
  have hrecord : (record measurement).run = .ask (.record measurement) fun _ => .done (.ok ()) :=
    rfl
  rw [Runs, hrecord, Dialogue.runs_ask_iff]
  constructor
  · rintro ⟨answer, rest, rfl, hrest⟩
    obtain ⟨rfl, rfl⟩ := Dialogue.runs_done_iff.mp hrest
    exact ⟨rfl, rfl⟩
  · rintro ⟨rfl, rfl⟩
    exact ⟨(), [], rfl, .done _⟩

theorem runs_record_bind_iff {measurement : Measurement} {next : Unit → Task α}
    {result : Except Raised α} :
    (record measurement >>= next).Runs trace result ↔
      ∃ rest, trace = recorded measurement :: rest ∧ (next ()).Runs rest result := by
  rw [runs_bind_iff]
  constructor
  · rintro (⟨error, hrecord, -⟩ | ⟨first, x, rest, rfl, hrecord, hrest⟩)
    · cases (runs_record_iff.mp hrecord).2
    · obtain ⟨rfl, -⟩ := runs_record_iff.mp hrecord
      exact ⟨rest, rfl, hrest⟩
  · rintro ⟨rest, rfl, hrest⟩
    exact Or.inr ⟨_, (), rest, rfl, runs_record_iff.mpr ⟨rfl, rfl⟩, hrest⟩

theorem runs_ofExcept_bind_iff {x : Except Fault α} {next : α → Task β} {result : Except Raised β} :
    (ofExcept x >>= next).Runs trace result ↔
      (∃ fault, x = .error fault ∧ trace = [] ∧ result = .error (.ofFault fault)) ∨
        ∃ y, x = .ok y ∧ (next y).Runs trace result := by
  cases x with
  | ok y => simp [ofExcept]
  | error fault =>
      have hfail : (fail fault >>= next : Task β) = fail fault := rfl
      simp [ofExcept, hfail, runs_fail_iff]

theorem runs_send_bind_iff {request : Request} {next : Reply → Task α}
    {understand : Reply → Except Raised α}
    (h : ∀ reply, (next reply).run = .done (understand reply)) {result : Except Raised α} :
    (send request >>= next).Runs trace result ↔ Exchanges request understand trace result := by
  cases hwire : request.wire? with
  | none =>
      have hrun : (send request >>= next).run = .done (.error (.ofFault (.api none))) := by
        simp only [send, hwire]
        rfl
      rw [Runs, hrun, Dialogue.runs_done_iff]
      simp [Exchanges, hwire]
  | some wire =>
      have hrun : (send request >>= next).run =
          .ask (.send request) fun reply => .done (understand reply) := by
        simp only [send, hwire]
        exact congrArg (Dialogue.ask (Effect.send request)) (funext h)
      rw [Runs, hrun, Dialogue.runs_ask_iff]
      constructor
      · rintro ⟨reply, rest, rfl, hrest⟩
        obtain ⟨rfl, rfl⟩ := Dialogue.runs_done_iff.mp hrest
        exact Or.inr ⟨by rw [hwire]; rfl, reply, rfl, rfl⟩
      · rintro (⟨hnone, -⟩ | ⟨-, reply, rfl, rfl⟩)
        · rw [hwire] at hnone
          cases hnone
        · exact ⟨reply, [], rfl, .done _⟩

theorem runs_request_iff {request : Request} {read : Decoder α} {result : Except Raised α} :
    (Task.request request read).Runs trace result ↔
      Exchanges request (Reply.received read) trace result := by
  refine runs_send_bind_iff fun reply => ?_
  cases reply with
  | success code body =>
      simp only [readBody, Reply.received]
      cases body.bind read with
      | none => rfl
      | some x => rfl
  | failure status => rfl

theorem runs_find?_iff {object : Locator} {read : Decoder α} {result : Except Raised (Option α)} :
    (find? object read).Runs trace result ↔
      Exchanges (.get object) (Reply.found read) trace result := by
  refine runs_send_bind_iff fun reply => ?_
  cases reply with
  | success code body =>
      simp only [readBody, Reply.found]
      cases body.bind read with
      | none => rfl
      | some x => rfl
  | failure status =>
      simp only [Reply.found]
      split
      · rfl
      · rfl

theorem runs_remove_iff {object : Locator} {read : Decoder α} {result : Except Raised Bool} :
    (remove object read).Runs trace result ↔
      Exchanges (.delete object) (Reply.removed read) trace result := by
  refine runs_send_bind_iff fun reply => ?_
  cases reply with
  | success code body =>
      simp only [readBody, Reply.removed]
      cases body.bind (deleted read) with
      | none => rfl
      | some x => rfl
  | failure status =>
      simp only [Reply.removed]
      split
      · rfl
      · rfl

end Task

/-- An effect in a trace of two parts is one of the first part or one of the second part. -/
theorem append_eq_append_cons {first rest before after : List AnsweredEffect} {e : AnsweredEffect}
    (h : first ++ rest = before ++ e :: after) :
    (∃ tail, first = before ++ e :: tail ∧ after = tail ++ rest) ∨
      ∃ lead, before = first ++ lead ∧ rest = lead ++ e :: after := by
  rcases List.append_eq_append_iff.mp h with ⟨lead, rfl, hrest⟩ | ⟨tail, rfl, hafter⟩
  · exact Or.inr ⟨lead, rfl, hrest⟩
  · cases tail with
    | nil => exact Or.inr ⟨[], by simp, hafter.symm⟩
    | cons head tail =>
        obtain ⟨rfl, rfl⟩ := List.cons.inj hafter
        exact Or.inl ⟨tail, rfl, rfl⟩

/-- A property of traces that a trace has if the parts that it is put together from have it. -/
structure Chains (P : List AnsweredEffect → Prop) : Prop where
  nil : P []
  append {first rest : List AnsweredEffect} : P first → P rest → P (first ++ rest)

def OnlySends (P : Request → Prop) (trace : List AnsweredEffect) : Prop :=
  ∀ request reply, sent request reply ∈ trace → P request

namespace OnlySends

variable {P Q : Request → Prop} {trace : List AnsweredEffect}

theorem chains (P : Request → Prop) : Chains (OnlySends P) where
  nil := fun _ _ hmem => absurd hmem List.not_mem_nil
  append hfirst hrest := fun request reply hmem =>
    (List.mem_append.mp hmem).elim (hfirst request reply) (hrest request reply)

theorem sent {request : Request} (h : P request) (reply : Reply) :
    OnlySends P [sent request reply] := by
  intro other answer hmem
  obtain ⟨rfl, -⟩ := sent_inj (List.mem_singleton.mp hmem)
  exact h

theorem recorded (measurement : Measurement) : OnlySends P [recorded measurement] := by
  intro request reply hmem
  exact absurd (List.mem_singleton.mp hmem) sent_ne_recorded

theorem mono (h : OnlySends P trace) (himp : ∀ request, P request → Q request) :
    OnlySends Q trace :=
  fun request reply hmem => himp request (h request reply hmem)

end OnlySends

namespace Task

variable {α β : Type} {P : List AnsweredEffect → Prop}

def Always (P : List AnsweredEffect → Prop) (task : Task α) : Prop :=
  ∀ trace result, task.Runs trace result → P trace

namespace Always

theorem pure (chains : Chains P) (x : α) : Always P (Pure.pure x : Task α) := by
  intro trace result run
  obtain ⟨rfl, -⟩ := runs_pure_iff.mp run
  exact chains.nil

theorem ofExcept (chains : Chains P) (x : Except Fault α) : Always P (Task.ofExcept x) := by
  intro trace result run
  obtain ⟨rfl, -⟩ := runs_ofExcept_iff.mp run
  exact chains.nil

theorem bind (chains : Chains P) {task : Task α} {f : α → Task β} (first : Always P task)
    (next : ∀ x, Always P (f x)) : Always P (task >>= f) := by
  intro trace result run
  rcases runs_bind_iff.mp run with ⟨error, hrun, -⟩ | ⟨made, x, rest, rfl, hmade, hrest⟩
  · exact first _ _ hrun
  · exact chains.append (first _ _ hmade) (next x _ _ hrest)

theorem within {context : String} {task : Task α} (h : Always P task) :
    Always P (Task.within context task) := by
  intro trace result run
  obtain ⟨inner, hrun, -⟩ := runs_within_iff.mp run
  exact h _ _ hrun

theorem record (h : ∀ measurement, P [recorded measurement]) (measurement : Measurement) :
    Always P (Task.record measurement) := by
  intro trace result run
  obtain ⟨rfl, -⟩ := runs_record_iff.mp run
  exact h measurement

theorem of_exchanges {task : Task α} {request : Request} {understand : Reply → Except Raised α}
    (hruns : ∀ trace result, task.Runs trace result → Exchanges request understand trace result)
    (chains : Chains P) (h : ∀ reply, P [sent request reply]) : Always P task := by
  intro trace result run
  rcases hruns _ _ run with ⟨-, rfl, -⟩ | ⟨-, reply, rfl, -⟩
  · exact chains.nil
  · exact h reply

theorem find? (chains : Chains P) {object : Locator} {read : Decoder α}
    (h : ∀ reply, P [sent (.get object) reply]) : Always P (Task.find? object read) :=
  of_exchanges (fun _ _ run => runs_find?_iff.mp run) chains h

theorem request (chains : Chains P) {request : Request} {read : Decoder α}
    (h : ∀ reply, P [sent request reply]) : Always P (Task.request request read) :=
  of_exchanges (fun _ _ run => runs_request_iff.mp run) chains h

end Always

end Task

end SiteOperator

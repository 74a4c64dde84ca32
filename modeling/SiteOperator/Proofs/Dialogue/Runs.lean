import SiteOperator.Dialogue

/-!
# Runs of a dialogue

`d.Runs trace result` says that `d` can ask the questions of `trace` in this order, go on with the
answers recorded there, and end with `result`. Nothing is said about who answers, so a statement
about every run holds in every environment; `runs_transcript` is the run that a given environment
leads to. A run of a program that goes on with another one splits into a run of each
(`runs_bind_iff`), so facts about long programs are put together from facts about their parts. A run
of a program whose questions are answered by programs of another kind is a run of the former
together with one run of the latter for each of its questions (`runs_translate`).
-/

namespace SiteOperator

namespace Dialogue

variable {Q : Type} {A : Q → Type} {α β σ : Type}

abbrev Answered (Q : Type) (A : Q → Type) := (q : Q) × A q

/-- The dialogue can ask the questions of the trace, receive the answers that stand there, and end
with the result. -/
inductive Runs : Dialogue Q A α → List (Answered Q A) → α → Prop where
  | done (result : α) : Runs (done result) [] result
  | ask {q : Q} {next : A q → Dialogue Q A α} {answer : A q} {trace : List (Answered Q A)}
      {result : α} (rest : Runs (next answer) trace result) :
      Runs (ask q next) (⟨q, answer⟩ :: trace) result

@[simp] theorem runs_done_iff {x result : α} {trace : List (Answered Q A)} :
    (done x : Dialogue Q A α).Runs trace result ↔ trace = [] ∧ result = x := by
  constructor
  · intro h
    cases h
    exact ⟨rfl, rfl⟩
  · rintro ⟨rfl, rfl⟩
    exact .done _

theorem runs_ask_iff {q : Q} {next : A q → Dialogue Q A α} {trace : List (Answered Q A)}
    {result : α} :
    (ask q next).Runs trace result ↔
      ∃ answer rest, trace = ⟨q, answer⟩ :: rest ∧ (next answer).Runs rest result := by
  constructor
  · intro h
    cases h with
    | ask rest => exact ⟨_, _, rfl, rest⟩
  · rintro ⟨answer, rest, rfl, h⟩
    exact .ask h

/-- A run of a program that goes on with another one is a run of each, one after the other. -/
theorem runs_bind_iff {d : Dialogue Q A α} {f : α → Dialogue Q A β}
    {trace : List (Answered Q A)} {result : β} :
    (bind d f).Runs trace result ↔
      ∃ first x rest, trace = first ++ rest ∧ d.Runs first x ∧ (f x).Runs rest result := by
  induction d generalizing trace with
  | done y =>
      constructor
      · intro h
        exact ⟨[], y, trace, rfl, .done y, h⟩
      · rintro ⟨first, x, rest, rfl, hfirst, hrest⟩
        obtain ⟨rfl, rfl⟩ := runs_done_iff.mp hfirst
        exact hrest
  | ask q next ih =>
      rw [bind_ask, runs_ask_iff]
      constructor
      · rintro ⟨answer, trace, rfl, h⟩
        obtain ⟨first, x, rest, rfl, hfirst, hrest⟩ := (ih answer).mp h
        exact ⟨⟨q, answer⟩ :: first, x, rest, rfl, .ask hfirst, hrest⟩
      · rintro ⟨first, x, rest, rfl, hfirst, hrest⟩
        obtain ⟨answer, first, rfl, hnext⟩ := runs_ask_iff.mp hfirst
        exact ⟨answer, first ++ rest, rfl, (ih answer).mpr ⟨first, x, rest, rfl, hnext, hrest⟩⟩

section Translate

variable {R : Type} {B : R → Type} {perform : (q : Q) → Dialogue R B (A q)}

/-- Each question of a trace was answered by a run of the program that performs it, one after the
other. -/
inductive Performed (perform : (q : Q) → Dialogue R B (A q)) :
    List (Answered Q A) → List (Answered R B) → Prop where
  | nil : Performed perform [] []
  | cons {q : Q} {answer : A q} {trace : List (Answered Q A)} {first rest : List (Answered R B)}
      (run : (perform q).Runs first answer) (performed : Performed perform trace rest) :
      Performed perform (⟨q, answer⟩ :: trace) (first ++ rest)

theorem translate_bind (perform : (q : Q) → Dialogue R B (A q)) (d : Dialogue Q A α)
    (f : α → Dialogue Q A β) :
    (bind d f).translate perform =
      bind (d.translate perform) fun x => (f x).translate perform := by
  induction d with
  | done => rfl
  | ask q next ih => simp [translate, bind_assoc, ih]

theorem runs_translate {d : Dialogue Q A α} {events : List (Answered R B)} {result : α}
    (run : (d.translate perform).Runs events result) :
    ∃ trace, d.Runs trace result ∧ Performed perform trace events := by
  induction d generalizing events with
  | done x =>
      obtain ⟨rfl, rfl⟩ := runs_done_iff.mp run
      exact ⟨[], .done _, .nil⟩
  | ask q next ih =>
      obtain ⟨first, answer, rest, rfl, hfirst, hrest⟩ := runs_bind_iff.mp run
      obtain ⟨trace, hnext, performed⟩ := ih answer hrest
      exact ⟨⟨q, answer⟩ :: trace, .ask hnext, .cons hfirst performed⟩

end Translate

def transcript (environment : (q : Q) → σ → A q × σ) :
    Dialogue Q A α → σ → List (Answered Q A)
  | done _, _ => []
  | ask q next, state =>
      ⟨q, (environment q state).1⟩ ::
        transcript environment (next (environment q state).1) (environment q state).2

theorem transcript_bind (environment : (q : Q) → σ → A q × σ) (d : Dialogue Q A α)
    (f : α → Dialogue Q A β) (state : σ) :
    (bind d f).transcript environment state = d.transcript environment state ++
      (f (d.run environment state).1).transcript environment (d.run environment state).2 := by
  induction d generalizing state with
  | done => rfl
  | ask q next ih => simp [transcript, run, ih]

/-- Every environment leads a dialogue to one of its runs. -/
theorem runs_transcript (environment : (q : Q) → σ → A q × σ) (d : Dialogue Q A α) (state : σ) :
    d.Runs (d.transcript environment state) (d.run environment state).1 := by
  induction d generalizing state with
  | done result => exact .done result
  | ask q next ih => exact .ask (ih _ _)

end Dialogue

end SiteOperator

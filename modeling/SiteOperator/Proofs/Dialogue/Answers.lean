import SiteOperator.Proofs.Dialogue.Runs

/-!
# Traces that an environment answers

`AnsweredBy environment state trace last` says that the answers of a trace are those that the
environment gives, one after the other, and that this takes it from one state to another. A run
whose trace is answered so is the run that the environment leads to (`Runs.eq_transcript`), so what
an environment makes of a long program can be put together from what it makes of its parts.
-/

namespace SiteOperator

namespace Dialogue

variable {Q : Type} {A : Q → Type} {α σ : Type} {environment : (q : Q) → σ → A q × σ}
  {state middle last : σ} {first rest trace : List (Answered Q A)}

/-- The answers of the trace are those of the environment, which goes from one state to another. -/
inductive AnsweredBy (environment : (q : Q) → σ → A q × σ) :
    σ → List (Answered Q A) → σ → Prop where
  | nil {state : σ} : AnsweredBy environment state [] state
  | cons {q : Q} {state last : σ} {trace : List (Answered Q A)}
      (rest : AnsweredBy environment (environment q state).2 trace last) :
      AnsweredBy environment state (⟨q, (environment q state).1⟩ :: trace) last

theorem AnsweredBy.append (h : AnsweredBy environment state first middle)
    (h' : AnsweredBy environment middle rest last) :
    AnsweredBy environment state (first ++ rest) last := by
  induction h with
  | nil => exact h'
  | cons _ ih => exact .cons (ih h')

theorem AnsweredBy.of_append (h : AnsweredBy environment state (first ++ rest) last) :
    ∃ middle, AnsweredBy environment state first middle ∧
      AnsweredBy environment middle rest last := by
  induction first generalizing state with
  | nil => exact ⟨state, .nil, h⟩
  | cons e first ih =>
      cases h with
      | cons h =>
          obtain ⟨middle, hfirst, hrest⟩ := ih h
          exact ⟨middle, .cons hfirst, hrest⟩

/-- A run with the answers of an environment is the one that the environment leads to. -/
theorem Runs.eq_transcript {d : Dialogue Q A α} {result : α} (run : d.Runs trace result)
    (answered : AnsweredBy environment state trace last) :
    d.transcript environment state = trace ∧ d.run environment state = (result, last) := by
  induction run generalizing state with
  | done =>
      cases answered
      exact ⟨rfl, rfl⟩
  | ask _ ih =>
      cases answered with
      | cons hrest =>
          obtain ⟨htrace, hrun⟩ := ih hrest
          exact ⟨congrArg _ htrace, hrun⟩

theorem answeredBy_transcript (environment : (q : Q) → σ → A q × σ) (d : Dialogue Q A α)
    (state : σ) :
    AnsweredBy environment state (d.transcript environment state) (d.run environment state).2 := by
  induction d generalizing state with
  | done => exact .nil
  | ask q next ih => exact .cons (ih _ _)

/-- If each question of a run is answered by a run of the program that performs it, these are a run
of the program with its questions performed. -/
theorem Performed.runs_translate {R : Type} {B : R → Type}
    {perform : (q : Q) → Dialogue R B (A q)} {d : Dialogue Q A α} {result : α}
    {events : List (Answered R B)} (performed : Performed perform trace events)
    (run : d.Runs trace result) : (d.translate perform).Runs events result := by
  induction run generalizing events with
  | done x =>
      cases performed
      exact .done x
  | ask _ ih =>
      cases performed with
      | cons hfirst hrest => exact runs_bind_iff.mpr ⟨_, _, _, rfl, hfirst, ih hrest⟩

end Dialogue

end SiteOperator

/-!
# Programs that ask questions

A `Dialogue` is a program that ends with a result after finitely many questions to its environment.
It fixes what is asked after which answers and nothing about who answers, so a statement about a
dialogue holds in every environment.  `run` lets an environment with a state answer, and `translate`
answers each question by a dialogue of another kind.
-/

namespace SiteOperator

/-- A program that asks questions `q : Q`, each answered by an `A q`, and ends with a result. -/
inductive Dialogue (Q : Type) (A : Q → Type) (α : Type) : Type where
  | done (result : α)
  | ask (question : Q) (next : A question → Dialogue Q A α)

namespace Dialogue

variable {Q : Type} {A : Q → Type} {α β σ : Type}

/-- Goes on with another program after the first one has ended. -/
def bind (first : Dialogue Q A α) (next : α → Dialogue Q A β) : Dialogue Q A β :=
  match first with
  | done result => next result
  | ask question rest => ask question fun answer => bind (rest answer) next

instance : Monad (Dialogue Q A) where
  pure := done
  bind := bind

def question (q : Q) : Dialogue Q A (A q) := ask q done

def run (environment : (q : Q) → σ → A q × σ) : Dialogue Q A α → σ → α × σ
  | done result, state => (result, state)
  | ask q next, state =>
      let (answer, state) := environment q state
      run environment (next answer) state

def translate {R : Type} {B : R → Type} (perform : (q : Q) → Dialogue R B (A q)) :
    Dialogue Q A α → Dialogue R B α
  | done result => done result
  | ask q next => (perform q).bind fun answer => translate perform (next answer)

@[simp] theorem bind_done (result : α) (next : α → Dialogue Q A β) :
    bind (done result) next = next result := rfl

@[simp] theorem bind_ask (q : Q) (rest : A q → Dialogue Q A α) (next : α → Dialogue Q A β) :
    bind (ask q rest) next = ask q fun answer => bind (rest answer) next := rfl

@[simp] theorem bind_pure (d : Dialogue Q A α) : bind d done = d := by
  induction d with
  | done => rfl
  | ask q next ih => simp [ih]

theorem bind_assoc {γ : Type} (d : Dialogue Q A α) (f : α → Dialogue Q A β)
    (g : β → Dialogue Q A γ) : bind (bind d f) g = bind d fun x => bind (f x) g := by
  induction d with
  | done => rfl
  | ask q next ih => simp [ih]

instance : LawfulMonad (Dialogue Q A) :=
  LawfulMonad.mk' (Dialogue Q A) (fun d => bind_pure d) (fun _ _ => rfl) bind_assoc

theorem run_bind (environment : (q : Q) → σ → A q × σ) (d : Dialogue Q A α)
    (f : α → Dialogue Q A β) (state : σ) :
    run environment (bind d f) state =
      run environment (f (run environment d state).1) (run environment d state).2 := by
  induction d generalizing state with
  | done => rfl
  | ask q next ih => simp [run, ih]

end Dialogue

end SiteOperator

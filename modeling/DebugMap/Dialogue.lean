/-!
# Dialogues

A computation that asks questions of its surroundings and goes on with the answers, held as data:
`done` with a result, or `ask` a question and continue. What the surroundings do to answer is left
open; `run` lets any monad answer. Main statements: `run_bind` (to run one dialogue after another is
to run them in turn), `run_question`.
-/

set_option autoImplicit false

namespace DebugMap

/-- **Questions and answers in turn**, ending in a result. -/
inductive Dialogue (Q : Type) (Answer : Q → Type) (α : Type) where
  | done (result : α)
  | ask (question : Q) (next : Answer question → Dialogue Q Answer α)

namespace Dialogue

variable {Q : Type} {Answer : Q → Type} {α β : Type}

def bind : Dialogue Q Answer α → (α → Dialogue Q Answer β) → Dialogue Q Answer β
  | .done a, f => f a
  | .ask q next, f => .ask q fun answer => (next answer).bind f

instance : Monad (Dialogue Q Answer) where
  pure := .done
  bind := bind

def question (q : Q) : Dialogue Q Answer (Answer q) :=
  .ask q .done

/-- **Has a monad answer** the questions. -/
def run {m : Type → Type} [Monad m] (answer : (q : Q) → m (Answer q)) :
    Dialogue Q Answer α → m α
  | .done a => pure a
  | .ask q next => do (next (← answer q)).run answer

@[simp] theorem pure_eq (a : α) : (pure a : Dialogue Q Answer α) = .done a := rfl

@[simp] theorem done_bind (a : α) (f : α → Dialogue Q Answer β) :
    (Dialogue.done a >>= f) = f a := rfl

@[simp] theorem ask_bind (q : Q) (next : Answer q → Dialogue Q Answer α)
    (f : α → Dialogue Q Answer β) :
    (Dialogue.ask q next >>= f) = .ask q fun answer => next answer >>= f := rfl

theorem bind_done (d : Dialogue Q Answer α) : d >>= .done = d := by
  induction d with
  | done a => rfl
  | ask q next ih =>
    rw [ask_bind]
    exact congrArg _ (funext ih)

theorem bind_assoc {γ : Type} (d : Dialogue Q Answer α) (f : α → Dialogue Q Answer β)
    (g : β → Dialogue Q Answer γ) : d >>= f >>= g = d >>= fun a => f a >>= g := by
  induction d with
  | done a => rfl
  | ask q next ih =>
    simp only [ask_bind]
    exact congrArg _ (funext ih)

instance : LawfulMonad (Dialogue Q Answer) :=
  LawfulMonad.mk' _ bind_done (fun _ _ => rfl) bind_assoc

section
variable {m : Type → Type} [Monad m] (answer : (q : Q) → m (Answer q))

theorem run_bind [LawfulMonad m] (d : Dialogue Q Answer α) (f : α → Dialogue Q Answer β) :
    (d >>= f).run answer = d.run answer >>= fun a => (f a).run answer := by
  induction d with
  | done a => simp [run]
  | ask q next ih => simp [run, ih]

theorem run_question [LawfulMonad m] (q : Q) :
    (question q : Dialogue Q Answer (Answer q)).run answer = answer q := by
  simp [question, run]

end

end Dialogue

end DebugMap

/-!
Programs that ask their surroundings.  A program is done or asks a query, whose answer decides how
it goes on; whoever runs it gives the answers.
-/
namespace MailCapture

/-- A program over the queries `Q`, where `A q` is the type of the answers to `q`. -/
inductive Prog (Q : Type) (A : Q → Type) (α : Type) where
  | done (value : α)
  | ask (query : Q) (next : A query → Prog Q A α)

namespace Prog
variable {Q R : Type} {A : Q → Type} {B : R → Type} {α β σ : Type}

def bind : Prog Q A α → (α → Prog Q A β) → Prog Q A β
  | .done a, f => f a
  | .ask q next, f => .ask q (fun a => (next a).bind f)

instance : Monad (Prog Q A) where
  pure := .done
  bind := bind

def run (answer : (q : Q) → σ → A q × σ) : Prog Q A α → σ → α × σ
  | .done a, s => (a, s)
  | .ask q next, s =>
    let (a, s) := answer q s
    (next a).run answer s

def answeredBy (answer : (q : Q) → Prog R B (A q)) : Prog Q A α → Prog R B α
  | .done a => .done a
  | .ask q next => (answer q).bind (fun a => (next a).answeredBy answer)

@[simp] theorem run_done (answer : (q : Q) → σ → A q × σ) (a : α) (s : σ) :
    (Prog.done a : Prog Q A α).run answer s = (a, s) := rfl

theorem run_bind (answer : (q : Q) → σ → A q × σ) (p : Prog Q A α) (f : α → Prog Q A β) (s : σ) :
    (p.bind f).run answer s =
      (f (p.run answer s).1).run answer (p.run answer s).2 := by
  induction p generalizing s with
  | done a => rfl
  | ask q next ih => exact ih (answer q s).1 (answer q s).2

theorem bind_assoc (p : Prog Q A α) (f : α → Prog Q A β) {γ : Type} (g : β → Prog Q A γ) :
    (p.bind f).bind g = p.bind (fun a => (f a).bind g) := by
  induction p with
  | done a => rfl
  | ask q next ih => simp only [bind]; congr; funext a; exact ih a

end Prog
end MailCapture

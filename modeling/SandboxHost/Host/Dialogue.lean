import SandboxHost.Host.Request

namespace SandboxHost

inductive Dialogue (α : Type) where
  | done (a : α)
  | diverged
  | ask (r : Request) (next : r.Answer → Dialogue α)

namespace Dialogue

variable {α β : Type}

def bind : Dialogue α → (α → Dialogue β) → Dialogue β
  | .done a, f => f a
  | .diverged, _ => .diverged
  | .ask r next, f => .ask r fun answer => (next answer).bind f

instance : Monad Dialogue where
  pure := .done
  bind := bind

/-- Whatever the answers are, each value the dialogue may end with has the property. -/
inductive Always (P : α → Prop) : Dialogue α → Prop where
  | done {a : α} : P a → Always P (.done a)
  | diverged : Always P .diverged
  | ask {r : Request} {next : r.Answer → Dialogue α} :
    (∀ answer, Always P (next answer)) → Always P (.ask r next)

theorem Always.mono {P Q : α → Prop} (h : ∀ a, P a → Q a) {d : Dialogue α} (hd : Always P d) :
    Always Q d := by
  induction hd with
  | done hp => exact .done (h _ hp)
  | diverged => exact .diverged
  | ask _ ih => exact .ask ih

theorem Always.bind {P : α → Prop} {Q : β → Prop} {f : α → Dialogue β}
    (hf : ∀ a, P a → Always Q (f a)) {d : Dialogue α} (hd : Always P d) : Always Q (d.bind f) := by
  induction hd with
  | done hp => exact hf _ hp
  | diverged => exact .diverged
  | ask _ ih => exact .ask ih

theorem bind_done (d : Dialogue α) : d.bind .done = d := by
  induction d with
  | done a => rfl
  | diverged => rfl
  | ask r next ih => simp only [Dialogue.bind, ih]

theorem bind_assoc {γ : Type} (d : Dialogue α) (f : α → Dialogue β) (g : β → Dialogue γ) :
    (d.bind f).bind g = d.bind fun a => (f a).bind g := by
  induction d with
  | done a => rfl
  | diverged => rfl
  | ask r next ih => simp only [Dialogue.bind, ih]

instance : LawfulMonad Dialogue := .mk' Dialogue bind_done (fun _ _ => rfl) bind_assoc

end Dialogue

end SandboxHost

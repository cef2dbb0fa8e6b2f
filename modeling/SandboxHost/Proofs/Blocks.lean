import SandboxHost.Guest.Run
import SandboxHost.Proofs.Law

namespace SandboxHost

/-- A kind of blocks: which programs are blocks, each with what holds of the values it gives. -/
abbrev BlockKind := (β : Type) → Program β → (β → Prop) → Prop

/-- Blocks of a kind, one after the other, and a value with a property in the end. -/
inductive Program.MadeOf (B : BlockKind) {α : Type} (P : α → Prop) : Program α → Prop where
  | done {a : α} : P a → MadeOf B P (.done a)
  | block {β : Type} {p : Program β} {R : β → Prop} {next : β → Program α} :
    B β p R → (∀ b, R b → MadeOf B P (next b)) → MadeOf B P (p.bind next)

namespace Program

variable {α β : Type} {B : BlockKind} {P : α → Prop} {R : β → Prop}

theorem madeOf_bind {p : Program α} {f : α → Program β} (hp : p.MadeOf B P)
    (hf : ∀ a, P a → (f a).MadeOf B R) : (p.bind f).MadeOf B R := by
  induction hp with
  | done ha => exact hf _ ha
  | block hb _ ih =>
    rw [bind_assoc]
    exact .block hb ih

theorem madeOf_block {p : Program α} (hp : B α p P) : p.MadeOf B P := by
  rw [← bind_done p]
  exact .block hp fun _ ha => .done ha

theorem MadeOf.weaken {p : Program α} {P' : α → Prop} (hp : p.MadeOf B P) (h : ∀ a, P a → P' a) :
    p.MadeOf B P' := by
  rw [← bind_done p]
  exact madeOf_bind hp fun a ha => .done (h a ha)

theorem madeOf_look_bind {f : HostState → Program β}
    (hlook : (Program.host.bind fun h => .done (f h)).MadeOf B fun p => ∃ h, f h = p)
    (h : ∀ host, (f host).MadeOf B R) : (Program.host.bind f).MadeOf B R := by
  have hthen : Program.host.bind f = (Program.host.bind fun h => .done (f h)).bind id := rfl
  rw [hthen]
  refine madeOf_bind hlook ?_
  rintro _ ⟨host, rfl⟩
  exact h host

/-- What the steps of every block obey, and of two blocks in a row, the program's steps obey. -/
theorem MadeOf.takes {m : Machine} {call : Callee} {K : State → List Step → State → Prop}
    (refl : ∀ s, K s [] s)
    (trans : ∀ s steps s₁ steps' s', K s steps s₁ → K s₁ steps' s' → K s (steps ++ steps') s')
    (hB : ∀ β (q : Program β) R, B β q R → ∀ s steps b s', m.Takes call q s steps b s' →
      K s steps s' ∧ R b)
    {p : Program α} (hp : p.MadeOf B P) {s s' : State} {steps : List Step} {a : α}
    (h : m.Takes call p s steps a s') : K s steps s' ∧ P a := by
  induction hp generalizing s steps with
  | done ha =>
    obtain ⟨rfl, rfl, rfl⟩ := Machine.takes_done.mp h
    exact ⟨refl s', ha⟩
  | block hb _ ih =>
    obtain ⟨steps₁, b, s₁, steps₂, h₁, h₂, rfl⟩ := Machine.takes_bind.mp h
    obtain ⟨hkeeps, hr⟩ := hB _ _ _ hb s steps₁ b s₁ h₁
    obtain ⟨hkeeps', ha⟩ := ih b hr h₂
    exact ⟨trans s steps₁ s₁ steps₂ s' hkeeps hkeeps', ha⟩

theorem MadeOf.governed {L : Law} {m : Machine} {call : Callee}
    (hB : ∀ β (q : Program β) R, B β q R → L.GovernsProgram m call q R)
    {p : Program α} (hp : p.MadeOf B P) : L.GovernsProgram m call p P := by
  intro s t a s' h
  obtain ⟨steps, hsteps, rfl⟩ := Machine.ends_perform.mp h
  refine hp.takes (K := fun s steps s' => L.keeps s (steps.flatMap Step.trace) s') L.refl ?_ ?_
    hsteps
  · intro s steps s₁ steps' s' h h'
    rw [List.flatMap_append]
    exact L.trans h h'
  · intro β q R hb s steps b s' h
    have hends := Machine.ends_perform.mpr ⟨steps, h, rfl⟩
    exact hB β q R hb s _ b s' hends

end Program

def Op.Answers (fails : Error → Prop) : (op : Op) → op.Answer → Prop
  | .call _ _ _, answer => FailsWithin fails answer
  | _, _ => True

theorem Op.answers_true (op : Op) (answer : op.Answer) : op.Answers (fun _ => True) answer := by
  cases op with
  | call => exact failsWithin_true answer
  | _ => trivial

inductive StepsOf (sort : Op → Prop) (fails : Error → Prop) : BlockKind where
  | op (op : Op) : sort op → StepsOf sort fails op.Answer (.ofOp op) (op.Answers fails)

/-- A program of single steps of a sort takes steps of that sort only, to a value with the
property. -/
theorem Program.MadeOf.sorted_value {α : Type} {sort : Op → Prop} {P : α → Prop} {p : Program α}
    (hp : p.MadeOf (StepsOf sort fun _ => True) P) (m : Machine) (call : Callee) (s : State) :
    m.Records call p s fun steps a _ => (∀ x ∈ steps, sort x.op) ∧ P a := by
  intro steps a s' h
  refine hp.takes (K := fun _ steps _ => ∀ x ∈ steps, sort x.op) ?_ ?_ ?_ h
  · exact fun _ _ hx => absurd hx List.not_mem_nil
  · intro _ _ _ _ _ h h' x hx
    exact (List.mem_append.mp hx).elim (h x) (h' x)
  · rintro _ _ _ ⟨op, hop⟩ s steps b s' hop'
    obtain ⟨t, answer, s₁, rest, -, hdone, rfl⟩ := Machine.takes_step.mp hop'
    obtain ⟨rfl, -, -⟩ := Machine.takes_done.mp hdone
    refine ⟨fun x hx => ?_, op.answers_true _⟩
    rw [List.mem_singleton.mp hx]
    exact hop

theorem Program.MadeOf.sorted {α : Type} {sort : Op → Prop} {P : α → Prop} {p : Program α}
    (hp : p.MadeOf (StepsOf sort fun _ => True) P) (m : Machine) (call : Callee) (s : State) :
    m.Records call p s fun steps _ _ => ∀ x ∈ steps, sort x.op :=
  (hp.sorted_value m call s).mono fun _ _ _ h => h.1

theorem Program.MadeOf.of_step {α : Type} {sort : Op → Prop} {P : α → Prop} {op : Op}
    {next : op.Answer → Program α}
    (h : (Program.step op next).MadeOf (StepsOf sort fun _ => True) P) (answer : op.Answer) :
    sort op ∧ (next answer).MadeOf (StepsOf sort fun _ => True) P := by
  generalize hp : Program.step op next = p at h
  cases h with
  | done _ => cases hp
  | block hb hnext =>
    obtain ⟨op', hop⟩ := hb
    cases hp
    exact ⟨hop, hnext answer (op.answers_true answer)⟩

namespace Action

variable {α β : Type} {B : BlockKind} {fails : Error → Prop}

def MadeOf (B : BlockKind) (fails : Error → Prop) (a : Action α) : Prop :=
  a.run.MadeOf B (FailsWithin fails)

theorem run_bind (a : Action α) (f : α → Action β) :
    (a >>= f).run = a.run.bind fun r =>
      match r with
      | .ok x => (f x).run
      | .error e => .done (.error e) := by
  change Program.bind _ _ = _
  congr 1
  funext r
  cases r <;> rfl

theorem run_lift_bind (p : Program α) (f : α → Action β) :
    (liftM p >>= f : Action β).run = p.bind fun x => (f x).run := by
  rw [run_bind]
  exact Program.bind_assoc p _ _

theorem run_attempt_bind (a : Action α) (f : Except Error α → Action β) :
    (a.attempt >>= f).run = a.run.bind fun r => (f r).run := run_lift_bind a.run f

theorem perform_bind (m : Machine) (call : Callee) (a : Action α) (f : α → Action β) (s : State) :
    m.perform call (a >>= f).run s = (m.perform call a.run s).bind fun x =>
      match x.1 with
      | .ok y => m.perform call (f y).run x.2
      | .error e => .done (.error e, x.2) := by
  rw [run_bind, Machine.perform_bind]
  congr 1
  funext x
  rcases x with ⟨_ | _, s⟩ <;> rfl

theorem perform_pure (m : Machine) (call : Callee) (x : α) (s : State) :
    m.perform call (pure x : Action α).run s = .done (.ok x, s) := rfl

theorem perform_throw (m : Machine) (call : Callee) (e : Error) (s : State) :
    m.perform call (throw e : Action α).run s = .done (.error e, s) := rfl

theorem records_bind {m : Machine} {call : Callee} {a : Action α} {f : α → Action β} {s : State}
    {P : List Step → Except Error β → State → Prop} :
    m.Records call (a >>= f).run s P ↔ m.Records call a.run s fun steps r s₁ =>
      match r with
      | .ok x => m.Records call (f x).run s₁ fun steps' r' s' => P (steps ++ steps') r' s'
      | .error e => P steps (.error e) s₁ := by
  rw [run_bind, Machine.records_bind]
  refine Machine.records_congr fun steps r s₁ => ?_
  cases r <;> simp

theorem records_guard {m : Machine} {call : Callee} {c : Prop} [Decidable c] {e : Error}
    {f : Unit → Action α} {s : State} {P : List Step → Except Error α → State → Prop}
    (he : c → P [] (.error e) s) (hf : ¬ c → m.Records call (f ()).run s P) :
    m.Records call (if c then throw e >>= f else f ()).run s P := by
  split
  · next hc => exact records_bind.mpr (Machine.records_done.mpr (he hc))
  · next hc => exact hf hc

theorem madeOf_pure (x : α) : MadeOf B fails (pure x) := .done trivial

theorem madeOf_throw {e : Error} (he : fails e) : MadeOf B fails (throw e : Action α) := .done he

theorem madeOf_bind {a : Action α} {f : α → Action β} (ha : MadeOf B fails a)
    (hf : ∀ x, MadeOf B fails (f x)) : MadeOf B fails (a >>= f) := by
  rw [MadeOf, run_bind]
  refine Program.madeOf_bind ha fun r hr => ?_
  cases r with
  | ok x => exact hf x
  | error e => exact .done hr

theorem madeOf_lift {p : Program α} {P : α → Prop} (hp : p.MadeOf B P) :
    MadeOf B fails (liftM p) := Program.madeOf_bind hp fun _ _ => .done trivial

theorem madeOf_lift_bind {p : Program α} {P : α → Prop} {f : α → Action β} (hp : p.MadeOf B P)
    (hf : ∀ x, P x → MadeOf B fails (f x)) : MadeOf B fails (liftM p >>= f) := by
  rw [MadeOf, run_lift_bind]
  exact Program.madeOf_bind hp hf

theorem madeOf_look_bind {f : HostState → Action α}
    (hlook : (Program.host.bind fun h => .done (f h).run).MadeOf B fun p => ∃ h, (f h).run = p)
    (h : ∀ host, MadeOf B fails (f host)) : MadeOf B fails (liftM Program.host >>= f) := by
  rw [MadeOf, run_lift_bind]
  exact Program.madeOf_look_bind hlook h

theorem madeOf_attempt_bind {a : Action α} {f : Except Error α → Action β} (ha : MadeOf B fails a)
    (hf : ∀ r, FailsWithin fails r → MadeOf B fails (f r)) : MadeOf B fails (a.attempt >>= f) :=
  madeOf_lift_bind ha hf

theorem madeOf_guard {c : Prop} [Decidable c] {e : Error} {f : Unit → Action α} (he : fails e)
    (hf : ∀ x, MadeOf B fails (f x)) : MadeOf B fails (if c then throw e >>= f else f ()) := by
  split
  · exact madeOf_bind (madeOf_throw he) hf
  · exact hf ()

theorem madeOf_ofExcept {r : Except Error α} (hr : FailsWithin fails r) :
    MadeOf B fails (ofExcept r) := .done hr

end Action

abbrev ActionKind := (α : Type) → Action α → Prop

/-- A property that actions have as soon as their parts have it. -/
structure ActionKind.Joins (G : ActionKind) (fails : Error → Prop) : Prop where
  value {α : Type} (x : α) : G α (pure x)
  raise {α : Type} {e : Error} : fails e → G α (throw e)
  bind {α β : Type} {a : Action α} {f : α → Action β} : G α a → (∀ x, G β (f x)) → G β (a >>= f)

abbrev BlockKind.actions (B : BlockKind) (fails : Error → Prop) : ActionKind :=
  fun _ => Action.MadeOf B fails

theorem BlockKind.joins (B : BlockKind) (fails : Error → Prop) : (B.actions fails).Joins fails where
  value := Action.madeOf_pure
  raise := Action.madeOf_throw
  bind := Action.madeOf_bind

end SandboxHost

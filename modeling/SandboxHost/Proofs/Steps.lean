import SandboxHost.Machine.Engine
import SandboxHost.Proofs.Trace

namespace SandboxHost

namespace Machine

variable {α β : Type}

def performOp (m : Machine) (call : Callee) : (op : Op) → State → Dialogue (op.Answer × State)
  | .setup, s => .done (m.setup, s)
  | .getHost, s => .done (s.host, s)
  | .setHost h, s => .done ((), { s with host := h })
  | .memory, s => .done (s.memory, s)
  | .table _, s => .done (s.table, s)
  | .write address bytes, s =>
    if address + bytes.length ≤ s.memory.size then
      .done (true, { s with memory := s.memory.writeAll address bytes })
    else .done (false, s)
  | .restore saved, s => .done ((), { s with memory := s.memory.restore saved })
  | .call _ f args, s => (call f args).run.run s
  | .ask r, s => .ask r fun answer => .done (answer, s)

theorem perform_step (m : Machine) (call : Callee) (op : Op) (next : op.Answer → Program α)
    (s : State) : m.perform call (.step op next) s =
      (m.performOp call op s).bind fun x => m.perform call (next x.1) x.2 := by
  cases op with
  | write address bytes =>
    simp only [perform, performOp]
    split <;> rfl
  | _ => rfl

theorem perform_bind (m : Machine) (call : Callee) (p : Program α) (f : α → Program β) (s : State) :
    m.perform call (p.bind f) s =
      (m.perform call p s).bind fun x => m.perform call (f x.1) x.2 := by
  induction p generalizing s with
  | done a => rfl
  | step op next ih =>
    simp only [Program.bind, perform_step, ih, Dialogue.bind_assoc]

theorem perform_ofOp (m : Machine) (call : Callee) (op : Op) (s : State) :
    m.perform call (Program.ofOp op) s = m.performOp call op s := by
  rw [Program.ofOp, perform_step]
  exact Dialogue.bind_done _

/-- What the host keeps is changed by setting it, and in calls. -/
theorem host_of_performOp {m : Machine} {call : Callee} {op : Op} {answer : op.Answer}
    {s s' : State} {t : Trace} (h : (m.performOp call op s).Ends t (answer, s'))
    (hset : ∀ host, op ≠ .setHost host) (hcall : ∀ purpose f args, op ≠ .call purpose f args) :
    s'.host = s.host := by
  cases op with
  | setHost host => exact absurd rfl (hset host)
  | call purpose f args => exact absurd rfl (hcall purpose f args)
  | ask r =>
    obtain ⟨_, _, hdone, -⟩ := Dialogue.ends_ask.mp h
    cases hdone
    rfl
  | write address bytes =>
    rw [performOp] at h
    split at h <;> cases h <;> rfl
  | _ =>
    cases h
    rfl

end Machine

/-- One step of a program's own, as it happened. -/
structure Step where
  op : Op
  answer : op.Answer
  before : State
  after : State
  trace : Trace

/-- The program gives a value after these steps of its own. -/
inductive Machine.Takes (m : Machine) (call : Callee) {α : Type} :
    Program α → State → List Step → α → State → Prop where
  | done (a : α) (s : State) : Takes m call (.done a) s [] a s
  | step {op : Op} {next : op.Answer → Program α} {s s₁ s' : State} {t : Trace} {answer : op.Answer}
    {steps : List Step} {a : α} :
    (m.performOp call op s).Ends t (answer, s₁) → Takes m call (next answer) s₁ steps a s' →
    Takes m call (.step op next) s (⟨op, answer, s, s₁, t⟩ :: steps) a s'

namespace Machine

variable {m : Machine} {call : Callee} {α β : Type}

@[simp] theorem takes_done {a b : α} {s s' : State} {steps : List Step} :
    m.Takes call (.done a) s steps b s' ↔ steps = [] ∧ b = a ∧ s' = s := by
  constructor
  · rintro ⟨⟩
    exact ⟨rfl, rfl, rfl⟩
  · rintro ⟨rfl, rfl, rfl⟩
    exact .done _ _

theorem takes_step {op : Op} {next : op.Answer → Program α} {s s' : State} {steps : List Step}
    {a : α} : m.Takes call (.step op next) s steps a s' ↔ ∃ t answer s₁ rest,
      (m.performOp call op s).Ends t (answer, s₁) ∧ m.Takes call (next answer) s₁ rest a s' ∧
        steps = ⟨op, answer, s, s₁, t⟩ :: rest := by
  constructor
  · rintro ⟨⟩
    exact ⟨_, _, _, _, ‹_›, ‹_›, rfl⟩
  · rintro ⟨t, answer, s₁, rest, h₁, h₂, rfl⟩
    exact .step h₁ h₂

theorem takes_bind {p : Program α} {f : α → Program β} {s s' : State} {steps : List Step} {b : β} :
    m.Takes call (p.bind f) s steps b s' ↔ ∃ steps₁ a s₁ steps₂,
      m.Takes call p s steps₁ a s₁ ∧ m.Takes call (f a) s₁ steps₂ b s' ∧
        steps = steps₁ ++ steps₂ := by
  induction p generalizing s steps with
  | done a =>
    constructor
    · exact fun h => ⟨[], a, s, steps, .done a s, h, rfl⟩
    · rintro ⟨_, _, _, steps₂, ⟨⟩, h, rfl⟩
      exact h
  | step op next ih =>
    simp only [Program.bind, takes_step, ih]
    constructor
    · rintro ⟨t, answer, s₁, _, h, ⟨rest, a, s₂, steps₂, h₁, h₂, rfl⟩, rfl⟩
      exact ⟨_, a, s₂, steps₂, ⟨t, answer, s₁, rest, h, h₁, rfl⟩, h₂, rfl⟩
    · rintro ⟨_, a, s₂, steps₂, ⟨t, answer, s₁, rest, h, h₁, rfl⟩, h₂, rfl⟩
      exact ⟨t, answer, s₁, _, h, ⟨rest, a, s₂, steps₂, h₁, h₂, rfl⟩, rfl⟩

/-- The steps are those of the program's execution, and their traces make up its trace. -/
theorem ends_perform {p : Program α} {s s' : State} {t : Trace} {a : α} :
    (m.perform call p s).Ends t (a, s') ↔
      ∃ steps, m.Takes call p s steps a s' ∧ t = steps.flatMap Step.trace := by
  induction p generalizing s t with
  | done b =>
    simp only [perform, Dialogue.ends_done, takes_done, Prod.mk.injEq]
    constructor
    · rintro ⟨rfl, rfl, rfl⟩
      exact ⟨[], ⟨rfl, rfl, rfl⟩, rfl⟩
    · rintro ⟨_, ⟨rfl, rfl, rfl⟩, rfl⟩
      exact ⟨rfl, rfl, rfl⟩
  | step op next ih =>
    rw [perform_step, Dialogue.ends_bind]
    simp only [takes_step, ih]
    constructor
    · rintro ⟨t₁, ⟨answer, s₁⟩, _, h, ⟨steps, h', rfl⟩, rfl⟩
      exact ⟨_, ⟨t₁, answer, s₁, steps, h, h', rfl⟩, rfl⟩
    · rintro ⟨_, ⟨t₁, answer, s₁, steps, h, h', rfl⟩, rfl⟩
      exact ⟨t₁, (answer, s₁), _, h, ⟨steps, h', rfl⟩, rfl⟩

end Machine

/-- However the program goes, its steps, its value and the state it leaves have the property. -/
def Machine.Records (m : Machine) (call : Callee) {α : Type} (p : Program α) (s : State)
    (P : List Step → α → State → Prop) : Prop :=
  ∀ steps a s', m.Takes call p s steps a s' → P steps a s'

namespace Machine

variable {m : Machine} {call : Callee} {α β : Type} {s : State}

theorem Records.mono {p : Program α} {P Q : List Step → α → State → Prop} (h : m.Records call p s P)
    (hPQ : ∀ steps a s', P steps a s' → Q steps a s') : m.Records call p s Q :=
  fun steps a s' ht => hPQ steps a s' (h steps a s' ht)

theorem records_congr {p : Program α} {P Q : List Step → α → State → Prop}
    (h : ∀ steps a s', P steps a s' ↔ Q steps a s') : m.Records call p s P ↔ m.Records call p s Q :=
  ⟨fun hp => hp.mono fun steps a s' => (h steps a s').mp,
    fun hp => hp.mono fun steps a s' => (h steps a s').mpr⟩

@[simp] theorem records_done {a : α} {P : List Step → α → State → Prop} :
    m.Records call (.done a) s P ↔ P [] a s := by
  constructor
  · exact fun h => h [] a s (.done a s)
  · intro h steps b s' ht
    obtain ⟨rfl, rfl, rfl⟩ := takes_done.mp ht
    exact h

theorem records_step {op : Op} {next : op.Answer → Program α} {P : List Step → α → State → Prop} :
    m.Records call (.step op next) s P ↔
      ∀ t answer s₁, (m.performOp call op s).Ends t (answer, s₁) →
        m.Records call (next answer) s₁ fun steps a s' =>
          P (⟨op, answer, s, s₁, t⟩ :: steps) a s' := by
  constructor
  · exact fun h t answer s₁ hop steps a s' hnext => h _ a s' (.step hop hnext)
  · intro h steps a s' ht
    obtain ⟨t, answer, s₁, rest, hop, hnext, rfl⟩ := takes_step.mp ht
    exact h t answer s₁ hop rest a s' hnext

theorem records_bind {p : Program α} {f : α → Program β} {P : List Step → β → State → Prop} :
    m.Records call (p.bind f) s P ↔ m.Records call p s fun steps a s₁ =>
      m.Records call (f a) s₁ fun steps' b s' => P (steps ++ steps') b s' := by
  constructor
  · exact fun h steps a s₁ hp steps' b s' hf => h _ b s' (takes_bind.mpr ⟨_, _, _, _, hp, hf, rfl⟩)
  · intro h steps b s' ht
    obtain ⟨steps₁, a, s₁, steps₂, hp, hf, rfl⟩ := takes_bind.mp ht
    exact h steps₁ a s₁ hp steps₂ b s' hf

theorem records_op {op : Op} {answer : op.Answer} {s₁ : State} {f : op.Answer → Program α}
    {P : List Step → α → State → Prop} (hop : m.performOp call op s = .done (answer, s₁))
    (h : m.Records call (f answer) s₁ fun steps a s' => P (⟨op, answer, s, s₁, []⟩ :: steps) a s') :
    m.Records call ((Program.ofOp op).bind f) s P := by
  refine records_step.mpr fun t answer' s₁' hends => ?_
  rw [hop] at hends
  cases hends
  exact h

theorem records_modifyHost {f : HostState → HostState} {P : List Step → Unit → State → Prop}
    (h : P [⟨.getHost, s.host, s, s, []⟩,
        ⟨.setHost (f s.host), (), s, { s with host := f s.host }, []⟩] ()
      { s with host := f s.host }) : m.Records call (Program.modifyHost f) s P := by
  refine records_op rfl ?_
  rw [Program.setHost, ← Program.bind_done (Program.ofOp _)]
  exact records_op rfl (records_done.mpr h)

end Machine

end SandboxHost

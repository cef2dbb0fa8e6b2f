import SandboxHost.Host.Native
import SandboxHost.Proofs.CallContract

namespace SandboxHost

/-- The program has taken these steps of its own, and this one is next. -/
inductive Machine.Nears (m : Machine) (call : Callee) {α : Type} :
    Program α → State → List Step → Op → State → Prop where
  | here (op : Op) (next : op.Answer → Program α) (s : State) :
    Nears m call (.step op next) s [] op s
  | later {op op' : Op} {next : op.Answer → Program α} {s s₁ s' : State} {t : Trace}
    {answer : op.Answer} {steps : List Step} :
    (m.performOp call op s).Ends t (answer, s₁) → Nears m call (next answer) s₁ steps op' s' →
    Nears m call (.step op next) s (⟨op, answer, s, s₁, t⟩ :: steps) op' s'

def Dialogue.talk {α : Type} (answers : (r : Request) → r.Answer) : Dialogue α → Option (Trace × α)
  | .done a => some ([], a)
  | .diverged => none
  | .ask r next => ((next (answers r)).talk answers).map fun x => (⟨r, answers r⟩ :: x.1, x.2)

theorem Dialogue.ends_of_talk {α : Type} {answers : (r : Request) → r.Answer} {d : Dialogue α}
    {x : Trace × α} (h : d.talk answers = some x) : d.Ends x.1 x.2 := by
  induction d generalizing x with
  | done a =>
    cases h
    exact .done a
  | diverged => cases h
  | ask r next ih =>
    obtain ⟨y, hy, rfl⟩ := Option.map_eq_some_iff.mp h
    exact .ask (ih (answers r) hy)

def Op.entered? (name : String) : Op → Option (Nat × List Value)
  | .call (.entry entered) f args => if entered = name then some (f, args) else none
  | _ => none

theorem Op.eq_of_entered? {name : String} {op : Op} {f : Nat} {args : List Value}
    (h : op.entered? name = some (f, args)) : op = .call (.entry name) f args := by
  unfold entered? at h
  split at h
  · split at h
    · next hname =>
      cases h
      rw [hname]
    · cases h
  · cases h

def Machine.approach (m : Machine) (call : Callee) (answers : (r : Request) → r.Answer)
    (name : String) {α : Type} : Program α → State → Option (List Step × (Nat × List Value) × State)
  | .done _, _ => none
  | .step op next, s =>
    match op.entered? name with
    | some entry => some ([], entry, s)
    | none => ((m.performOp call op s).talk answers).bind fun x =>
      (m.approach call answers name (next x.2.1) x.2.2).map fun y =>
        (⟨op, x.2.1, s, x.2.2, x.1⟩ :: y.1, y.2)

theorem Machine.nears_of_approach {m : Machine} {call : Callee}
    {answers : (r : Request) → r.Answer} {name : String} {α : Type} {p : Program α} {s s' : State}
    {steps : List Step} {f : Nat} {args : List Value}
    (h : m.approach call answers name p s = some (steps, (f, args), s')) :
    m.Nears call p s steps (.call (.entry name) f args) s' := by
  induction p generalizing s steps with
  | done a => cases h
  | step op next ih =>
    rw [approach] at h
    split at h
    · next hentry =>
      cases h
      rw [← Op.eq_of_entered? hentry]
      exact .here op next _
    · obtain ⟨⟨t, answer, s₁⟩, htalk, h⟩ := Option.bind_eq_some_iff.mp h
      obtain ⟨⟨rest, x⟩, hrest, heq⟩ := Option.map_eq_some_iff.mp h
      cases heq
      exact .later (Dialogue.ends_of_talk htalk) (ih answer hrest)

/-- All steps, with the value and the state in the end, where each request has one answer. -/
def Machine.traced (m : Machine) (call : Callee) (answers : (r : Request) → r.Answer) {α : Type} :
    Program α → State → Option (List Step × α × State)
  | .done a, s => some ([], a, s)
  | .step op next, s => ((m.performOp call op s).talk answers).bind fun x =>
    (m.traced call answers (next x.2.1) x.2.2).map fun y => (⟨op, x.2.1, s, x.2.2, x.1⟩ :: y.1, y.2)

theorem Machine.takes_of_traced {m : Machine} {call : Callee} {answers : (r : Request) → r.Answer}
    {α : Type} {p : Program α} {s s' : State} {steps : List Step} {a : α}
    (h : m.traced call answers p s = some (steps, a, s')) : m.Takes call p s steps a s' := by
  induction p generalizing s steps with
  | done b =>
    cases h
    exact .done _ _
  | step op next ih =>
    obtain ⟨⟨t, answer, s₁⟩, htalk, h⟩ := Option.bind_eq_some_iff.mp h
    obtain ⟨⟨rest, x⟩, hrest, heq⟩ := Option.map_eq_some_iff.mp h
    cases heq
    exact .step (Dialogue.ends_of_talk htalk) (ih answer hrest)

/-- Whatever step the program comes to has the property, with the steps before it and the state that
it finds. -/
def Machine.Meets (m : Machine) (call : Callee) {α : Type} (p : Program α) (s : State)
    (P : List Step → Op → State → Prop) : Prop :=
  ∀ steps op s', m.Nears call p s steps op s' → P steps op s'

namespace Machine

variable {m : Machine} {call : Callee} {α β : Type} {s : State} {P Q : List Step → Op → State → Prop}

theorem Meets.mono {p : Program α} (h : m.Meets call p s P)
    (hPQ : ∀ steps op s', P steps op s' → Q steps op s') : m.Meets call p s Q :=
  fun steps op s' hn => hPQ steps op s' (h steps op s' hn)

theorem Takes.nears {p : Program α} {s' : State} {before after : List Step} {x : Step} {a : α}
    (h : m.Takes call p s (before ++ x :: after) a s') : m.Nears call p s before x.op x.before := by
  induction before generalizing p s with
  | nil =>
    cases h with
    | step _ _ => exact .here _ _ _
  | cons y before ih =>
    cases h with
    | step hop hrest => exact .later hop (ih hrest)

/-- After these steps, every call that the program comes to ends. -/
def CallsEnd (m : Machine) (call : Callee) (p : Program α) (s : State) (steps : List Step) : Prop :=
  ∀ rest purpose f args s', m.Nears call p s (steps ++ rest) (.call purpose f args) s' →
    ∃ t results s'', ((call f args).run.run s').Ends t (results, s'')

/-- Nothing but a call can fail to end, as every request has an answer. -/
theorem exists_ends_performOp (op : Op) (s : State)
    (h : ∀ purpose f args, op = .call purpose f args →
      ∃ t results s', ((call f args).run.run s).Ends t (results, s')) :
    ∃ t answer s', (m.performOp call op s).Ends t (answer, s') := by
  cases op with
  | call purpose f args => exact h purpose f args rfl
  | ask r => exact ⟨_, r.unsupported, s, .ask (.done _)⟩
  | write address bytes =>
    rw [performOp]
    split <;> exact ⟨_, _, _, .done _⟩
  | _ => exact ⟨_, _, _, .done _⟩

/-- Programs have no loops of their own. -/
theorem CallsEnd.exists_takes {p : Program α} (h : m.CallsEnd call p s []) :
    ∃ steps a s', m.Takes call p s steps a s' := by
  induction p generalizing s with
  | done a => exact ⟨[], a, s, .done a s⟩
  | step op next ih =>
    obtain ⟨t, answer, s₁, hop⟩ := exists_ends_performOp op s fun purpose f args hcall => by
      subst hcall
      exact h [] purpose f args s (.here _ _ _)
    obtain ⟨steps, a, s', htakes⟩ := ih answer fun rest purpose f args s' hnears =>
      h (⟨op, answer, s, s₁, t⟩ :: rest) purpose f args s' (.later hop hnears)
    exact ⟨_, a, s', .step hop htakes⟩

/-- A program that has come so far takes all its steps if the calls still to come end. -/
theorem Nears.exists_takes {p : Program α} {before : List Step} {op : Op} {answer : op.Answer}
    {s₁ s₂ : State} {t : Trace} (h : m.Nears call p s before op s₁)
    (hop : (m.performOp call op s₁).Ends t (answer, s₂))
    (hcalls : m.CallsEnd call p s (before ++ [⟨op, answer, s₁, s₂, t⟩])) :
    ∃ after a s', m.Takes call p s (before ++ ⟨op, answer, s₁, s₂, t⟩ :: after) a s' := by
  induction h with
  | here op next s =>
    have hnext : m.CallsEnd call (next answer) s₂ [] := fun rest purpose f args s' hnears =>
      hcalls rest purpose f args s' (.later hop hnears)
    obtain ⟨after, a, s', htakes⟩ := hnext.exists_takes
    exact ⟨after, a, s', .step hop htakes⟩
  | later hfirst _ ih =>
    obtain ⟨after, a, s', htakes⟩ := ih hop fun rest purpose f args s' hnears =>
      hcalls rest purpose f args s' (.later hfirst hnears)
    exact ⟨after, a, s', .step hfirst htakes⟩

theorem Meets.records {p : Program α} (h : m.Meets call p s P) :
    m.Records call p s fun steps _ _ => ∀ before x after, steps = before ++ x :: after →
      P before x.op x.before := by
  rintro _ a s' htakes before x after rfl
  exact h before x.op x.before htakes.nears

theorem meets_done (a : α) : m.Meets call (.done a) s P := by
  rintro steps op s' ⟨⟩

theorem meets_step {op : Op} {next : op.Answer → Program α} :
    m.Meets call (.step op next) s P ↔ P [] op s ∧
      ∀ t answer s₁, (m.performOp call op s).Ends t (answer, s₁) →
        m.Meets call (next answer) s₁ fun steps op' s' =>
          P (⟨op, answer, s, s₁, t⟩ :: steps) op' s' := by
  constructor
  · exact fun h => ⟨h _ _ _ (.here op next s),
      fun t answer s₁ hop steps op' s' hn => h _ _ _ (.later hop hn)⟩
  · rintro ⟨hhere, hlater⟩ steps op' s' hn
    cases hn with
    | here => exact hhere
    | later hop hn => exact hlater _ _ _ hop _ _ _ hn

theorem meets_op {op : Op} {next : op.Answer → Program α} {answer : op.Answer} {s₁ : State}
    (hop : m.performOp call op s = .done (answer, s₁)) (hhere : P [] op s)
    (h : m.Meets call (next answer) s₁ fun steps op' s' =>
      P (⟨op, answer, s, s₁, []⟩ :: steps) op' s') : m.Meets call (.step op next) s P := by
  refine meets_step.mpr ⟨hhere, fun t answer' s₁' hends => ?_⟩
  rw [hop] at hends
  cases hends
  exact h

/-- The program comes to the steps of its first part, and from each end of it to those of the
second. -/
theorem meets_bind {p : Program α} {f : α → Program β} :
    m.Meets call (p.bind f) s P ↔ m.Meets call p s P ∧ m.Records call p s fun steps a s₁ =>
      m.Meets call (f a) s₁ fun steps' op s' => P (steps ++ steps') op s' := by
  induction p generalizing s P with
  | done a =>
    rw [records_done]
    exact ⟨fun h => ⟨meets_done a, h⟩, fun h => h.2⟩
  | step op next ih =>
    simp only [Program.bind, meets_step, records_step, ih, List.cons_append]
    constructor
    · rintro ⟨hhere, hlater⟩
      exact ⟨⟨hhere, fun t answer s₁ hop => (hlater t answer s₁ hop).1⟩,
        fun t answer s₁ hop => (hlater t answer s₁ hop).2⟩
    · rintro ⟨⟨hhere, hfirst⟩, hsecond⟩
      exact ⟨hhere, fun t answer s₁ hop => ⟨hfirst t answer s₁ hop, hsecond t answer s₁ hop⟩⟩

theorem meets_sorted {sort : Op → Prop} {R : α → Prop} {p : Program α}
    (hp : p.MadeOf (StepsOf sort fun _ => True) R) (s : State) :
    m.Meets call p s fun _ op _ => sort op := by
  induction hp generalizing s with
  | done _ => exact meets_done _
  | block hb _ ih =>
    obtain ⟨op, hop⟩ := hb
    refine meets_bind.mpr ⟨meets_step.mpr ⟨hop, fun _ answer _ _ => meets_done answer⟩, ?_⟩
    exact fun steps answer s₁ _ => ih answer (op.answers_true answer) s₁

theorem meets_sorted_steps {sort : Op → Prop} {R : α → Prop} {p : Program α}
    (hp : p.MadeOf (StepsOf sort fun _ => True) R) (s : State) :
    m.Meets call p s fun steps _ _ => ∀ x ∈ steps, sort x.op := by
  induction hp generalizing s with
  | done _ => exact meets_done _
  | block hb _ ih =>
    obtain ⟨op, hop⟩ := hb
    refine meets_bind.mpr ⟨meets_step.mpr ⟨List.forall_mem_nil _, fun _ answer _ _ => ?_⟩, ?_⟩
    · exact meets_done answer
    · refine records_step.mpr fun t answer s₁ _ => records_done.mpr ?_
      refine (ih answer (op.answers_true answer) s₁).mono fun steps op' s' hsteps => ?_
      exact List.forall_mem_append.mpr ⟨List.forall_mem_singleton.mpr hop, hsteps⟩

end Machine

namespace Action

variable {m : Machine} {call : Callee} {α β : Type} {s : State}

theorem meets_bind {a : Action α} {f : α → Action β} {P : List Step → Op → State → Prop} :
    m.Meets call (a >>= f).run s P ↔ m.Meets call a.run s P ∧
      m.Records call a.run s fun steps r s₁ => ∀ x, r = .ok x →
        m.Meets call (f x).run s₁ fun steps' op s' => P (steps ++ steps') op s' := by
  rw [run_bind, Machine.meets_bind]
  refine and_congr_right fun _ => Machine.records_congr fun steps r s₁ => ?_
  cases r with
  | ok x => simp
  | error e => exact ⟨nofun, fun _ => Machine.meets_done _⟩

end Action

theorem Op.IsNote.not_isEntry {op : Op} (h : op.IsNote) : ¬ op.IsEntry := by
  intro hentry
  cases op with
  | call _ _ _ => exact h
  | _ => exact hentry

def Op.EntersOnly (name : String) : Op → Prop
  | .call (.entry entered) _ _ => entered = name
  | _ => True

theorem Op.IsMarshal.entersOnly {op : Op} (h : op.IsMarshal) (name : String) :
    op.EntersOnly name := by
  unfold EntersOnly
  split
  · exact h.elim
  · trivial

namespace Guest

variable {m : Machine} {call : Callee}

theorem meets_enter {s : State} {P : List Step → Op → State → Prop}
    (hnote : ∀ steps op s', op.IsNote → P steps op s') {name : String} {f : Nat} {args : List Value}
    (hentry : P [⟨.getHost, s.host, s, s, []⟩, ⟨.setHost s.host.fresh, (), s, s.fresh, []⟩]
      (.call (.entry name) f args) s.fresh) : m.Meets call (invoke name f args).run s P := by
  rw [invoke, Action.run_lift_bind]
  refine Machine.meets_op rfl (hnote _ _ _ trivial) (Machine.meets_op rfl (hnote _ _ _ trivial) ?_)
  refine Action.meets_bind.mpr ⟨Action.meets_bind.mpr ⟨?_, ?_⟩, ?_⟩
  · exact Machine.meets_step.mpr ⟨hentry, fun _ _ _ _ => Machine.meets_done _⟩
  · exact fun _ _ _ _ _ _ => Machine.meets_done _
  · intro steps r s₁ _ raw _
    rw [Action.run_lift_bind]
    refine Machine.meets_step.mpr ⟨hnote _ _ _ trivial, fun t h s₂ _ => ?_⟩
    rw [Program.bind]
    split <;> exact Machine.meets_done _

section

variable {α β : Type} {s : State} {P : List Step → Op → State → Prop}
  (haside : ∀ steps op s', ¬ op.IsEntry → P steps op s')

include haside

theorem meets_aside {p : Program α} {R : α → Prop} (hp : p.MadeOf Aside R) : m.Meets call p s P :=
  (Machine.meets_sorted hp s).mono haside

theorem meets_invoke {name : String} {f : Nat} {args : List Value}
    (hentry : P [⟨.getHost, s.host, s, s, []⟩, ⟨.setHost s.host.fresh, (), s, s.fresh, []⟩]
      (.call (.entry name) f args) s.fresh) : m.Meets call (invoke name f args).run s P :=
  meets_enter (fun _ _ _ hop => haside _ _ _ hop.not_isEntry) hentry

theorem meets_rolledBack {body : Action α} (h : m.Meets call body.run s fun steps op s' =>
      P (⟨.memory, s.memory, s, s, []⟩ :: ⟨.getHost, s.host, s, s, []⟩ :: steps) op s') :
    m.Meets call (rolledBack body).run s P := by
  show m.Meets call (.step .memory fun saved => .step .getHost fun h => body.run.bind fun outcome =>
    .step (.restore saved) fun _ => .step .getHost fun h' =>
      .step (.setHost { h' with pointers := h.pointers }) fun _ => .done outcome) s P
  refine Machine.meets_step.mpr ⟨haside _ _ _ nofun, fun t saved s₁ hsaved => ?_⟩
  cases hsaved
  refine Machine.meets_step.mpr ⟨haside _ _ _ nofun, fun t host s₁ hlook => ?_⟩
  cases hlook
  refine Machine.meets_bind.mpr ⟨h, fun steps outcome s₁ _ => ?_⟩
  refine Machine.meets_step.mpr ⟨haside _ _ _ nofun, fun _ _ _ _ => ?_⟩
  refine Machine.meets_step.mpr ⟨haside _ _ _ nofun, fun _ _ _ _ => ?_⟩
  refine Machine.meets_step.mpr ⟨haside _ _ _ nofun, fun _ _ _ _ => Machine.meets_done _⟩

omit haside in
theorem meets_scope {body : Scope α} (hreturn : ∀ steps op s', op.IsReturn → P steps op s')
    (h : m.Meets call (body.run.run []) s P) : m.Meets call (inScope body).run s P := by
  refine Machine.meets_bind.mpr ⟨h, fun steps x s₁ _ => ?_⟩
  have hreturns : BlockKind.Allows (StepsOf Op.IsReturn fun _ => True) (fun _ => True)
      Op.IsReturn := StepsOf.allows id trivial
  have hmade := madeOf_returnAll hreturns coversHost_true x.2
  refine Machine.meets_bind.mpr ⟨(Machine.meets_sorted hmade s₁).mono fun _ _ _ => hreturn _ _ _, ?_⟩
  intro steps' failure s₂ _
  rcases x with ⟨_ | _, tracked⟩ <;> cases failure <;> exact Machine.meets_done _

theorem meets_inScope {body : Scope α} (h : m.Meets call (body.run.run []) s P) :
    m.Meets call (inScope body).run s P :=
  meets_scope (fun _ _ _ hop => haside _ _ _ hop.isRelease.isMarshal.not_isEntry) h

end

namespace Scope

variable {α β : Type} {s : State} {P : List Step → Op → State → Prop}

theorem meets_bind {body : Scope α} {f : α → Scope β} {tracked : List UInt32} :
    m.Meets call ((body >>= f).run.run tracked) s P ↔ m.Meets call (body.run.run tracked) s P ∧
      m.Records call (body.run.run tracked) s fun steps x s₁ => ∀ a, x.1 = .ok a →
        m.Meets call ((f a).run.run x.2) s₁ fun steps' op s' => P (steps ++ steps') op s' := by
  rw [run_bind, Machine.meets_bind]
  refine and_congr_right fun _ => Machine.records_congr fun steps x s₁ => ?_
  rcases x with ⟨e | a, tracked⟩
  · exact ⟨nofun, fun _ => Machine.meets_done _⟩
  · simp

theorem meets_lift {a : Action α} {tracked : List UInt32} (h : m.Meets call a.run s P) :
    m.Meets call ((liftM a : Scope α).run.run tracked) s P :=
  Machine.meets_bind.mpr ⟨h, fun _ _ _ _ => Machine.meets_done _⟩

end Scope

theorem Aside.passes : Passes Aside fun _ => True :=
  (Keeps.of_ops Aside.marshals (.op .getHost nofun) fun h => .op (.setHost h) nofun).passes
    coversHost_true

theorem marshals_entersOnly (name : String) :
    BlockKind.Allows (StepsOf (Op.EntersOnly name) fun _ => True) (fun _ => True) Op.IsMarshal :=
  StepsOf.allows (fun h => h.entersOnly name) trivial

theorem passes_entersOnly (name : String) :
    Passes (StepsOf (Op.EntersOnly name) fun _ => True) fun _ => True :=
  (Keeps.of_ops (marshals_entersOnly name) (.op .getHost trivial)
    fun h => .op (.setHost h) trivial).passes coversHost_true

theorem madeOf_entersOnly (name : String) (arg : StringArg) (extra : List Int64) :
    Action.MadeOf (StepsOf (Op.EntersOnly name) fun _ => True) (fun _ => True)
      (callWithString name arg extra) := by
  refine madeOf_passString (passes_entersOnly name) coversHost_true (fun f args => ?_) arg extra
  refine madeOf_enter coversHost_true ?_ (.op .getHost trivial) (.op (.call _ f args) rfl)
  exact Program.madeOf_bind (Program.madeOf_block (.op .getHost trivial)) fun _ _ =>
    Program.madeOf_block (.op (.setHost _) trivial)

end Guest

end SandboxHost

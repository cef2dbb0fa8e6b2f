import SandboxHost.Proofs.ConstantsFetch
import SandboxHost.Proofs.ErrorReports
import SandboxHost.Proofs.ImportPrecedence

namespace SandboxHost

/-- The instance is bound as it was before, with the same constants. -/
structure State.SameBinding (s s' : State) : Prop where
  bound : s'.host.bound = s.host.bound
  constants : s'.host.constants = s.host.constants

namespace State.SameBinding

variable {s s₁ s' : State}

theorem refl (s : State) : s.SameBinding s := ⟨rfl, rfl⟩

theorem trans (h : s.SameBinding s₁) (h' : s₁.SameBinding s') : s.SameBinding s' :=
  ⟨h'.bound.trans h.bound, h'.constants.trans h.constants⟩

theorem of_host (h : s'.host = s.host) : s.SameBinding s' := by
  constructor <;> rw [h]

theorem edit {setup : Setup} {f : HostState → HostState} (hf : HostState.Edit setup f) (s : State) :
    s.SameBinding { s with host := f s.host } := ⟨hf.bound s.host, hf.constants s.host⟩

theorem fresh (s : State) : s.SameBinding { s with host := s.host.fresh } := ⟨rfl, rfl⟩

end State.SameBinding

structure StaysBound (s : State) (steps : List Step) (s' : State) : Prop where
  last : s.SameBinding s'
  before : ∀ x ∈ steps, s.SameBinding x.before

namespace StaysBound

variable {s s₁ s' : State} {steps steps' : List Step}

theorem nil (s : State) : StaysBound s [] s := ⟨.refl s, List.forall_mem_nil _⟩

theorem trans (h : StaysBound s steps s₁) (h' : StaysBound s₁ steps' s') :
    StaysBound s (steps ++ steps') s' where
  last := h.last.trans h'.last
  before := List.forall_mem_append.mpr
    ⟨h.before, fun x hx => h.last.trans (h'.before x hx)⟩

theorem cons {x : Step} (hbefore : x.before = s) (hstep : s.SameBinding s₁)
    (h : StaysBound s₁ steps s') : StaysBound s (x :: steps) s' where
  last := hstep.trans h.last
  before := by
    refine List.forall_mem_cons.mpr ⟨?_, fun x hx => hstep.trans (h.before x hx)⟩
    rw [hbefore]
    exact .refl s

end StaysBound

def BindingKept (m : Machine) (call : Callee) : BlockKind := fun _ p R => ∀ s,
  m.Records call p s fun steps b s' => StaysBound s steps s' ∧ R b

def KeepsBinding (call : Callee) : Prop := ∀ f args s t r s',
  ((call f args).run.run s).Ends t (r, s') → s.SameBinding s'

theorem Machine.callFunction_keepsBinding (m : Machine) (depth hostDepth : Nat) (caller : Caller) :
    KeepsBinding (m.callFunction depth hostDepth caller) := by
  intro f args s t r s' h
  have hframe : m.Frame s s' := Machine.frame_of_call h
  exact ⟨hframe.bound, hframe.constants⟩

section

variable {m : Machine} {call : Callee}

theorem bindingKept_of_madeOf {B : BlockKind} {α : Type} {P : α → Prop} {p : Program α}
    (hB : ∀ β (q : Program β) R, B β q R → BindingKept m call β q R) (hp : p.MadeOf B P) :
    BindingKept m call α p P := fun _ _ _ _ h =>
  hp.takes (K := StaysBound) .nil (fun _ _ _ _ _ => StaysBound.trans)
    (fun β q R hb s steps b s' h => hB β q R hb s steps b s' h) h

theorem bindingKept_look {γ : Type} (g : HostState → γ) :
    BindingKept m call γ (Program.host.bind fun h => .done (g h)) fun a => ∃ h, g h = a :=
  fun s => Machine.records_op rfl
    (Machine.records_done.mpr ⟨.cons rfl (.refl s) (.nil s), s.host, rfl⟩)

theorem bindingKept_modifyHost {f : HostState → HostState}
    (hf : ∀ s : State, s.SameBinding { s with host := f s.host }) :
    BindingKept m call Unit (Program.modifyHost f) fun _ => True := by
  refine fun s => Machine.records_modifyHost ⟨?_, trivial⟩
  exact .cons rfl (.refl s) (.cons rfl (hf s) (.nil _))

theorem bindingKept_survey : BindingKept m call Setup Program.setup (· = m.setup) := by
  refine fun s => Machine.records_step.mpr fun t answer s₁ hends => ?_
  cases hends
  exact Machine.records_done.mpr ⟨.cons rfl (.refl s) (.nil s), rfl⟩

section

variable (hcall : KeepsBinding call)

include hcall

theorem bindingKept_op (op : Op) (h : ∀ host, op ≠ .setHost host) :
    BindingKept m call op.Answer (.ofOp op) (op.Answers fun _ => True) := by
  refine fun s => Machine.records_step.mpr fun t answer s₁ hends =>
    Machine.records_done.mpr ⟨.cons rfl ?_ (.nil s₁), op.answers_true answer⟩
  cases op with
  | call purpose f args => exact hcall f args s t answer s₁ hends
  | _ => exact .of_host (Machine.host_of_performOp hends h (by rintro _ _ _ ⟨⟩))

theorem bindingKept_allows : (BindingKept m call).Allows (fun _ => True) Op.IsPlain :=
  .of_ops (fun op hop => bindingKept_op hcall op fun _ heq => by rw [heq] at hop; exact hop) trivial

theorem bindingKept_report (e : Event) :
    (Program.report e).MadeOf (BindingKept m call) fun _ => True :=
  Program.madeOf_block (bindingKept_op hcall (.ask (.report e)) (by rintro _ ⟨⟩))

theorem hosts_bindingKept : Guest.Hosts (BindingKept m call) fun _ => True where
  marshals := (bindingKept_allows hcall).mono Op.IsMarshal.isPlain
  look _ := Program.madeOf_block (bindingKept_look _)
  setPointers f := Program.madeOf_block
    (bindingKept_modifyHost fun s => .edit (HostState.Edit.pointers f : HostState.Edit m.setup _) s)
  invoke name f args := Guest.madeOf_invoke ((bindingKept_allows hcall).mono Op.IsIdle.isPlain)
    coversHost_true (Program.madeOf_block (bindingKept_modifyHost .fresh)) name f args
  restore saved := Program.madeOf_block
    (bindingKept_op hcall (.restore saved) (by rintro _ ⟨⟩))

theorem bindingKept_guestRun (argv : List String) :
    Action.MadeOf (BindingKept m call) (fun _ => True) (Guest.run argv) :=
  (hosts_bindingKept hcall).run coversHost_true trivial (fun _ => bindingKept_report hcall _)
    (bindingKept_report hcall _) argv

theorem bindingKept_run (argv : List String) :
    BindingKept m call _ (Syscall.run argv).run (FailsWithin fun _ => True) := by
  have hget := bindingKept_op (m := m) hcall .getHost (by rintro _ ⟨⟩)
  refine bindingKept_of_madeOf (fun _ _ _ h => h)
    (Action.madeOf_bind (Syscall.madeOf_requireBound hget) fun _ => Program.madeOf_block fun s => ?_)
  rw [Action.run_lift_bind]
  refine Machine.records_op rfl ?_
  rw [Action.run_lift_bind]
  refine Machine.records_op rfl ?_
  rw [Action.run_attempt_bind, Machine.records_bind]
  refine (bindingKept_of_madeOf (fun _ _ _ h => h) (bindingKept_guestRun hcall argv) _).mono ?_
  rintro steps outcome s₁ ⟨hstays, -⟩
  rw [Action.run_lift_bind, Machine.records_bind]
  refine Machine.records_modifyHost (Machine.records_done.mpr ⟨?_, failsWithin_true outcome⟩)
  rw [List.append_nil]
  refine .cons rfl (.refl s) (.cons rfl (.fresh s) ?_)
  refine hstays.trans (.cons rfl (.refl s₁) (.cons rfl ?_ (.nil _)))
  exact ⟨rfl, rfl⟩

theorem Serving.bindingKept (β : Type) (p : Program β) (R : β → Prop)
    (h : Serving m.setup (fun _ => True) β p R) : BindingKept m call β p R := by
  cases h with
  | op op h => exact bindingKept_op hcall op fun _ heq => by rw [heq] at h; exact h
  | setup => exact bindingKept_survey
  | look _ => exact bindingKept_look _
  | edit _ hedit => exact bindingKept_modifyHost (.edit hedit)
  | signal signal =>
    refine bindingKept_of_madeOf (fun _ _ _ h => h) ?_
    refine Program.madeOf_bind (Program.madeOf_block (bindingKept_modifyHost fun s => ?_)) fun _ _ =>
      bindingKept_report hcall _
    cases signal <;> exact ⟨rfl, rfl⟩
  | run _ => exact bindingKept_run hcall _

/-- A function behind an import leaves the binding alone throughout. -/
theorem HostFunction.bindingKept (f : HostFunction) (args : List Value) :
    BindingKept m call _ (f.program args).run (FailsWithin fun _ => True) :=
  bindingKept_of_madeOf (Serving.bindingKept hcall)
    (HostFunction.madeOf_program coversHost_true (fun _ _ => trivial) args)

theorem Guest.Operation.bindingKept (op : Guest.Operation) :
    BindingKept m call _ op.action.run (FailsWithin fun _ => True) :=
  bindingKept_of_madeOf (fun _ _ _ h => h)
    (Guest.madeOf_operation ((hosts_bindingKept hcall).loads coversHost_true)
      (hosts_bindingKept hcall).marshals coversHost_true op
      fun argv _ => bindingKept_guestRun hcall argv)

end

end

namespace Machine

variable {m : Machine} {call : Callee}

theorem OwnStep.host {α : Type} {e : Exec α} {s s' : State} {t : Trace} {r : Except Error α}
    (h : m.OwnStep e) (hends : (e.run.run s).Ends t (r, s')) : s'.host = s.host := by
  cases h with
  | charge =>
    rw [Exec.run_charge] at hends
    split at hends <;> cases hends <;> rfl
  | grow delta =>
    rw [run_growMemory] at hends
    split at hends <;> cases hends <;> rfl
  | store address bytes =>
    rw [run_storeBytes] at hends
    split at hends <;> cases hends <;> rfl
  | changeTable change =>
    rw [run_changeTable] at hends
    split at hends <;> cases hends <;> rfl
  | growTable delta function =>
    rw [run_growTable] at hends
    split at hends <;> cases hends <;> rfl
  | close descriptor =>
    rw [run_closeDescriptor] at hends
    split at hends <;> cases hends <;> rfl
  | _ => cases hends; rfl

/-- All calls that guest code makes begin with the binding that it began with itself. -/
theorem Makes.sameBinding (hcall : KeepsBinding call) {α : Type} {e : Exec α} {s s' : State}
    {calls : List Called} {r : Except Error α} (h : m.Makes call e s calls r s') :
    s.SameBinding s' ∧ ∀ c ∈ calls, s.SameBinding c.before := by
  induction h with
  | own hown hends => exact ⟨.of_host (hown.host hends), List.forall_mem_nil _⟩
  | call hc =>
    exact ⟨hcall _ _ _ _ _ _ hc, List.forall_mem_singleton.mpr (.refl _)⟩
  | bind _ _ ih ih' =>
    refine ⟨ih.1.trans ih'.1, List.forall_mem_append.mpr ⟨ih.2, fun c hc => ?_⟩⟩
    exact ih.1.trans (ih'.2 c hc)
  | fail _ ih => exact ih

/-- States between the operations of an instance. -/
inductive Reaches (m : Machine) (s₀ : State) : State → Prop where
  | here : Reaches m s₀ s₀
  | operation (op : Guest.Operation) {s s' : State} {steps : List Step}
    {r : Except Error op.Result} : Reaches m s₀ s →
    m.Takes m.callFromOutside op.action.run s steps r s' → Reaches m s₀ s'

/-- A call that happens later on, with so many levels left for calls and for imports: an operation
makes it, or it is made in the course of another such call, by a host program behind an import or by
guest code. -/
inductive Later (m : Machine) (s₀ : State) : Nat → Nat → Called → Prop where
  | operation (op : Guest.Operation) {s s' : State} {steps : List Step}
    {r : Except Error op.Result} {c : Called} {purpose : Purpose} : m.Reaches s₀ s →
    m.Takes m.callFromOutside op.action.run s steps r s' → c.step purpose ∈ steps →
    Later m s₀ maxDepth maxHostDepth c
  | host {depth hostDepth : Nat} {c c' : Called} {f : HostFunction} {steps : List Step}
    {purpose : Purpose} {r : Except Error (Option Value)} :
    Later m s₀ (depth + 1) (hostDepth + 1) c →
    m.Serves (m.callFunction depth hostDepth .host) c f steps r → c'.step purpose ∈ steps →
    Later m s₀ depth hostDepth c'
  | guest {depth hostDepth : Nat} {c c' : Called} {func : Func} {calls : List Called} :
    Later m s₀ (depth + 1) hostDepth c → m.EntersGuest c.function c.args func →
    m.Makes (m.callFunction depth hostDepth .guest)
      (m.enter (m.callFunction depth hostDepth .guest) func c.args) c.before calls c.answer
      c.after →
    c' ∈ calls → Later m s₀ depth hostDepth c'

theorem Reaches.sameBinding {s₀ s : State} (h : m.Reaches s₀ s) : s₀.SameBinding s := by
  induction h with
  | here => exact .refl s₀
  | operation op _ htakes ih =>
    have hcall : KeepsBinding m.callFromOutside := m.callFunction_keepsBinding _ _ _
    exact ih.trans (op.bindingKept hcall _ _ _ _ htakes).1.last

/-- At every depth, a later call begins with the binding that was there at first. -/
theorem Later.sameBinding {s₀ : State} {depth hostDepth : Nat} {c : Called}
    (h : m.Later s₀ depth hostDepth c) : s₀.SameBinding c.before := by
  induction h with
  | operation op hreaches htakes hmem =>
    have hcall : KeepsBinding m.callFromOutside := m.callFunction_keepsBinding _ _ _
    exact hreaches.sameBinding.trans ((op.bindingKept hcall _ _ _ _ htakes).1.before _ hmem)
  | host _ hserves hmem ih =>
    exact ih.trans ((HostFunction.bindingKept (m.callFunction_keepsBinding _ _ _) _ _ _ _ _ _
      hserves.takes).1.before _ hmem)
  | guest _ _ hmakes hmem ih =>
    exact ih.trans ((hmakes.sameBinding (m.callFunction_keepsBinding _ _ _)).2 _ hmem)

/-- The call stays inside the guest: no call of an import is made in its course. -/
inductive StaysInside (m : Machine) : Nat → Nat → Called → Prop where
  | guest {depth hostDepth : Nat} {c : Called} {func : Func} {calls : List Called} :
    m.EntersGuest c.function c.args func →
    m.Makes (m.callFunction depth hostDepth .guest)
      (m.enter (m.callFunction depth hostDepth .guest) func c.args) c.before calls c.answer
      c.after →
    (∀ c' ∈ calls, m.StaysInside depth hostDepth c') → StaysInside m (depth + 1) hostDepth c
  /-- The call is refused before it enters anything. -/
  | refused {depth hostDepth : Nat} {c : Called} {t : Trap} : c.answer = .error (.trap t) →
    c.after = c.before → StaysInside m depth hostDepth c

/-- Without imports, nothing of what the host keeps is changed. -/
theorem StaysInside.host {depth hostDepth : Nat} {c : Called} (h : m.StaysInside depth hostDepth c) :
    c.after.host = c.before.host := by
  induction h with
  | refused _ hafter => rw [hafter]
  | guest _ hmakes _ ih =>
    have hall {α : Type} {call : Callee} {e : Exec α} {s s' : State} {calls : List Called}
        {r : Except Error α} (hmakes : m.Makes call e s calls r s')
        (ih : ∀ c ∈ calls, c.after.host = c.before.host) : s'.host = s.host := by
      induction hmakes with
      | own hown hends => exact hown.host hends
      | call _ => exact ih _ (List.mem_singleton_self _)
      | bind _ _ hfirst hsecond =>
        obtain ⟨ih, ih'⟩ := List.forall_mem_append.mp ih
        exact (hsecond ih').trans (hfirst ih)
      | fail _ hfirst => exact hfirst ih
    exact hall hmakes ih

end Machine

end SandboxHost

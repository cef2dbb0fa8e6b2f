import SandboxHost.Proofs.Interruption

namespace SandboxHost

namespace Dialogue

variable {α β γ δ : Type}

/-- Two dialogues that ask the same and go on so after every answer, until both end, with related
values, or neither ever does. -/
inductive InStep (R : α → β → Prop) : Dialogue α → Dialogue β → Prop where
  | done {a : α} {b : β} : R a b → InStep R (.done a) (.done b)
  | diverged : InStep R .diverged .diverged
  | ask {r : Request} {next : r.Answer → Dialogue α} {next' : r.Answer → Dialogue β} :
    (∀ answer, InStep R (next answer) (next' answer)) → InStep R (.ask r next) (.ask r next')

namespace InStep

variable {R : α → β → Prop} {d : Dialogue α} {d' : Dialogue β}

theorem mono {S : α → β → Prop} (h : d.InStep R d') (hRS : ∀ a b, R a b → S a b) :
    d.InStep S d' := by
  induction h with
  | done hR => exact .done (hRS _ _ hR)
  | diverged => exact .diverged
  | ask _ ih => exact .ask ih

theorem bind {S : γ → δ → Prop} {f : α → Dialogue γ} {g : β → Dialogue δ} (h : d.InStep R d')
    (hfg : ∀ a b, R a b → (f a).InStep S (g b)) : (d.bind f).InStep S (d'.bind g) := by
  induction h with
  | done hR => exact hfg _ _ hR
  | diverged => exact .diverged
  | ask _ ih => exact .ask ih

theorem ends {t : Trace} {a : α} (h : d.InStep R d') (hd : d.Ends t a) :
    ∃ b, d'.Ends t b ∧ R a b := by
  induction hd generalizing d' with
  | done a =>
    cases h with
    | done hR => exact ⟨_, .done _, hR⟩
  | ask _ ih =>
    cases h with
    | ask hnext =>
      obtain ⟨b, hb, hR⟩ := ih (hnext _)
      exact ⟨b, .ask hb, hR⟩

end InStep

end Dialogue

theorem State.Alike.fresh {told : Bool} {s s' : State} (h : s.Alike told s') :
    s.fresh.Alike true s'.fresh :=
  { h with host := ⟨h.host.pointers, h.host.bound, h.host.constants, h.host.kept, fun _ => rfl,
      fun _ => rfl⟩ }

theorem State.Alike.resumed {told told' : Bool} {s s' s₁ s₁' : State} (h : s₁.Alike told' s₁')
    (hbefore : s.Alike told s') : (s₁.resumed s).Alike told (s₁'.resumed s') :=
  { h with host := ⟨h.host.pointers, h.host.bound, h.host.constants, h.host.kept,
      hbefore.host.result, hbefore.host.exception⟩ }

namespace Machine

variable {m : Machine} {α β : Type}

namespace Frame

variable {s s₁ s' : State}

theorem of_host (htable : s'.table = s.table) (hglobals : s'.globals = s.globals)
    (hdescriptors : s'.descriptors = s.descriptors) (hfuel : s'.fuel = s.fuel)
    (hbound : s'.host.bound = s.host.bound) (hconstants : s'.host.constants = s.host.constants)
    (hkept : m.setup.blocking = false → s'.host.kept = s.host.kept) : m.Frame s s' :=
  ⟨fun _ => htable, fun _ => hglobals, fun _ => hdescriptors, fun h => hfuel.trans h, hbound,
    hconstants, hkept⟩

theorem refl (s : State) : m.Frame s s := of_host rfl rfl rfl rfl rfl rfl fun _ => rfl

theorem trans (h : m.Frame s s₁) (h' : m.Frame s₁ s') : m.Frame s s' where
  table hset := (h'.table hset).trans (h.table hset)
  descriptors hclose := (h'.descriptors hclose).trans (h.descriptors hclose)
  globals hset := (h'.globals hset).trans (h.globals hset)
  fuel hnone := h'.fuel (h.fuel hnone)
  bound := h'.bound.trans h.bound
  constants := h'.constants.trans h.constants
  kept hblocking := (h'.kept hblocking).trans (h.kept hblocking)

theorem setMemory (s : State) (memory : Memory) : m.Frame s { s with memory } :=
  of_host rfl rfl rfl rfl rfl rfl fun _ => rfl

theorem fresh (s : State) : m.Frame s s.fresh := of_host rfl rfl rfl rfl rfl rfl fun _ => rfl

theorem resumed (s before : State) : m.Frame s (s.resumed before) :=
  of_host rfl rfl rfl rfl rfl rfl fun _ => rfl

theorem edit {f : HostState → HostState} (hf : HostState.Edit m.setup f) (s : State) :
    m.Frame s { s with host := f s.host } :=
  of_host rfl rfl rfl rfl (hf.bound s.host) (hf.constants s.host) (hf.kept s.host)

end Frame

/-- The same value from both executions, in states that are alike again. -/
structure Twin (m : Machine) (told : Bool) (s : State) (x y : α × State) : Prop where
  value : x.1 = y.1
  alike : x.2.Alike told y.2
  frame : m.Frame s x.2

theorem Twin.after {told : Bool} {s s₁ : State} {x y : α × State} (h : m.Twin told s₁ x y)
    (hs : m.Frame s s₁) : m.Twin told s x y := ⟨h.value, h.alike, hs.trans h.frame⟩

/-- From states that are alike, an execution keeps step with itself. -/
def Pairs (m : Machine) (e : Exec α) : Prop :=
  ∀ told s s', s.Alike told s' → (e.run.run s).InStep (m.Twin told s) (e.run.run s')

theorem pairs_bind {e : Exec α} {f : α → Exec β} (he : m.Pairs e) (hf : ∀ a, m.Pairs (f a)) :
    m.Pairs (e >>= f) := by
  intro told s s' h
  rw [Exec.run_bind, Exec.run_bind]
  refine (he told s s' h).bind ?_
  rintro ⟨r, s₁⟩ ⟨_, s₁'⟩ ⟨rfl, halike, hframe⟩
  cases r with
  | error e => exact .done ⟨rfl, halike, hframe⟩
  | ok a => exact (hf a told s₁ s₁' halike).mono fun _ _ hxy => hxy.after hframe

/-- What guest code reads is the same in both states, and so is what it writes. -/
theorem composes_pairs (m : Machine) : m.Composes fun _ => m.Pairs where
  pure a told s s' h := .done ⟨rfl, h, .refl s⟩
  bind := pairs_bind
  trap t told s s' h := .done ⟨rfl, h, .refl s⟩
  diverge told s s' h := .diverged
  charge told s s' h := by
    rw [Exec.run_charge, Exec.run_charge, h.fuel]
    match hfuel : s.fuel with
    | none => exact .done ⟨rfl, h, .refl s⟩
    | some 0 => exact .done ⟨rfl, h, .refl s⟩
    | some (n + 1) =>
      refine .done ⟨rfl, { h with fuel := rfl }, ?_⟩
      exact { Frame.refl s with fuel := fun hnone => by simp [hfuel] at hnone }
  look {_ f} hf told s s' h := by
    change ((f s.memory s.table s.globals).run.run s).InStep _
      ((f s'.memory s'.table s'.globals).run.run s')
    rw [h.memory, h.table, h.globals]
    exact hf s.memory s.table s.globals told s s' h
  grow delta told s s' h := by
    rw [run_growMemory, run_growMemory, h.memory]
    split
    · exact .done ⟨rfl, { h with memory := rfl }, .setMemory s _⟩
    · exact .done ⟨rfl, h, .refl s⟩
  store address bytes told s s' h := by
    rw [run_storeBytes, run_storeBytes, h.memory]
    split
    · exact .done ⟨rfl, { h with memory := rfl }, .setMemory s _⟩
    · exact .done ⟨rfl, h, .refl s⟩
  setGlobal i w hset told s s' h := by
    refine .done ⟨rfl, { h with globals := ?_ }, ?_⟩
    · dsimp only
      rw [h.globals]
    · exact { Frame.refl s with globals := fun hnot => by simp [hset] at hnot }
  changeTable change hset told s s' h := by
    rw [run_changeTable, run_changeTable, h.table]
    split
    · refine .done ⟨rfl, { h with table := rfl }, ?_⟩
      exact { Frame.refl s with table := fun hnot => by simp [hset] at hnot }
    · exact .done ⟨rfl, h, .refl s⟩
  growTable delta function hset told s s' h := by
    rw [run_growTable, run_growTable, h.table]
    split
    · refine .done ⟨rfl, { h with table := rfl }, ?_⟩
      exact { Frame.refl s with table := fun hnot => by simp [hset] at hnot }
    · exact .done ⟨rfl, h, .refl s⟩
  close descriptor hclose told s s' h := by
    rw [run_closeDescriptor, run_closeDescriptor, h.descriptors]
    split
    · refine .done ⟨rfl, { h with descriptors := rfl }, ?_⟩
      exact { Frame.refl s with descriptors := fun hnot => by simp [hclose] at hnot }
    · exact .done ⟨rfl, h, .refl s⟩

/-- From states that are alike, a host program keeps step with itself, and its value has the
property. -/
def PairsProgram (m : Machine) (call : Callee) (p : Program α) (P : α → Prop) : Prop :=
  ∀ told s s', s.Alike told s' →
    (m.perform call p s).InStep (fun x y => m.Twin told s x y ∧ P x.1) (m.perform call p s')

section

variable {call : Callee}

theorem pairsProgram_done {a : α} {P : α → Prop} (ha : P a) :
    m.PairsProgram call (.done a) P := fun _ s _ h => .done ⟨⟨rfl, h, .refl s⟩, ha⟩

theorem pairsProgram_bind {p : Program α} {f : α → Program β} {P : α → Prop} {Q : β → Prop}
    (hp : m.PairsProgram call p P) (hf : ∀ a, P a → m.PairsProgram call (f a) Q) :
    m.PairsProgram call (p.bind f) Q := by
  intro told s s' h
  rw [perform_bind, perform_bind]
  refine (hp told s s' h).bind ?_
  rintro ⟨a, s₁⟩ ⟨_, s₁'⟩ ⟨⟨rfl, halike, hframe⟩, ha⟩
  exact (hf a ha told s₁ s₁' halike).mono fun _ _ hxy => ⟨hxy.1.after hframe, hxy.2⟩

theorem pairsProgram_of_madeOf {B : BlockKind} {P : α → Prop} {p : Program α}
    (hB : ∀ β (q : Program β) R, B β q R → m.PairsProgram call q R) (hp : p.MadeOf B P) :
    m.PairsProgram call p P := by
  induction hp with
  | done ha => exact pairsProgram_done ha
  | block hb _ ih => exact pairsProgram_bind (hB _ _ _ hb) ih

end

end Machine

/-- Steps that neither look at what the host keeps nor change it. -/
def Op.IsBlind : Op → Prop
  | .getHost | .setHost _ => False
  | _ => True

theorem Op.IsMarshal.isBlind {op : Op} (h : op.IsMarshal) : op.IsBlind := by
  cases op with
  | getHost | setHost => exact h.elim
  | _ => trivial

namespace Machine

variable {m : Machine} {call : Callee}

theorem pairs_op (hcall : CalleeHas (fun _ => m.Pairs) call) (op : Op) (h : op.IsBlind) :
    m.PairsProgram call (.ofOp op) (op.Answers fun _ => True) := by
  intro told s s' hs
  rw [perform_ofOp, perform_ofOp]
  suffices hstep : (m.performOp call op s).InStep (m.Twin told s) (m.performOp call op s') from
    hstep.mono fun x _ hxy => ⟨hxy, op.answers_true x.1⟩
  cases op with
  | getHost | setHost => exact h.elim
  | setup => exact .done ⟨rfl, hs, .refl s⟩
  | memory => exact .done ⟨hs.memory.symm, hs, .refl s⟩
  | table symbol => exact .done ⟨hs.table.symm, hs, .refl s⟩
  | write address bytes =>
    rw [performOp, performOp, hs.memory]
    split
    · exact .done ⟨rfl, { hs with memory := rfl }, .setMemory s _⟩
    · exact .done ⟨rfl, hs, .refl s⟩
  | restore saved =>
    refine .done ⟨rfl, { hs with memory := ?_ }, .setMemory s _⟩
    dsimp only
    rw [hs.memory]
  | call purpose f args => exact hcall f args told s s' hs
  | ask r => exact .ask fun answer => .done ⟨rfl, hs, .refl s⟩

theorem pairs_setup : m.PairsProgram call Program.setup (· = m.setup) :=
  fun _ s _ h => .done ⟨⟨rfl, h, .refl s⟩, rfl⟩

theorem pairs_look {γ : Type} {g : HostState → γ} (hg : HostState.Blind g) :
    m.PairsProgram call (Program.host.bind fun h => .done (g h)) fun a => ∃ h, g h = a :=
  fun _ s s' h => .done ⟨⟨hg s.host s'.host h.host.forget, h, .refl s⟩, s.host, rfl⟩

theorem pairs_edit {f : HostState → HostState} (hf : HostState.Edit m.setup f) :
    m.PairsProgram call (Program.modifyHost f) fun _ => True := by
  intro told s s' h
  exact .done ⟨⟨rfl, { h with host := hf.alike h.host }, .edit hf s⟩, trivial⟩

theorem pairs_signal (hcall : CalleeHas (fun _ => m.Pairs) call) (signal : Signal) :
    m.PairsProgram call (Callback.setSignal signal) fun _ => True := by
  refine pairsProgram_bind (pairs_edit ?_) fun _ _ =>
    pairs_op hcall (.ask (.report (.signal signal))) trivial
  cases signal with
  | exception =>
    exact ⟨fun h => ⟨h.pointers, h.bound, h.constants, h.kept, h.result, fun _ => rfl⟩,
      fun _ => rfl, fun _ => rfl, fun _ _ => rfl⟩
  | result value =>
    exact ⟨fun h => ⟨h.pointers, h.bound, h.constants, h.kept, fun _ => rfl, h.exception⟩,
      fun _ => rfl, fun _ => rfl, fun _ _ => rfl⟩

end Machine

end SandboxHost

import SandboxHost.Proofs.Instances

namespace SandboxHost

namespace Dialogue

variable {α β γ δ : Type}

/-- The second dialogue asks what the first one asks, but nothing of the owner of a worker, and both
come to related ends; where the first one waits, nothing is said of the second any more. -/
inductive Mirrors (R : α → β → Prop) : Dialogue α → Dialogue β → Prop where
  | done {a : α} {b : β} : R a b → Mirrors R (.done a) (.done b)
  | diverged : Mirrors R .diverged .diverged
  | ask {r : Request} {next : r.Answer → Dialogue α} {next' : r.Answer → Dialogue β} :
    r.isForOwner = false → (∀ answer, Mirrors R (next answer) (next' answer)) →
      Mirrors R (.ask r next) (.ask r next')
  | waits {r : Request} {next : r.Answer → Dialogue α} {d' : Dialogue β} :
    r.waits = true → Mirrors R (.ask r next) d'

namespace Mirrors

variable {R : α → β → Prop} {d : Dialogue α} {d' : Dialogue β}

theorem bind {S : γ → δ → Prop} {f : α → Dialogue γ} {g : β → Dialogue δ} (h : d.Mirrors R d')
    (hfg : ∀ a b, R a b → (f a).Mirrors S (g b)) : (d.bind f).Mirrors S (d'.bind g) := by
  induction h with
  | done hR => exact hfg _ _ hR
  | diverged => exact .diverged
  | ask hr _ ih => exact .ask hr ih
  | waits hr => exact .waits hr

theorem mono {S : α → β → Prop} (h : d.Mirrors R d') (hRS : ∀ a b, R a b → S a b) :
    d.Mirrors S d' := by
  induction h with
  | done hR => exact .done (hRS _ _ hR)
  | diverged => exact .diverged
  | ask hr _ ih => exact .ask hr ih
  | waits hr => exact .waits hr

end Mirrors

end Dialogue

/-- From every state, the second execution mirrors the first. -/
def Exec.Mirrors {α : Type} (e e' : Exec α) : Prop :=
  ∀ s, (e.run.run s).Mirrors Eq (e'.run.run s)

namespace Machine

variable {m : Machine} {call call' : Callee} {α β : Type}

theorem mirrors_bind {e e' : Exec α} {f f' : α → Exec β} (he : e.Mirrors e')
    (hf : ∀ a, (f a).Mirrors (f' a)) : (e >>= f).Mirrors (e' >>= f') := by
  intro s
  rw [Exec.run_bind, Exec.run_bind]
  refine (he s).bind ?_
  rintro ⟨r, s₁⟩ _ rfl
  cases r with
  | error e => exact .done rfl
  | ok a => exact hf a s₁

theorem couples_mirrors (m : Machine) : m.Couples fun _ => Exec.Mirrors where
  pure _ _ := .done rfl
  bind := mirrors_bind
  trap _ _ := .done rfl
  diverge _ := .diverged
  charge s := by
    rw [Exec.run_charge]
    split <;> exact .done rfl
  look hf s := hf s.memory s.table s.globals s
  grow delta s := by
    rw [run_growMemory]
    split <;> exact .done rfl
  store address bytes s := by
    rw [run_storeBytes]
    split <;> exact .done rfl
  setGlobal _ _ _ _ := .done rfl
  changeTable change _ s := by
    rw [run_changeTable]
    split <;> exact .done rfl
  growTable delta function _ s := by
    rw [run_growTable]
    split <;> exact .done rfl
  close descriptor _ s := by
    rw [run_closeDescriptor]
    split <;> exact .done rfl

def Mirrored (m : Machine) (call call' : Callee) : BlockKind := fun _ p R =>
  ∀ s, (m.perform call p s).Mirrors (fun x y => x = y ∧ R x.1) ((m.placed true).perform call' p s)

theorem mirrored_of_madeOf {P : α → Prop} {p : Program α}
    (hp : p.MadeOf (m.Mirrored call call') P) : m.Mirrored call call' α p P := by
  induction hp with
  | done ha => exact fun _ => .done ⟨rfl, ha⟩
  | block hb _ ih =>
    intro s
    rw [perform_bind, perform_bind]
    refine (hb s).bind ?_
    rintro ⟨b, s₁⟩ _ ⟨rfl, hR⟩
    exact ih b hR s₁

section

variable (hcall : CalleesMatch (fun _ => Exec.Mirrors) call call')

include hcall

theorem mirrored_op (op : Op) (h : op.IsPortable) :
    m.Mirrored call call' _ (.ofOp op) (op.Answers fun _ => True) := by
  intro s
  rw [perform_ofOp, perform_ofOp]
  suffices hstep : (m.performOp call op s).Mirrors Eq ((m.placed true).performOp call' op s) from
    hstep.mono fun x _ hxy => ⟨hxy, op.answers_true x.1⟩
  cases op with
  | setup => exact h.elim
  | write address bytes =>
    rw [performOp, performOp]
    split <;> exact .done rfl
  | call purpose f args => exact hcall f args s
  | ask r =>
    have hr : r.isForOwner = false := by
      cases r with
      | pause _ | awaitInput => exact h.elim
      | _ => rfl
    exact .ask hr fun _ => .done rfl
  | _ => exact .done rfl

theorem allows_mirrored : (m.Mirrored call call').Allows (fun _ => True) fun _ => True where
  op op _ hportable := mirrored_op hcall op hportable
  survey hg :=
    Program.madeOf_block fun _ => .done ⟨congrArg (·, _) (hg m.setup true).symm, m.setup, rfl⟩

omit hcall in
theorem mirrored_pause (hm : m.setup.blocking = false) (microseconds : Nat) :
    Action.MadeOf (m.Mirrored call call') (fun _ => True) (Handler.pause microseconds) := by
  refine Program.madeOf_block fun s => ?_
  rw [Handler.pause, Action.run_lift_bind]
  change Dialogue.Mirrors _ (m.perform call (ExceptT.run (if m.setup.blocking then _ else _)) s) _
  rw [if_neg (by simp [hm]), Action.run_lift_bind]
  exact .waits rfl

omit hcall in
theorem mirrored_readInput (hm : m.setup.blocking = false) (buffer : UInt32) (room : Nat) :
    Action.MadeOf (m.Mirrored call call') (fun _ => True) (Handler.readInput buffer room) := by
  refine Program.madeOf_block fun s => ?_
  rw [Handler.readInput, Action.run_lift_bind]
  change Dialogue.Mirrors _ (m.perform call (ExceptT.run (if m.setup.blocking then _ else _)) s) _
  rw [if_neg (by simp [hm]), Action.run_lift_bind]
  exact .waits rfl

theorem attends_mirrored (hm : m.setup.blocking = false) :
    Attends (m.Mirrored call call') fun _ => True :=
  .of_ops coversHost_true trivial (allows_mirrored hcall) (mirrored_pause hm)
    (mirrored_readInput hm)

end

structure IsPlain (m : Machine) : Prop where
  blocking : m.setup.blocking = false
  own : m.IsOwn

/-- Every call of an instance is mirrored by the same call of the same instance on a worker. -/
theorem callFunction_mirrors (hm : m.IsPlain) (depth hostDepth : Nat) (caller : Caller) :
    CalleesMatch (fun _ => Exec.Mirrors) (m.callFunction depth hostDepth caller)
      ((m.placed true).callFunction depth hostDepth caller) := by
  refine (couples_mirrors m).callFunction (fun i f hf call call' hcall args => ?_) depth hostDepth
    caller
  have hmade := HostFunction.madeOf_own coversHost_true (attends_mirrored hcall hm.blocking)
    (hm.own i f hf) args
  exact fun s => (mirrored_of_madeOf hmade s).mono fun _ _ hxy => hxy.1

theorem callFromOutside_mirrors (hm : m.IsPlain) :
    CalleesMatch (fun _ => Exec.Mirrors) m.callFromOutside (m.placed true).callFromOutside :=
  m.callFunction_mirrors hm maxDepth maxHostDepth .host

end Machine

namespace Instantiation

theorem prepare_placed (c : Config) (e : Embedding) (m : Module) (blocking : Bool) :
    prepare c { e with blocking } m =
      (prepare c e m).map fun x => (x.1.placed blocking, x.2) := by
  unfold prepare
  cases (c.grants.readDirs ++ c.grants.writeDirs).find? (!e.directoryExists ·) with
  | some path => rfl
  | none =>
    dsimp only
    cases memory? e.imports.complete c.maxMemory.toNat m with
    | error fault => rfl
    | ok memory =>
      cases m.imports.mapM (target? e.imports.complete m) with
      | none => rfl
      | some targets =>
        change (if _ then _ else _) = Except.map _ (if _ then _ else _)
        split
        · rfl
        · cases placeData memory m.data <;> rfl

theorem isPlain_of_prepare {c : Config} {e : Embedding} {m : Module} {machine : Machine}
    {state : State} (h : prepare c e m = .ok (machine, state)) (hplain : e.blocking = false)
    (hown : e.imports.IsOwn) : machine.IsPlain := by
  obtain ⟨targets, -, heq, -⟩ := exists_targets_of_prepare h
  exact ⟨heq ▸ hplain, isOwn_of_prepare h hown⟩

end Instantiation

def Instance.placed (i : Instance) (blocking : Bool) : Instance :=
  { i with machine := i.machine.placed blocking }

namespace Machine

/-- An action is mirrored by the same action on a worker, where the calls of guest functions are. -/
def ActsAlike (m : Machine) {α : Type} (a : Action α) : Prop :=
  ∀ call call', CalleesMatch (fun _ => Exec.Mirrors) call call' →
    Action.MadeOf (m.Mirrored call call') (fun _ => True) a

theorem actsAlike_bind (m : Machine) : m.ActsAlike Guest.bind := by
  intro call call' hcall
  have hB := allows_mirrored (m := m) hcall
  refine Guest.madeOf_bind ⟨hB.mono fun _ => trivial, ?_, fun _ =>
    hB.modifyHost trivial (fun _ => trivial) _⟩
  refine Program.madeOf_bind (hB.step .getHost trivial trivial) fun h _ => ?_
  exact Program.madeOf_bind (hB.step (.setHost _) trivial trivial) fun _ _ => .done trivial

theorem loads_mirrored {m : Machine} {call call' : Callee}
    (hcall : CalleesMatch (fun _ => Exec.Mirrors) call call') :
    Guest.Loads (m.Mirrored call call') fun _ => True :=
  (Guest.Hosts.of_ops ((allows_mirrored hcall).mono fun _ => trivial) coversHost_true).loads
    coversHost_true

theorem actsAlike_call (m : Machine) (name : String) (args : List Int64) :
    m.ActsAlike (Guest.call name args) :=
  fun _ _ hcall => Guest.madeOf_call (loads_mirrored hcall) coversHost_true name args

theorem actsAlike_callWithString (m : Machine) (name : String) (arg : Guest.StringArg)
    (extra : List Int64) : m.ActsAlike (Guest.callWithString name arg extra) :=
  fun _ _ hcall => Guest.madeOf_callWithString (loads_mirrored hcall) coversHost_true name arg extra

end Machine

theorem Instance.act_mirrors {α : Type} {i : Instance} (hi : i.machine.IsPlain) {a : Action α}
    (ha : i.machine.ActsAlike a) :
    (i.act a).Mirrors (fun x y => y = (x.1, x.2.placed true) ∧ x.2.machine.IsPlain)
      ((i.placed true).act a) := by
  have hmade := ha _ _ (i.machine.callFromOutside_mirrors hi)
  refine (Machine.mirrored_of_madeOf hmade i.state).bind ?_
  rintro ⟨r, s⟩ _ ⟨rfl, -⟩
  exact .done ⟨rfl, hi⟩

namespace Instantiation

theorem started_mirrors {machine : Machine} (hm : machine.IsPlain) (state : State)
    (start : Option Nat) :
    (started machine state start).Mirrors Eq (started (machine.placed true) state start) := by
  cases start with
  | none => exact .done rfl
  | some f =>
    have hcall := machine.callFromOutside_mirrors hm f [] state
    rw [started, started, runStart, runStart]
    refine hcall.bind ?_
    rintro ⟨r, s⟩ _ rfl
    cases r <;> exact .done rfl

end Instantiation

inductive Instance.Both : Except Error Instance → Except Error Instance → Prop where
  | error (e : Error) : Both (.error e) (.error e)
  | ok {i : Instance} : i.machine.IsPlain → Both (.ok i) (.ok (i.placed true))

theorem Instantiation.bound_mirrors (loaded : LoadedModule) {machine : Machine}
    (hm : machine.IsPlain) (r : Except EngineFault State) :
    (bound loaded machine r).Mirrors Instance.Both (bound loaded (machine.placed true) r) := by
  cases r with
  | error fault => exact .done (.error _)
  | ok state =>
    rw [bound, bound]
    split
    · have hbind := Instance.act_mirrors (i := ⟨loaded.name, machine, state⟩) hm
        machine.actsAlike_bind
      refine hbind.bind ?_
      rintro ⟨r, i⟩ _ ⟨rfl, hi⟩
      cases r with
      | error e => exact .done (.error _)
      | ok _ => exact .done (.ok hi)
    · exact .done (.error _)

/-- Setting up an instance is mirrored by setting it up on a worker. -/
theorem instantiate_mirrors (c : Config) {e : Embedding} (hplain : e.blocking = false)
    (hown : e.imports.IsOwn) (loaded : LoadedModule) :
    (instantiate c e loaded).Mirrors Instance.Both
      (instantiate c { e with blocking := true } loaded) := by
  have hplaced := Instantiation.prepare_placed c e loaded.module true
  cases hprepare : Instantiation.prepare c e loaded.module with
  | error fault =>
    rw [hprepare] at hplaced
    rw [Instantiation.instantiate_of_prepare_error hprepare,
      Instantiation.instantiate_of_prepare_error hplaced]
    exact .done (.error _)
  | ok prepared =>
    rw [hprepare] at hplaced
    have hm := Instantiation.isPlain_of_prepare hprepare hplain hown
    rw [Instantiation.instantiate_of_prepare hprepare, Instantiation.instantiate_of_prepare hplaced]
    refine (Instantiation.started_mirrors hm _ _).bind ?_
    rintro r _ rfl
    exact Instantiation.bound_mirrors loaded hm r

end SandboxHost

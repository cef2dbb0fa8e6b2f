import SandboxHost.Proofs.Interruption
import SandboxHost.Proofs.Ownership

namespace SandboxHost

def State.terminalPath (s : State) : Option UInt32 := s.host.pointers.terminalPath

/-- No pointer that is set changes. -/
structure State.KeepsPointers (s s' : State) : Prop where
  scratch (p : UInt32) : s.scratch = some p → s'.scratch = some p
  terminalPath (p : UInt32) : s.terminalPath = some p → s'.terminalPath = some p

/-- Once there is a block with the terminal's path, it stays. -/
def terminalPathKept : Law where
  keeps s _ s' := ∀ p, s.terminalPath = some p → s'.terminalPath = some p
  fails _ := True
  trans h h' p hp := h' p (h p hp)
  guest h _ _ p hp := by rwa [State.terminalPath, h]
  trap _ := trivial

def PathKeeping (m : Machine) (call : Callee) : BlockKind := fun _ =>
  terminalPathKept.GovernsProgram m call

namespace PathKeeping

variable {m : Machine} {call : Callee}

theorem edit {f : HostState → HostState}
    (hf : ∀ h, (f h).pointers.terminalPath = h.pointers.terminalPath) :
    (Program.modifyHost f).MadeOf (PathKeeping m call) fun _ => True := by
  refine Program.madeOf_block ?_
  rintro s t _ s' ⟨⟩
  exact ⟨fun p hp => (hf s.host).trans hp, trivial⟩

theorem run (argv : List String) :
    Action.MadeOf (PathKeeping m call) (fun _ => True) (Guest.run argv) := by
  refine Program.madeOf_block fun s t r s' h => ⟨fun p hp => ?_, failsWithin_true r⟩
  rwa [State.terminalPath, Guest.run_pointers h]

theorem systemRun (argv : List String) :
    Action.MadeOf (PathKeeping m call) (fun _ => True) (Syscall.run argv) := by
  refine Program.madeOf_block fun s t r s' h => ⟨fun p hp => ?_, failsWithin_true r⟩
  obtain ⟨-, -, rfl⟩ | ⟨s₁, hrun, rfl⟩ := Syscall.ends_run h
  · exact hp
  · have hpointers := Guest.run_pointers hrun
    exact (congrArg Pointers.terminalPath hpointers).trans hp

theorem survey {α : Type} {f : Setup → Action α}
    (h : ∀ s, True → Action.MadeOf (PathKeeping m call) (fun _ => True) (f s)) :
    Action.MadeOf (PathKeeping m call) (fun _ => True) (liftM Program.setup >>= f) :=
  Action.madeOf_lift_bind (Program.madeOf_block Machine.governs_setup) fun s _ => h s trivial

variable (hcall : terminalPathKept.GovernsCallee call)

include hcall

theorem plain : (PathKeeping m call).Allows (fun _ => True) Op.IsPlain :=
  .of_ops (fun _ hop => Machine.governs_plain (fun _ _ _ _ _ => id) hcall hop) trivial

theorem marshals : (PathKeeping m call).Allows (fun _ => True) Op.IsMarshal :=
  (plain hcall).mono Op.IsMarshal.isPlain

theorem access : (PathKeeping m call).Allows (fun _ => True) Op.IsAccess :=
  (marshals hcall).mono Op.IsAccess.isMarshal

theorem host : Program.host.MadeOf (PathKeeping m call) fun _ => True :=
  (plain hcall).step .getHost trivial trivial

theorem ask (r : Request) (hr : (Op.ask r).IsMarshal) :
    (Program.ask r).MadeOf (PathKeeping m call) fun _ => True :=
  Program.madeOf_block (Machine.governs_plain (fun _ _ _ _ _ => id) hcall hr.isPlain)

theorem loads : Guest.Loads (PathKeeping m call) fun _ => True where
  quiet := (plain hcall).mono fun h => h.isIdle.isPlain
  invoke := Guest.madeOf_invoke ((plain hcall).mono Op.IsIdle.isPlain) coversHost_true
    (edit fun _ => rfl)
  locate := Guest.madeOf_tableFunction? (plain hcall) trivial
  scratch := by
    refine Action.madeOf_lift_bind (host hcall) fun host _ => ?_
    dsimp only
    split
    · exact Action.madeOf_pure _
    · refine survey fun setup _ => ?_
      refine Action.madeOf_bind
        (Guest.madeOf_allocateBlock (marshals hcall) coversHost_true _) fun address => ?_
      exact Action.madeOf_lift_bind (edit fun _ => rfl) fun _ _ => Action.madeOf_pure _
  inScope h := Guest.madeOf_inScope (marshals hcall) coversHost_true
    (h.madeOf (marshals hcall) coversHost_true)

theorem assists : ((PathKeeping m call).actions fun _ => True).Assists fun _ => True where
  toJoins := BlockKind.joins _ _
  look _ h := Action.madeOf_lift_bind (host hcall) fun host _ => h host
  ask r hr _ := Action.madeOf_lift (ask hcall r hr)
  keepErrno _ := Action.madeOf_lift (edit fun _ => rfl)
  find name := Action.madeOf_lift (Guest.madeOf_function? (access hcall).lookup name)
  tell f args :=
    Guest.madeOf_callRaw _ _ _ ((marshals hcall).op (.call .reportErrno f args) trivial trivial)
  guestRead := Guest.madeOf_readMemory (access hcall) coversHost_true
  guestWrite := Guest.madeOf_writeMemory (access hcall) coversHost_true
  guestText := Guest.madeOf_readString (access hcall) coversHost_true
  guestSend := Guest.madeOf_sendString (marshals hcall) coversHost_true

theorem tells : ((PathKeeping m call).actions fun _ => True).Tells fun _ => True :=
  (assists hcall).tells coversHost_true

theorem terminalPath (buffer : UInt32) :
    Action.MadeOf (PathKeeping m call) (fun _ => True) (Handler.terminalPath buffer) := by
  by_cases hbuffer : buffer = 0
  · refine Program.madeOf_block fun s t r s' h => ⟨fun p hp => ?_, failsWithin_true r⟩
    rw [Handler.terminalPath, Action.run_lift_bind, Machine.perform_bind, Program.host,
      Machine.perform_ofOp, Machine.performOp, Dialogue.bind] at h
    change s.host.pointers.terminalPath = some p at hp
    simp only [hp, hbuffer] at h
    cases h
    exact hp
  · refine (tells hcall).keptTerminalPath coversHost_true fun h => ?_
    exact absurd h hbuffer

theorem attends : ((PathKeeping m call).actions fun _ => True).Attends fun _ => True where
  toAssists := assists hcall
  terminalPath := terminalPath hcall
  signal s := by
    refine Action.madeOf_lift (P := fun _ => True) ?_
    refine Program.madeOf_bind (edit fun h => ?_) fun _ _ => ?_
    · cases s <;> rfl
    · refine Program.madeOf_block fun s₀ t answer s' h => ⟨fun p hp => ?_, trivial⟩
      obtain ⟨_, _, hdone, -⟩ := Dialogue.ends_ask.mp h
      cases hdone
      exact hp
  run _ := systemRun _
  pause := (tells hcall).pause coversHost_true survey
    fun r hr => Action.madeOf_lift (ask hcall r hr)
  readInput := by
    refine (tells hcall).readInput coversHost_true survey
      (fun r hr => Action.madeOf_lift (ask hcall r hr)) (fun _ _ _ room => ?_)
      (Handler.madeOf_deliver coversHost_true (tells hcall) (ask hcall))
    refine Action.madeOf_lift (P := fun _ => True) ?_
    refine Program.madeOf_bind (host hcall) fun host _ => ?_
    have hrest (available : List UInt8) : Program.MadeOf (PathKeeping m call) (fun _ => True) (do
        Program.modifyHost fun h => { h with kept := available.drop room }
        return available.take room) :=
      Program.madeOf_bind (edit fun _ => rfl) fun _ _ => .done trivial
    dsimp only
    split
    · exact Program.madeOf_bind (ask hcall .awaitInput trivial) fun available _ => hrest available
    · exact hrest _

theorem functions (f : HostFunction) (args : List Value) :
    terminalPathKept.GovernsProgram m call (f.program args).run (FailsWithin fun _ => True) :=
  Program.MadeOf.governed (fun _ _ _ h => h) (HostFunction.madeOf_attended coversHost_true
    ((attends hcall).serves coversHost_true) (ask hcall) (fun _ _ => trivial) args)

theorem operations (op : Guest.Operation) :
    terminalPathKept.GovernsProgram m call op.action.run (FailsWithin fun _ => True) :=
  Program.MadeOf.governed (fun _ _ _ h => h) (Guest.madeOf_operation (loads hcall) (marshals hcall)
    coversHost_true op fun argv _ => run argv)

end PathKeeping

namespace Handler

variable {m : Machine} {call : Callee}

theorem records_keptTerminalPath {s : State} {p : UInt32} (hs : s.terminalPath = some p) :
    m.Records call (terminalPath 0).run s fun steps r s' =>
      steps = [⟨.getHost, s.host, s, s, []⟩] ∧ r = .ok p.toInt32 ∧ s' = s := by
  change s.host.pointers.terminalPath = some p at hs
  rw [terminalPath, Action.run_lift_bind]
  refine Machine.records_op rfl ?_
  simp only [hs]
  exact Machine.records_done.mpr ⟨rfl, rfl, rfl⟩

theorem records_fail (e : HostError) (returned : Int32) (s : State) :
    m.Records call (Syscall.fail e returned).run s fun _ r _ => ∀ w, r = .ok w → w = returned := by
  cases e with
  | unsupported capability => exact Machine.records_done.mpr (by rintro w ⟨⟩)
  | os errno =>
    rw [Syscall.fail, Action.records_bind]
    intro steps r s' _
    cases r with
    | error e => exact fun w h => by cases h
    | ok _ => exact Machine.records_done.mpr (by rintro w ⟨⟩; rfl)

/-- Without a buffer, the answer is the block that is kept from then on, or zero. -/
theorem records_terminalPath (s : State) : m.Records call (terminalPath 0).run s fun _ r s' =>
    ∀ w, r = .ok w → w = 0 ∨ ∃ p, s'.terminalPath = some p ∧ w = p.toInt32 := by
  cases hs : s.terminalPath with
  | some p =>
    refine (records_keptTerminalPath hs).mono ?_
    rintro steps r s' ⟨-, rfl, rfl⟩ w ⟨⟩
    exact .inr ⟨p, hs, rfl⟩
  | none =>
    change s.host.pointers.terminalPath = none at hs
    rw [terminalPath, Action.run_lift_bind]
    refine Machine.records_op rfl ?_
    simp only [hs]
    rw [Action.run_lift_bind]
    refine Machine.records_step.mpr fun t answer s₁ _ => ?_
    cases answer with
    | error e => exact (records_fail e 0 s₁).mono fun _ r s' h w hw => .inl (h w hw)
    | ok path =>
      have hbuffer : ¬ (0 : UInt32) ≠ 0 := Decidable.not_not.mpr rfl
      rw [Program.bind]
      dsimp only
      rw [if_neg hbuffer, Action.records_bind]
      intro steps r s₂ _
      cases r with
      | error e => exact fun w h => by cases h
      | ok block =>
        dsimp only
        rw [Action.run_lift_bind, Machine.records_bind]
        refine Machine.records_modifyHost (Machine.records_done.mpr ?_)
        rintro w ⟨⟩
        exact .inr ⟨block, rfl, rfl⟩

end Handler

namespace Machine

theorem callFunction_keepsPath (m : Machine) (depth hostDepth : Nat) (caller : Caller) :
    terminalPathKept.GovernsCallee (m.callFunction depth hostDepth caller) :=
  callFunction_governed (fun _ f _ _ hcall => PathKeeping.functions hcall f) depth hostDepth caller

end Machine

end SandboxHost

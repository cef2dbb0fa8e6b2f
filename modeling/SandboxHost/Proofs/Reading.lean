import SandboxHost.Proofs.Instances
import SandboxHost.Proofs.Runs

namespace SandboxHost

def Request.isBeside : Request → Bool
  | .awaitInput | .report (.delivered _) => false
  | _ => true

namespace Delivery

/-- The guest gets as many of the bytes as it has room for, and the host keeps the others. -/
structure Takes (d : Delivery) (available : List UInt8) : Prop where
  bytes_eq : d.bytes = available.take d.room
  kept_eq : d.kept = available.drop d.room

variable {d : Delivery} {available : List UInt8}

theorem Takes.append_eq (h : d.Takes available) : d.bytes ++ d.kept = available := by
  rw [h.bytes_eq, h.kept_eq, List.take_append_drop]

theorem Takes.length_le (h : d.Takes available) : d.bytes.length ≤ d.room := by
  rw [h.bytes_eq]
  exact List.length_take_le _ _

theorem Takes.room_eq_zero_or (h : d.Takes available) (hbytes : d.bytes = []) :
    d.room = 0 ∨ available = [] := List.take_eq_nil_iff.mp (h.bytes_eq.symm.trans hbytes)

end Delivery

namespace Dialogue

variable {α β : Type}

/-- Input passes through the dialogue in order: from what is kept at first to what is kept in the
end. What is kept may also be fresh, as the answer of the owner to a read that is under way; then it
is delivered first of all. -/
inductive Streams (Q : List UInt8 → α → Prop) : Bool → List UInt8 → Dialogue α → Prop where
  | done {kept : List UInt8} {a : α} : Q kept a → Streams Q false kept (.done a)
  | diverged {kept : List UInt8} : Streams Q false kept .diverged
  | beside {kept : List UInt8} {r : Request} {next : r.Answer → Dialogue α} :
    r.isBeside = true → (∀ answer, Streams Q false kept (next answer)) →
      Streams Q false kept (.ask r next)
  | await {next : List UInt8 → Dialogue α} :
    (∀ bytes, Streams Q true bytes (next bytes)) → Streams Q false [] (.ask .awaitInput next)
  | deliver {fresh : Bool} {kept : List UInt8} {d : Delivery} {next : Unit → Dialogue α} :
    d.Takes kept → (kept = [] → d.room = 0 ∨ fresh = true) → Streams Q false d.kept (next ()) →
      Streams Q fresh kept (.ask (.report (.delivered d)) next)

variable {Q : List UInt8 → α → Prop} {fresh : Bool} {kept : List UInt8} {d : Dialogue α}

theorem Streams.bind {S : List UInt8 → β → Prop} {f : α → Dialogue β} (h : d.Streams Q fresh kept)
    (hf : ∀ kept a, Q kept a → (f a).Streams S false kept) : (d.bind f).Streams S fresh kept := by
  induction h with
  | done ha => exact hf _ _ ha
  | diverged => exact .diverged
  | beside hr _ ih => exact .beside hr ih
  | await _ ih => exact .await ih
  | deliver htakes hroom _ ih => exact .deliver htakes hroom ih

theorem Streams.mono {S : List UInt8 → α → Prop} (h : d.Streams Q fresh kept)
    (hQS : ∀ kept a, Q kept a → S kept a) : d.Streams S fresh kept := by
  rw [← bind_done d]
  exact h.bind fun kept a ha => .done (hQS kept a ha)

end Dialogue

/-- The execution passes input on from what the host keeps before it to what it keeps after it. -/
def Exec.Streams {α : Type} (e : Exec α) : Prop :=
  ∀ s, (e.run.run s).Streams (fun kept x => x.2.host.kept = kept) false s.host.kept

namespace Machine

variable {m : Machine} {call : Callee} {α : Type}

theorem composes_streams (m : Machine) : m.Composes fun _ => Exec.Streams where
  pure _ _ := .done rfl
  bind he hf s := by
    rw [Exec.run_bind]
    refine (he s).bind ?_
    rintro _ ⟨r, s₁⟩ rfl
    cases r with
    | error e => exact .done rfl
    | ok a => exact hf a s₁
  trap _ _ := .done rfl
  diverge _ := .diverged
  charge s := by
    rw [Exec.run_charge]
    split <;> exact .done rfl
  look hf s := hf s.memory s.table s.globals s
  grow delta s := by
    rw [run_growMemory]
    split <;> exact .done rfl
  store address bytes s := by
    rw [run_storeBytes]
    split <;> exact .done rfl
  setGlobal _ _ _ _ := .done rfl
  changeTable change _ s := by
    rw [run_changeTable]
    split <;> exact .done rfl
  growTable delta function _ s := by
    rw [run_growTable]
    split <;> exact .done rfl
  close descriptor _ s := by
    rw [run_closeDescriptor]
    split <;> exact .done rfl

def Reading (m : Machine) (call : Callee) : BlockKind := fun _ p R =>
  ∀ s, (m.perform call p s).Streams (fun kept x => x.2.host.kept = kept ∧ R x.1) false s.host.kept

theorem reading_of_madeOf {P : α → Prop} {p : Program α} (hp : p.MadeOf (m.Reading call) P) :
    m.Reading call α p P := by
  induction hp with
  | done ha => exact fun _ => .done ⟨rfl, ha⟩
  | block hb _ ih =>
    intro s
    rw [perform_bind]
    refine (hb s).bind ?_
    rintro _ ⟨b, s₁⟩ ⟨rfl, hR⟩
    exact ih b hR s₁

theorem reading_ask {r : Request} (hr : r.isBeside = true) :
    (Program.ask r).MadeOf (m.Reading call) fun _ => True :=
  Program.madeOf_block fun _ => .beside hr fun _ => .done ⟨rfl, trivial⟩

theorem reading_report {e : Event} (he : (Request.report e).isBeside = true) :
    (Program.report e).MadeOf (m.Reading call) fun _ => True := reading_ask he

theorem reading_look {γ : Type} (g : HostState → γ) :
    (Program.host.bind fun h => .done (g h)).MadeOf (m.Reading call) fun a => ∃ h, g h = a :=
  Program.madeOf_block fun s => .done ⟨rfl, s.host, rfl⟩

theorem reading_edit {f : HostState → HostState} (hf : ∀ h : HostState, (f h).kept = h.kept) :
    (Program.modifyHost f).MadeOf (m.Reading call) fun _ => True :=
  Program.madeOf_block fun s => .done ⟨hf s.host, trivial⟩

theorem perform_writeMemory (m : Machine) (call : Callee) (address : UInt32) (bytes : List UInt8)
    (s : State) :
    m.perform call (Syscall.writeMemory address bytes).run s = .done (
      if s.host.bound then
        if address.toNat + bytes.length ≤ s.memory.size then
          (.ok (), { s with memory := s.memory.writeAll address.toNat bytes })
        else (.error (.outOfBounds address.toNat bytes.length), s)
      else (.error .notBound, s)) := by
  rw [Syscall.writeMemory, Action.perform_bind, Syscall.perform_requireBound]
  split
  · dsimp only [Dialogue.bind]
    rw [Guest.writeMemory, Action.run_lift_bind, perform_bind, Program.write, perform_ofOp,
      performOp]
    split <;> rfl
  · rfl

theorem perform_deliver (m : Machine) (call : Callee) (buffer : UInt32) (room : Nat)
    (bytes : List UInt8) (s : State) :
    m.perform call (Handler.deliver buffer room bytes).run s =
      (m.perform call (Syscall.writeMemory buffer bytes).run s).bind fun x =>
        .ask (.report (.delivered ⟨room, bytes, x.2.host.kept, x.1⟩)) fun _ =>
          .done (x.1.map fun _ => Int32.ofNat bytes.length, x.2) := by
  rw [Handler.deliver, Action.run_attempt_bind, perform_bind]
  congr 1
  funext x
  rcases x with ⟨_ | _, s⟩ <;> rfl

/-- The owner is asked for input if nothing is kept, unless the guest has no room for any. -/
theorem perform_ownerInput (m : Machine) (call : Callee) (room : Nat) (s : State) :
    m.perform call (Handler.ownerInput room) s =
      if s.host.kept = [] ∧ 0 < room then
        .ask .awaitInput fun bytes =>
          .done (bytes.take room, { s with host := { s.host with kept := bytes.drop room } })
      else
        .done (s.host.kept.take room,
          { s with host := { s.host with kept := s.host.kept.drop room } }) := by
  have hsame : (s.host.kept.isEmpty && decide (0 < room)) = true ↔ s.host.kept = [] ∧ 0 < room := by
    rw [Bool.and_eq_true, List.isEmpty_iff, decide_eq_true_iff]
  change m.perform call (if (s.host.kept.isEmpty && decide (0 < room)) = true then _ else _) s = _
  split
  · next h =>
    rw [if_pos (hsame.mp h)]
    rfl
  · next h =>
    rw [if_neg (mt hsame.mpr h)]
    rfl

/-- A machine of an instance on a worker, where all functions behind the imports are the host's
own. -/
structure IsOnWorker (m : Machine) : Prop where
  blocking : m.setup.blocking = true
  own : m.IsOwn

theorem streams_deliver {room : Nat} {available : List UInt8} {fresh : Bool} {s : State}
    (hkept : s.host.kept = available.drop room) (hroom : available = [] → room = 0 ∨ fresh = true)
    (buffer : UInt32) :
    (m.perform call (Handler.deliver buffer room (available.take room)).run s).Streams
      (fun kept x => x.2.host.kept = kept ∧ FailsWithin (fun _ => True) x.1) fresh available := by
  rw [perform_deliver, perform_writeMemory]
  refine .deliver ⟨rfl, ?_⟩ hroom (.done ⟨rfl, failsWithin_true _⟩)
  split
  · split <;> exact hkept
  · exact hkept

/-- On a worker, a read delivers what there is of the owner's input. -/
theorem perform_readInput (hm : m.IsOnWorker) (buffer : UInt32) (room : Nat) (s : State) :
    m.perform call (Handler.readInput buffer room).run s =
      (m.perform call (Handler.ownerInput room) s).bind fun x =>
        m.perform call (Handler.deliver buffer room x.1).run x.2 := by
  rw [Handler.readInput, Action.run_lift_bind]
  change m.perform call (ExceptT.run (if m.setup.blocking then _ else _)) s = _
  rw [if_pos hm.blocking, Action.run_lift_bind, perform_bind]

theorem ends_ownerInput {room : Nat} {s s' : State} {t : Trace} {bytes : List UInt8}
    (h : (m.perform call (Handler.ownerInput room) s).Ends t (bytes, s')) :
    (t = [] ∨ ∃ given, t = [⟨.awaitInput, given⟩]) ∧ bytes.length ≤ room ∧
      s'.memory = s.memory := by
  rw [perform_ownerInput] at h
  split at h
  · obtain ⟨given, _, hdone, rfl⟩ := Dialogue.ends_ask.mp h
    cases hdone
    exact ⟨.inr ⟨given, rfl⟩, List.length_take_le _ _, rfl⟩
  · cases h
    exact ⟨.inl rfl, List.length_take_le _ _, rfl⟩

theorem ends_deliver {buffer : UInt32} {room : Nat} {bytes : List UInt8} {s s' : State} {t : Trace}
    {count : Int32}
    (h : (m.perform call (Handler.deliver buffer room bytes).run s).Ends t (.ok count, s')) :
    t = [⟨.report (.delivered ⟨room, bytes, s'.host.kept, .ok ()⟩), ()⟩] ∧
      count = Int32.ofNat bytes.length ∧ s'.memory = s.memory.writeAll buffer.toNat bytes := by
  rw [perform_deliver, perform_writeMemory] at h
  obtain ⟨⟨⟩, _, hdone, rfl⟩ := Dialogue.ends_ask.mp h
  obtain ⟨rfl, heq⟩ := Dialogue.ends_done.mp hdone
  split at heq
  · split at heq
    · cases heq
      refine ⟨?_, rfl, rfl⟩
      simp [*]
    · cases heq
  · cases heq

/-- What a read into a buffer of some length has done when it returns how many bytes it has read: it
has delivered them, at the end, and asked the owner for input at most once before. -/
structure HasRead (pointer length count : Int32) (s : State) (t : Trace) (s' : State)
    (d : Delivery) : Prop where
  trace_eq : ∃ t₀, (t₀ = [] ∨ ∃ given, t₀ = [⟨.awaitInput, given⟩]) ∧
    t = t₀ ++ [⟨.report (.delivered d), ()⟩]
  room_eq : d.room = (max length.toInt 0).toNat
  outcome_eq : d.outcome = .ok ()
  length_eq : count.toInt = d.bytes.length
  kept_eq : d.kept = s'.host.kept
  memory_eq : s'.memory = s.memory.writeAll pointer.toUInt32.toNat d.bytes

theorem exists_hasRead (hm : m.IsOnWorker) {pointer length count : Int32} {s s' : State}
    {t : Trace} (h : (m.perform call (Handler.readStdin.program [pointer, length]).run s).Ends t
      (.ok count, s')) : ∃ d, HasRead pointer length count s t s' d := by
  change (m.perform call (Handler.readInput pointer.toUInt32 length.toNatClampNeg).run s).Ends t
    (.ok count, s') at h
  rw [perform_readInput hm] at h
  obtain ⟨t₀, ⟨bytes, s₁⟩, _, hinput, hdeliver, rfl⟩ := Dialogue.ends_bind.mp h
  obtain ⟨hasked, hlength, hmemory⟩ := ends_ownerInput hinput
  obtain ⟨rfl, rfl, hwritten⟩ := ends_deliver hdeliver
  have hbelow : length.toNatClampNeg < 2 ^ 31 := by
    have := length.toInt_lt
    change length.toInt.toNat < _
    omega
  refine ⟨_, ⟨t₀, hasked, rfl⟩, ?_, rfl,
    Int32.toInt_ofNat_of_lt (Nat.lt_of_le_of_lt hlength hbelow), rfl, hmemory ▸ hwritten⟩
  change length.toInt.toNat = _
  omega

theorem reading_readInput (hm : m.IsOnWorker) (buffer : UInt32) (room : Nat) :
    Action.MadeOf (m.Reading call) (fun _ => True) (Handler.readInput buffer room) := by
  refine Program.madeOf_block fun s => ?_
  rw [perform_readInput hm, perform_ownerInput]
  split
  · next hask =>
    rw [hask.1]
    exact .await fun bytes => streams_deliver rfl (fun _ => .inr rfl) buffer
  · next hask =>
    refine streams_deliver rfl (fun hnone => .inl ?_) buffer
    exact Nat.eq_zero_of_not_pos fun hpos => hask ⟨hnone, hpos⟩

section

variable (hcall : CalleeHas (fun _ => Exec.Streams) call)

include hcall

theorem allows_reading : (m.Reading call).Allows (fun _ => True) Op.IsPlain where
  op op hplain hportable s := by
    rw [perform_ofOp]
    suffices hstep : (m.performOp call op s).Streams (fun kept x => x.2.host.kept = kept) false
      s.host.kept from hstep.mono fun _ x hx => ⟨hx, op.answers_true x.1⟩
    cases op with
    | setHost _ | restore _ => exact hplain.elim
    | write address bytes =>
      rw [performOp]
      split <;> exact .done rfl
    | call purpose f args => exact hcall f args s
    | ask r =>
      have hr : r.isBeside = true := by
        unfold Request.isBeside
        split
        · exact False.elim hportable
        · exact False.elim hportable
        · rfl
      exact .beside hr fun _ => .done rfl
    | _ => exact .done rfl
  survey _ := Program.madeOf_block fun _ => .done ⟨rfl, m.setup, rfl⟩

theorem hosts_reading : Guest.Hosts (m.Reading call) fun _ => True where
  marshals := (allows_reading hcall).mono Op.IsMarshal.isPlain
  look _ := reading_look _
  setPointers _ := reading_edit fun _ => rfl
  invoke := Guest.madeOf_invoke ((allows_reading hcall).mono Op.IsIdle.isPlain) coversHost_true
    (reading_edit fun _ => rfl)
  restore _ := Program.madeOf_block fun _ => .done ⟨rfl, trivial⟩

theorem reading_run (argv : List String) :
    Action.MadeOf (m.Reading call) (fun _ => True) (Syscall.run argv) := by
  refine Program.madeOf_block fun s => ?_
  by_cases hb : s.host.bound
  · rw [Syscall.perform_run hb]
    have hrun := reading_of_madeOf ((hosts_reading (m := m) hcall).run coversHost_true trivial
      (fun _ => reading_report rfl) (reading_report rfl) argv)
    refine (hrun s.fresh).bind ?_
    rintro _ ⟨r, s₁⟩ ⟨rfl, hr⟩
    exact .done ⟨rfl, hr⟩
  · rw [Syscall.run, Action.perform_bind, Syscall.perform_requireBound, if_neg hb]
    exact .done ⟨rfl, trivial⟩

theorem attends_reading (hm : m.IsOnWorker) : Attends (m.Reading call) fun _ => True where
  marshals := (allows_reading hcall).mono Op.IsMarshal.isPlain
  look _ := reading_look _
  edit _ hedit := reading_edit fun h => (hedit { m.setup with blocking := false }).kept h rfl
  signal s := Program.madeOf_bind (reading_edit fun _ => by cases s <;> rfl) fun _ _ =>
    reading_report rfl
  run _ := reading_run hcall _
  pause _ := by
    refine Program.madeOf_block fun s => ?_
    rw [Handler.pause, Action.run_lift_bind]
    change Dialogue.Streams _ _ _
      (m.perform call (ExceptT.run (if m.setup.blocking then _ else _)) s)
    rw [if_pos hm.blocking]
    exact .beside rfl fun _ => .done ⟨rfl, trivial⟩
  readInput := reading_readInput hm

theorem binds_reading : Guest.Binds (m.Reading call) where
  quiet := (allows_reading hcall).mono fun h => h.isIdle.isPlain
  announce := Program.madeOf_block fun _ => .done ⟨rfl, trivial⟩
  keep _ := reading_edit fun _ => rfl

end

/-- Every call of an instance on a worker passes its input on. -/
theorem callFunction_streams (hm : m.IsOnWorker) (depth hostDepth : Nat) (caller : Caller) :
    CalleeHas (fun _ => Exec.Streams) (m.callFunction depth hostDepth caller) := by
  refine (composes_streams m).callFunction (fun i f hf call hcall args => ?_) depth hostDepth caller
  have hmade := HostFunction.madeOf_own coversHost_true (attends_reading hcall hm) (hm.own i f hf)
    args
  exact fun s => (reading_of_madeOf hmade s).mono fun _ _ hx => hx.1

theorem callFromOutside_streams (hm : m.IsOnWorker) :
    CalleeHas (fun _ => Exec.Streams) m.callFromOutside :=
  m.callFunction_streams hm maxDepth maxHostDepth .host

end Machine

structure Instance.Keeps (i : Instance) (kept : List UInt8) : Prop where
  worker : i.machine.IsOnWorker
  kept_eq : i.state.host.kept = kept

namespace Instance

variable {i : Instance} {kept : List UInt8} {α : Type} {a : Action α}

theorem Keeps.act_streams (hi : i.Keeps kept)
    (ha : ∀ call, Machine.CalleeHas (fun _ => Exec.Streams) call →
      Action.MadeOf (i.machine.Reading call) (fun _ => True) a) :
    (i.act a).Streams (fun kept x => x.2.Keeps kept) false kept := by
  have hmade := Machine.reading_of_madeOf (ha _ (i.machine.callFromOutside_streams hi.worker))
    i.state
  rw [hi.kept_eq] at hmade
  exact hmade.bind fun _ x hx => .done ⟨hi.worker, hx.1⟩

theorem Keeps.call_streams (hi : i.Keeps kept) (name : String) (args : List Int64) :
    (i.act (Guest.call name args)).Streams (fun kept x => x.2.Keeps kept) false kept :=
  hi.act_streams fun _ hcall =>
    Guest.madeOf_call ((Machine.hosts_reading hcall).loads coversHost_true) coversHost_true name
      args

theorem Keeps.callWithString_streams (hi : i.Keeps kept) (name : String) (arg : Guest.StringArg)
    (extra : List Int64) :
    (i.act (Guest.callWithString name arg extra)).Streams (fun kept x => x.2.Keeps kept) false
      kept :=
  hi.act_streams fun _ hcall =>
    Guest.madeOf_callWithString ((Machine.hosts_reading hcall).loads coversHost_true)
      coversHost_true name arg extra

end Instance

namespace Instantiation

theorem isOnWorker_of_prepare {c : Config} {e : Embedding} {m : Module} {machine : Machine}
    {state : State} (h : prepare c e m = .ok (machine, state)) (hblocking : e.blocking = true)
    (hown : e.imports.IsOwn) : machine.IsOnWorker ∧ state.host.kept = [] := by
  obtain ⟨targets, -, heq, hhost⟩ := exists_targets_of_prepare h
  exact ⟨⟨heq ▸ hblocking, isOwn_of_prepare h hown⟩, by rw [hhost]⟩

theorem started_streams {machine : Machine} (hm : machine.IsOnWorker) (state : State)
    (start : Option Nat) :
    (started machine state start).Streams
      (fun kept r => ∀ s, r = .ok s → s.host.kept = kept) false state.host.kept := by
  cases start with
  | none =>
    refine .done ?_
    rintro _ ⟨⟩
    rfl
  | some f =>
    refine (machine.callFromOutside_streams hm f [] state).bind ?_
    rintro _ ⟨r, s⟩ rfl
    cases r with
    | error e => exact .done nofun
    | ok _ =>
      refine .done ?_
      rintro _ ⟨⟩
      rfl

theorem bound_streams (loaded : LoadedModule) {machine : Machine} (hm : machine.IsOnWorker)
    {kept : List UInt8} {r : Except EngineFault State} (hr : ∀ s, r = .ok s → s.host.kept = kept) :
    (bound loaded machine r).Streams (fun kept r => ∀ i, r = .ok i → i.Keeps kept) false kept := by
  cases r with
  | error fault => exact .done (by rintro _ ⟨⟩)
  | ok state =>
    rw [bound]
    split
    · have hi : (Instance.mk loaded.name machine state).Keeps kept := ⟨hm, hr state rfl⟩
      have hbind := hi.act_streams fun _ hcall => Guest.madeOf_bind (Machine.binds_reading hcall)
      refine hbind.bind ?_
      rintro _ ⟨r, i⟩ hi
      cases r with
      | error e => exact .done (by rintro _ ⟨⟩)
      | ok _ =>
        refine .done ?_
        rintro _ ⟨⟩
        exact hi
    · exact .done (by rintro _ ⟨⟩)

end Instantiation

theorem instantiate_streams (c : Config) {e : Embedding} (hblocking : e.blocking = true)
    (hown : e.imports.IsOwn) (loaded : LoadedModule) :
    (instantiate c e loaded).Streams (fun kept r => ∀ i, r = .ok i → i.Keeps kept) false [] := by
  cases hprepare : Instantiation.prepare c e loaded.module with
  | error fault =>
    rw [Instantiation.instantiate_of_prepare_error hprepare]
    exact .done (by rintro _ ⟨⟩)
  | ok prepared =>
    obtain ⟨hm, hkept⟩ := Instantiation.isOnWorker_of_prepare hprepare hblocking hown
    rw [Instantiation.instantiate_of_prepare hprepare, ← hkept]
    exact (Instantiation.started_streams hm _ _).bind fun _ _ hr =>
      Instantiation.bound_streams loaded hm hr

end SandboxHost

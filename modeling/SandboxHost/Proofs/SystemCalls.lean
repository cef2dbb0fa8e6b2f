import SandboxHost.Proofs.HostPrograms
import SandboxHost.Proofs.Likeness

namespace SandboxHost

/-- What the call in flight depends on is the same. -/
structure HostState.SameCall (h h' : HostState) : Prop where
  result : h'.result = h.result
  exception : h'.exception = h.exception
  scratch : h'.pointers.scratch = h.pointers.scratch

/-- A kind whose blocks do for the guest what most system calls do. -/
structure Assists (B : BlockKind) (fails : Error → Prop) : Prop where
  marshals : B.Allows fails Op.IsMarshal
  look {γ : Type} {g : HostState → γ} : HostState.Blind g →
    (Program.host.bind fun h => .done (g h)).MadeOf B fun a => ∃ h, g h = a
  edit {f : HostState → HostState} : (∀ h : HostState, h.SameCall (f h)) →
    (∀ setup, HostState.Edit setup f) → (Program.modifyHost f).MadeOf B fun _ => True

/-- A kind whose blocks do all that system calls do. Waiting depends on where the instance lives, so
its two forms are taken as they are. -/
structure Attends (B : BlockKind) (fails : Error → Prop) : Prop extends Assists B fails where
  signal (s : Signal) : (Callback.setSignal s).MadeOf B fun _ => True
  run {argv : List String} : (argv = [] → fails (.invalidArgument .emptyArgv)) →
    Action.MadeOf B fails (Syscall.run argv)
  pause (microseconds : Nat) : Action.MadeOf B fails (Handler.pause microseconds)
  readInput (buffer : UInt32) (room : Nat) : Action.MadeOf B fails (Handler.readInput buffer room)

/-- A property that actions of most system calls have, because these parts of them have it. -/
structure ActionKind.Tells (G : ActionKind) (fails : Error → Prop) : Prop
    extends G.Joins fails where
  look {α : Type} {f : HostState → Action α} : HostState.Blind f → (∀ h, G α (f h)) →
    G α (liftM Program.host >>= f)
  ask (r : Request) : (Op.ask r).IsMarshal → (Op.ask r).IsPortable → G _ (liftM (Program.ask r))
  setErrno (e : Errno) : G _ (Syscall.setErrno e)
  guestRead (address : UInt32) (length : Nat) : G _ (Guest.readMemory address length)
  guestWrite (address : UInt32) (bytes : List UInt8) : G _ (Guest.writeMemory address bytes)
  guestText (address : UInt32) : G _ (Guest.readString address)
  guestSend (text : String) (slot : Option Guest.Slot) : G _ (Guest.sendString text slot)

/-- A property that all actions of system calls have, because these too have it as they are. -/
structure ActionKind.Serves (G : ActionKind) (fails : Error → Prop) : Prop
    extends G.Tells fails where
  terminalPath (buffer : UInt32) : G _ (Handler.terminalPath buffer)
  signal (s : Signal) : G _ (liftM (Callback.setSignal s))
  run {argv : List String} : (argv = [] → fails (.invalidArgument .emptyArgv)) →
    G _ (Syscall.run argv)
  pause (microseconds : Nat) : G _ (Handler.pause microseconds)
  readInput (buffer : UInt32) (room : Nat) : G _ (Handler.readInput buffer room)

structure ActionKind.Assists (G : ActionKind) (fails : Error → Prop) : Prop
    extends G.Joins fails where
  look {α : Type} {f : HostState → Action α} : HostState.Blind f → (∀ h, G α (f h)) →
    G α (liftM Program.host >>= f)
  ask (r : Request) : (Op.ask r).IsMarshal → (Op.ask r).IsPortable → G _ (liftM (Program.ask r))
  keepErrno (value : Int32) :
    G _ (liftM (Program.modifyHost fun h => { h with lastErrno := value }))
  find (name : String) : G _ (liftM (Guest.function? name))
  tell (f : Nat) (args : List Value) : G _ (Guest.callRaw .reportErrno f args)
  guestRead (address : UInt32) (length : Nat) : G _ (Guest.readMemory address length)
  guestWrite (address : UInt32) (bytes : List UInt8) : G _ (Guest.writeMemory address bytes)
  guestText (address : UInt32) : G _ (Guest.readString address)
  guestSend (text : String) (slot : Option Guest.Slot) : G _ (Guest.sendString text slot)

structure ActionKind.Attends (G : ActionKind) (fails : Error → Prop) : Prop
    extends G.Assists fails where
  terminalPath (buffer : UInt32) : G _ (Handler.terminalPath buffer)
  signal (s : Signal) : G _ (liftM (Callback.setSignal s))
  run {argv : List String} : (argv = [] → fails (.invalidArgument .emptyArgv)) →
    G _ (Syscall.run argv)
  pause (microseconds : Nat) : G _ (Handler.pause microseconds)
  readInput (buffer : UInt32) (room : Nat) : G _ (Handler.readInput buffer room)

section

variable {G : ActionKind} {fails : Error → Prop} (hf : CoversHost fails)

include hf in
theorem ActionKind.Joins.requireBound (hG : G.Joins fails)
    (hlook : ∀ {α : Type} {f : HostState → Action α}, HostState.Blind f → (∀ h, G α (f h)) →
      G α (liftM Program.host >>= f)) : G _ Syscall.requireBound := by
  refine hlook (fun h h' hh => by rw [hh.bound]) fun h => ?_
  split
  · exact hG.value _
  · exact hG.raise (hf _ nofun)

namespace ActionKind.Tells

variable (hG : G.Tells fails)

include hG hf

theorem requireBound : G _ Syscall.requireBound := hG.toJoins.requireBound hf hG.look

theorem readMemory (address : UInt32) (length : Nat) : G _ (Syscall.readMemory address length) :=
  hG.bind (hG.requireBound hf) fun _ => hG.guestRead address length

theorem writeMemory (address : UInt32) (bytes : List UInt8) :
    G _ (Syscall.writeMemory address bytes) :=
  hG.bind (hG.requireBound hf) fun _ => hG.guestWrite address bytes

theorem readString (address : UInt32) : G _ (Syscall.readString address) :=
  hG.bind (hG.requireBound hf) fun _ => hG.guestText address

theorem sendString (text : String) (slot : Option Guest.Slot) :
    G _ (Syscall.sendString text slot) :=
  hG.bind (hG.requireBound hf) fun _ => hG.guestSend text slot

omit hf in
theorem refusal (e : Errno) (returned : Int32) :
    G _ (do
      let _ ← Syscall.setErrno e
      return returned) :=
  hG.bind (hG.setErrno e) fun _ => hG.value _

theorem fail (e : HostError) (returned : Int32) : G _ (Syscall.fail e returned) := by
  cases e with
  | unsupported capability => exact hG.raise (hf _ nofun)
  | os errno => exact hG.refusal errno returned

theorem check (r : HostResult Int32) : G _ (Syscall.check r) := by
  cases r with
  | ok value => exact hG.value _
  | error e => exact hG.fail hf e _

theorem giveText (text : String) (buffer : UInt32) (size : Int32) (tooLong : Errno)
    (failure success : Int32) :
    G _ (Handler.giveText text buffer size tooLong failure success) := by
  unfold Handler.giveText
  split
  · exact hG.refusal _ _
  · split
    · exact hG.refusal _ _
    · exact hG.bind (hG.sendString hf _ _) fun _ => hG.value _

theorem hostName (buffer : UInt32) (size : Int32) : G _ (Handler.hostName buffer size) := by
  refine hG.bind (hG.ask _ trivial trivial) fun answer => ?_
  cases answer with
  | error e => exact hG.fail hf e _
  | ok name => exact hG.giveText hf _ _ _ _ _ _

theorem workingDirectory (buffer : UInt32) (size : Int32) :
    G _ (Handler.workingDirectory buffer size) := by
  refine hG.bind (hG.ask _ trivial trivial) fun answer => ?_
  cases answer with
  | error e => exact hG.fail hf _ _
  | ok path =>
    dsimp only
    split
    · exact hG.bind (hG.sendString hf _ _) fun _ => hG.value _
    · exact hG.giveText hf _ _ _ _ _ _

theorem keptTerminalPath {buffer : UInt32} (hkeep : buffer = 0 → ∀ block : UInt32,
      G _ (liftM (Program.modifyHost fun h =>
        { h with pointers := { h.pointers with terminalPath := some block } }))) :
    G _ (Handler.terminalPath buffer) := by
  refine hG.look (fun h h' hh => by rw [hh.pointers]) fun host => ?_
  dsimp only
  split
  · exact hG.value _
  · refine hG.bind (hG.ask _ trivial trivial) fun answer => ?_
    cases answer with
    | error e => exact hG.fail hf e _
    | ok path =>
      dsimp only
      split
      · exact hG.bind (hG.sendString hf _ _) fun _ => hG.value _
      · next hbuffer =>
        refine hG.bind (hG.sendString hf _ _) fun block => ?_
        exact hG.bind (hkeep (Decidable.not_not.mp hbuffer) block) fun _ => hG.value _

theorem isTerminal (fd : Int32) : G _ (Handler.isTerminal fd) := by
  refine hG.bind (hG.ask _ trivial trivial) fun answer => ?_
  match answer with
  | .ok true => exact hG.value _
  | .ok false => exact hG.refusal _ _
  | .error e => exact hG.fail hf e _

theorem done (r : HostResult Unit) : G _ (Handler.done r) := by
  cases r with
  | ok _ => exact hG.value _
  | error e => exact hG.fail hf e _

section Waiting

variable {P : Setup → Prop} (hsurvey : ∀ {α : Type} {f : Setup → Action α},
    (∀ s, P s → G α (f s)) → G α (liftM Program.setup >>= f))
  (hask : ∀ r, (Op.ask r).IsMarshal → G _ (liftM (Program.ask r)))

include hsurvey hask

theorem pause (microseconds : Nat) : G _ (Handler.pause microseconds) := by
  refine hsurvey fun setup _ => ?_
  split
  · exact hG.bind (hask (.pause _) trivial) fun _ => hG.value _
  · refine hG.bind (hask _ trivial) fun answer => ?_
    cases answer with
    | ok _ => exact hG.value _
    | error e => exact hG.fail hf e _

theorem readInput (hinput : ∀ s : Setup, P s → s.blocking = true →
      ∀ room, G _ (liftM (Handler.ownerInput room)))
    (hdeliver : ∀ buffer room bytes, G _ (Handler.deliver buffer room bytes))
    (buffer : UInt32) (room : Nat) : G _ (Handler.readInput buffer room) := by
  refine hsurvey fun setup hsetup => ?_
  split
  · next hblocking =>
    exact hG.bind (hinput setup hsetup hblocking room) fun bytes => hdeliver buffer room bytes
  · refine hG.bind (hask _ trivial) fun answer => ?_
    cases answer with
    | ok answer => exact hdeliver buffer room _
    | error e => exact hG.fail hf e _

end Waiting

end ActionKind.Tells

namespace ActionKind.Serves

variable (hG : G.Serves fails)

include hG hf

theorem command (address : UInt32) : G _ (Handler.command address) := by
  unfold Handler.command
  split
  · exact hG.value _
  · refine hG.bind (hG.readString hf address) fun text => ?_
    dsimp only
    split
    · exact hG.value _
    · next hwords =>
      -- A command without words runs nothing, so no run is asked for an empty argument list.
      exact hG.run fun h => absurd (by rw [h]; rfl) hwords

theorem handler (h : Handler) (args : List Int32) : G _ (h.program args) := by
  have hidentity (i : Identity) : G _ (Handler.identity i) :=
    hG.bind (hG.ask _ trivial trivial) fun answer => hG.check hf answer
  unfold Handler.program
  cases h with
  | getpgid => exact hG.bind (hG.ask _ trivial trivial) fun answer => hG.check hf answer
  | kill => exact hG.bind (hG.ask _ trivial trivial) fun answer => hG.done hf answer
  | loginTty => exact hG.bind (hG.ask _ trivial trivial) fun answer => hG.done hf answer
  | gethostname => exact hG.hostName hf _ _
  | getcwd => exact hG.workingDirectory hf _ _
  | isatty => exact hG.isTerminal hf _
  | ctermid => exact hG.terminalPath _
  | statvfs => exact hG.raise (hf _ nofun)
  | fstatvfs => exact hG.raise (hf _ nofun)
  | sleep => exact hG.pause _
  | usleep => exact hG.pause _
  | readStdin => exact hG.readInput _ _
  | system => exact hG.command hf _
  | _ => exact hidentity _

theorem callback (c : Callback) (args : List Value) : G _ (c.program args) := by
  have hbytes : G _ (Callback.readBytes args) := hG.readMemory hf _ _
  cases c with
  | exception => exact hG.signal _
  | int =>
    unfold Callback.program
    dsimp only
    split <;> exact hG.signal _
  | string => exact hG.bind hbytes fun _ => hG.signal _
  | json =>
    refine hG.bind hbytes fun bytes => ?_
    split
    · exact hG.signal _
    · exact hG.raise (hf _ nofun)

end ActionKind.Serves

namespace ActionKind.Assists

variable (hG : G.Assists fails)

include hG hf

theorem setErrno (e : Errno) : G _ (Syscall.setErrno e) := by
  refine hG.look (fun h h' hh => by rw [hh.constants]) fun host => ?_
  refine hG.bind (hG.keepErrno _) fun _ => hG.bind (hG.toJoins.requireBound hf hG.look) fun _ => ?_
  refine hG.bind (hG.find _) fun found => ?_
  cases found with
  | none => exact hG.value _
  | some f => exact hG.bind (hG.tell f _) fun _ => hG.value _

theorem tells : G.Tells fails where
  toJoins := hG.toJoins
  look := hG.look
  ask := hG.ask
  setErrno := hG.setErrno hf
  guestRead := hG.guestRead
  guestWrite := hG.guestWrite
  guestText := hG.guestText
  guestSend := hG.guestSend

end ActionKind.Assists

include hf in
theorem ActionKind.Attends.serves (hG : G.Attends fails) : G.Serves fails where
  toTells := hG.toAssists.tells hf
  terminalPath := hG.terminalPath
  signal := hG.signal
  run := hG.run
  pause := hG.pause
  readInput := hG.readInput

end

def HostFunction.IsSupplied (f : HostFunction) : Prop := ∃ g, f.service = .supplied g

/-- A function that nobody supplies is a system call or a callback. -/
theorem ActionKind.Serves.own {G : ActionKind} {fails : Error → Prop} (hG : G.Serves fails)
    (hf : CoversHost fails) {f : HostFunction} (hs : ¬ f.IsSupplied) (args : List Value) :
    G _ (f.program args) := by
  unfold HostFunction.program
  split
  · exact hG.bind (hG.handler hf _ _) fun _ => hG.value _
  · exact hG.bind (hG.callback hf _ _) fun _ => hG.value _
  · next g hg => exact absurd ⟨g, hg⟩ hs

section

variable {B : BlockKind} {fails : Error → Prop} (hf : CoversHost fails)

theorem Assists.access (hB : Assists B fails) : B.Allows fails Op.IsAccess :=
  hB.marshals.mono Op.IsAccess.isMarshal

include hf

theorem Assists.actions (hB : Assists B fails) : (B.actions fails).Assists fails where
  toJoins := B.joins fails
  look hblind h := Action.madeOf_look_bind (hB.look fun h h' hh => by rw [hblind h h' hh]) h
  ask r hr hportable := Action.madeOf_lift (hB.marshals.step _ hr hportable)
  keepErrno value := by
    refine Action.madeOf_lift (hB.edit (fun _ => ⟨rfl, rfl, rfl⟩) fun _ => ?_)
    exact ⟨fun hh => ⟨hh.pointers, hh.bound, hh.constants, hh.kept, hh.result, hh.exception⟩,
      fun _ => rfl, fun _ => rfl, fun _ _ => rfl⟩
  find name := Action.madeOf_lift (Guest.madeOf_function? hB.access.lookup name)
  tell f args :=
    Guest.madeOf_callRaw _ _ _ (hB.marshals.op (.call .reportErrno f args) trivial trivial)
  guestRead := Guest.madeOf_readMemory hB.access hf
  guestWrite := Guest.madeOf_writeMemory hB.access hf
  guestText := Guest.madeOf_readString hB.access hf
  guestSend := Guest.madeOf_sendString hB.marshals hf

theorem Attends.actions (hB : Attends B fails) : (B.actions fails).Attends fails where
  toAssists := hB.toAssists.actions hf
  terminalPath _ := by
    refine ((hB.toAssists.actions hf).tells hf).keptTerminalPath hf fun _ block => ?_
    exact Action.madeOf_lift (hB.edit (fun _ => ⟨rfl, rfl, rfl⟩)
      fun _ => .pointers fun p => { p with terminalPath := some block })
  signal s := Action.madeOf_lift (hB.signal s)
  run := hB.run
  pause := hB.pause
  readInput := hB.readInput

end

theorem Attends.of_ops {B : BlockKind} {fails : Error → Prop} (hf : CoversHost fails)
    (hempty : fails (.invalidArgument .emptyArgv)) (hB : B.Allows fails fun _ => True)
    (hpause : ∀ microseconds, Action.MadeOf B fails (Handler.pause microseconds))
    (hread : ∀ buffer room, Action.MadeOf B fails (Handler.readInput buffer room)) :
    Attends B fails := by
  have hreport (e : Event) (he : (Op.ask (.report e)).IsPortable) :
      (Program.report e).MadeOf B fun _ => True := hB.step (.ask (.report e)) trivial he
  have hedit (f : HostState → HostState) : (Program.modifyHost f).MadeOf B fun _ => True :=
    hB.modifyHost trivial (fun _ => trivial) f
  have hlook {γ : Type} (g : HostState → γ) :
      (Program.host.bind fun h => .done (g h)).MadeOf B fun a => ∃ h, g h = a :=
    Program.madeOf_bind (hB.step .getHost trivial trivial) fun h _ => .done ⟨h, rfl⟩
  have hassists : Assists B fails :=
    ⟨hB.mono fun _ => trivial, fun _ => hlook _, fun _ _ => hedit _⟩
  refine ⟨hassists, fun s => ?_, fun {argv} _ => ?_, hpause, hread⟩
  · exact Program.madeOf_bind (hedit _) fun _ _ => hreport _ trivial
  · have hrun := (Guest.Hosts.of_ops (hB.mono fun _ => trivial) hf).run hf hempty
      (fun _ => hreport _ trivial) (hreport _ trivial) argv
    refine Action.madeOf_bind (((hassists.actions hf).tells hf).requireBound hf) fun _ => ?_
    refine Action.madeOf_lift_bind (hB.step .getHost trivial trivial) fun before _ => ?_
    refine Action.madeOf_lift_bind (hB.step (.setHost _) trivial trivial) fun _ _ => ?_
    refine Action.madeOf_attempt_bind hrun fun outcome houtcome => ?_
    exact Action.madeOf_lift_bind (hedit _) fun _ _ => Action.madeOf_ofExcept houtcome

theorem HostFunction.madeOf_own {B : BlockKind} {fails : Error → Prop} (hf : CoversHost fails)
    (hB : Attends B fails) {f : HostFunction} (hs : ¬ f.IsSupplied) (args : List Value) :
    Action.MadeOf B fails (f.program args) := ((hB.actions hf).serves hf).own hf hs args

theorem Handler.madeOf_deliver {B : BlockKind} {fails : Error → Prop} (hf : CoversHost fails)
    (hG : (B.actions fails).Tells fails)
    (hask : ∀ r, (Op.ask r).IsMarshal → (Program.ask r).MadeOf B fun _ => True)
    (buffer : UInt32) (room : Nat) (bytes : List UInt8) :
    Action.MadeOf B fails (Handler.deliver buffer room bytes) := by
  refine Action.madeOf_attempt_bind (hG.writeMemory hf _ _) fun outcome houtcome => ?_
  refine hG.look (fun h h' hh => by rw [hh.kept]) fun host => ?_
  refine Action.madeOf_lift_bind (hask (.report _) trivial) fun _ _ => ?_
  exact Action.madeOf_bind (Action.madeOf_ofExcept houtcome) fun _ => Action.madeOf_pure _

/-- The blocks of a system call, on an instance with this setup. -/
inductive Serving (setup : Setup) (fails : Error → Prop) : BlockKind where
  | op (op : Op) : op.IsMarshal → Serving setup fails op.Answer (.ofOp op) (op.Answers fails)
  | setup : Serving setup fails Setup Program.setup (· = setup)
  | look {γ : Type} {g : HostState → γ} : HostState.Blind g →
    Serving setup fails γ (Program.host.bind fun h => .done (g h)) fun a => ∃ h, g h = a
  | edit {f : HostState → HostState} :
    (∀ h : HostState, h.SameCall (f h)) → HostState.Edit setup f →
    Serving setup fails Unit (Program.modifyHost f) fun _ => True
  | signal (s : Signal) : Serving setup fails Unit (Callback.setSignal s) fun _ => True
  | run {argv : List String} : (argv = [] → fails (.invalidArgument .emptyArgv)) →
    Serving setup fails (Except Error Int32) (Syscall.run argv).run (FailsWithin fails)

namespace Serving

variable {setup : Setup} {fails : Error → Prop}

theorem assists : Assists (Serving setup fails) fails where
  marshals := .of_ops (fun _ h => .op _ h) trivial
  look hg := Program.madeOf_block (.look hg)
  edit hf hedit := Program.madeOf_block (.edit hf (hedit setup))

theorem madeOf_survey {α : Type} {f : Setup → Action α}
    (h : ∀ s, s = setup → Action.MadeOf (Serving setup fails) fails (f s)) :
    Action.MadeOf (Serving setup fails) fails (liftM Program.setup >>= f) :=
  Action.madeOf_lift_bind (Program.madeOf_block .setup) h

theorem madeOf_ask (r : Request) (hr : (Op.ask r).IsMarshal) :
    (Program.ask r).MadeOf (Serving setup fails) fun _ => True :=
  Program.madeOf_block (.op _ hr)

theorem madeOf_ownerInput (hblocking : setup.blocking = true) (room : Nat) :
    (Handler.ownerInput room).MadeOf (Serving setup fails) fun _ => True := by
  refine Program.madeOf_look_bind (assists.look fun h h' hh => by rw [hh.kept]) fun host => ?_
  have hrest (available : List UInt8) : Program.MadeOf (Serving setup fails) (fun _ => True) (do
      Program.modifyHost fun h => { h with kept := available.drop room }
      return available.take room) := by
    refine Program.madeOf_bind (Program.madeOf_block (.edit (fun h => ?_) ?_)) fun _ _ =>
      .done trivial
    · exact ⟨rfl, rfl, rfl⟩
    · refine ⟨fun hh => ?_, fun _ => rfl, fun _ => rfl, fun _ h => by simp [hblocking] at h⟩
      exact ⟨hh.pointers, hh.bound, hh.constants, rfl, hh.result, hh.exception⟩
  dsimp only
  split
  · exact Program.madeOf_bind (Program.madeOf_block (.op (.ask .awaitInput) trivial))
      fun available _ => hrest available
  · exact hrest _

theorem tells (hf : CoversHost fails) : ((Serving setup fails).actions fails).Tells fails :=
  (assists.actions hf).tells hf

theorem attends (hf : CoversHost fails) : Attends (Serving setup fails) fails where
  toAssists := assists
  signal s := Program.madeOf_block (.signal s)
  run hargv := Program.madeOf_block (.run hargv)
  pause := (tells hf).pause hf madeOf_survey
    fun r hr => Action.madeOf_lift (madeOf_ask r hr)
  readInput := by
    refine (tells hf).readInput hf madeOf_survey
      (fun r hr => Action.madeOf_lift (madeOf_ask r hr)) ?_
      (Handler.madeOf_deliver hf (tells hf) madeOf_ask)
    rintro _ rfl hblocking room
    exact Action.madeOf_lift (madeOf_ownerInput hblocking room)

end Serving

namespace Supplied

theorem isMarshal_of_isOpen {r : Request} (h : r.isOpen = true) :
    (SandboxHost.Op.ask r).IsMarshal := by
  cases r with
  | report e =>
    cases e with
    | signal _ | runBegan _ | runEnded => cases h
    | _ => trivial
  | _ => trivial

variable {B : BlockKind} {α : Type} (hG : (B.actions fun _ => True).Serves fun _ => True)
  (hask : ∀ r, (SandboxHost.Op.ask r).IsMarshal → (Program.ask r).MadeOf B fun _ => True)

include hG hask

theorem madeOf_op (op : Op) : op.program.MadeOf B fun _ => True := by
  have hany {β : Type} {p : Program β} {P : β → Prop} (h : p.MadeOf B P) :
      p.MadeOf B fun _ => True := h.weaken fun _ _ => trivial
  have hf := coversHost_true
  cases op with
  | readMemory address length => exact hany (hG.readMemory hf _ _)
  | writeMemory address bytes => exact hany (hG.writeMemory hf _ _)
  | readString address => exact hany (hG.readString hf _)
  | sendString text slot => exact hany (hG.sendString hf _ _)
  | run argv => exact hany (hG.run fun _ => trivial)
  | setErrno e => exact hany (hG.setErrno _)
  | fail e returned => exact hany (hG.fail hf _ _)
  | requireBound => exact hany (hG.requireBound hf)
  | handler h args => exact hany (hG.handler hf h args)
  | ask r isOpen => exact hask r (isMarshal_of_isOpen isOpen)

theorem madeOf_program (p : Supplied α) : p.program.MadeOf B fun _ => True := by
  induction p with
  | done a => exact .done trivial
  | step op next ih => exact Program.madeOf_bind (madeOf_op hG hask op) fun answer _ => ih answer

end Supplied

/-- Supplied functions may fail in any way; the others fail as the host does. -/
theorem HostFunction.madeOf_attended {B : BlockKind} {fails : Error → Prop} (hf : CoversHost fails)
    (hG : (B.actions fails).Serves fails)
    (hask : ∀ r, (Op.ask r).IsMarshal → (Program.ask r).MadeOf B fun _ => True)
    {f : HostFunction} (hs : f.IsSupplied → ∀ e, fails e) (args : List Value) :
    Action.MadeOf B fails (f.program args) := by
  by_cases hg : f.IsSupplied
  · obtain ⟨g, hg⟩ := hg
    have hall : fails = fun _ => True := funext fun e => eq_true (hs ⟨g, hg⟩ e)
    subst hall
    rw [HostFunction.program, hg]
    exact (Supplied.madeOf_program hG hask (g args)).weaken fun r _ => failsWithin_true r
  · exact hG.own hf hg args

/-- Whatever its service, a function behind an import is made of the blocks of system calls. -/
theorem HostFunction.madeOf_program {setup : Setup} {fails : Error → Prop} (hf : CoversHost fails)
    {f : HostFunction} (hs : f.IsSupplied → ∀ e, fails e) (args : List Value) :
    Action.MadeOf (Serving setup fails) fails (f.program args) :=
  HostFunction.madeOf_attended hf (((Serving.attends hf).actions hf).serves hf)
    Serving.madeOf_ask hs args

namespace Machine

variable {L : Law} {m : Machine} {call : Callee}

theorem governs_plain (hask : ∀ s r answer, (Op.ask r).IsPlain → L.keeps s [⟨r, answer⟩] s)
    (hcall : L.GovernsCallee call) {op : Op} (h : op.IsPlain) :
    L.GovernsProgram m call (.ofOp op) (op.Answers L.fails) := by
  intro s t answer s' hend
  rw [perform_ofOp] at hend
  cases op with
  | call purpose f args => exact hcall f args s t answer s' hend
  | ask r =>
    obtain ⟨given, t, hdone, rfl⟩ := Dialogue.ends_ask.mp hend
    obtain ⟨rfl, heq⟩ := Dialogue.ends_done.mp hdone
    cases heq
    exact ⟨hask s r answer h, trivial⟩
  | write address bytes =>
    rw [performOp] at hend
    split at hend
    · cases hend
      exact ⟨L.guest rfl (Nat.le_of_eq (Memory.size_writeAll ..).symm) id, trivial⟩
    · cases hend
      exact ⟨L.refl s, trivial⟩
  | setHost _ | restore _ => exact h.elim
  | _ =>
    cases hend
    exact ⟨L.refl s, trivial⟩

theorem governs_look {γ : Type} {g : HostState → γ} :
    L.GovernsProgram m call (Program.host.bind fun h => .done (g h)) fun a => ∃ h, g h = a := by
  rintro s t _ s' ⟨⟩
  exact ⟨L.refl s, s.host, rfl⟩

theorem governs_setup : L.GovernsProgram m call Program.setup (· = m.setup) := by
  rintro s t _ s' ⟨⟩
  exact ⟨L.refl s, rfl⟩

/-- A law that every block of a system call obeys is obeyed by every call of the instance. -/
theorem governs_calls (hf : CoversHost L.fails)
    (hs : ∀ (i : Nat) (f : HostFunction), m.targets[i]? = some (.function f) → f.IsSupplied →
      ∀ e, L.fails e)
    (hblocks : ∀ call, L.GovernsCallee call → ∀ β (p : Program β) R,
      Serving m.setup L.fails β p R → L.GovernsProgram m call p R)
    (depth hostDepth : Nat) (caller : Caller) :
    L.GovernsCallee (m.callFunction depth hostDepth caller) := by
  refine callFunction_governed (fun i f hi call hcall args => ?_) depth hostDepth caller
  exact (HostFunction.madeOf_program hf (hs i f hi) args).governed (hblocks call hcall)

end Machine

end SandboxHost

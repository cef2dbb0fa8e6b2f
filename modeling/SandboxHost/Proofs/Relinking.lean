import SandboxHost.Proofs.Entering
import SandboxHost.Proofs.Instances
import SandboxHost.Proofs.Resolution
import SandboxHost.Proofs.Unwinding

namespace SandboxHost

/-- The name that functions called for this purpose go by. -/
def Purpose.symbol? : Purpose → Option String
  | .accessor _ => none
  | .allocate => some Guest.allocator
  | .release => some Guest.deallocator
  | .entry function => some function
  | .findSymbol => some "dlsym"
  | .closeLibrary => some "dlclose"
  | .reportErrno => some "setErrno"
  | .constants => some Guest.constantsExport

/-- What the step calls under a name stands for the name. -/
def Op.Obeys (stands : String → Nat → Prop) : Op → Prop
  | .call purpose f _ => ∀ name, purpose.symbol? = some name → stands name f
  | _ => True

section

variable {stands : String → Nat → Prop}

theorem Op.obeys_call {purpose : Purpose} {name : String} {f : Nat} {args : List Value}
    (hname : purpose.symbol? = some name) (h : stands name f) :
    (Op.call purpose f args).Obeys stands := by
  intro name' hname'
  cases hname.symm.trans hname'
  exact h

theorem Op.IsAccess.obeys {op : Op} (h : op.IsAccess) : op.Obeys stands := by
  unfold Op.Obeys
  split
  · next purpose f args =>
    cases purpose with
    | accessor _ => exact fun _ => nofun
    | _ => exact h.elim
  · trivial

end

/-- Only an index that is in range, of an entry that is not null, tells of a function. -/
theorem Guest.told?_eq_some {table : Table} {returned : Except Error (List Value)} {f : Nat} :
    told? table returned = some f ↔ ∃ (i : UInt32) (results : List Value),
      returned = .ok (.i32 i :: results) ∧ table[i.toNat]? = some (some f) := by
  constructor
  · intro h
    unfold told? at h
    split at h
    · next i results => exact ⟨i, results, rfl, Option.join_eq_some_iff.mp h⟩
    · cases h
  · rintro ⟨i, results, rfl, hf⟩
    exact Option.join_eq_some_iff.mpr hf

/-- The function was in the table when that was looked at for a bare address. -/
def LookedUp (steps : List Step) (f : Nat) : Prop :=
  ∃ x ∈ steps, x.op = .table none ∧ ∃ i, x.before.table.function? i = some f

theorem LookedUp.mono {steps steps' : List Step} {f : Nat} (h : LookedUp steps f)
    (hsteps : steps ⊆ steps') : LookedUp steps' f := by
  obtain ⟨x, hx, hlook⟩ := h
  exact ⟨x, hsteps hx, hlook⟩

/-- Somewhere in these steps a whole search for the name gave the function. -/
def Machine.Resolves (m : Machine) (call : Callee) (steps : List Step) (name : String) (f : Nat) :
    Prop :=
  ∃ search s s', search <:+: steps ∧ m.Takes call (Guest.function? name) s search (some f) s'

namespace Guest

variable {m : Machine} {call : Callee} {name : String}

/-- What is left of a search where the module is known. -/
def seek (name : String) (module : Module) : Program (Option Nat) :=
  match module.callTable?, module.exported? (accessorName name) with
  | some _, some accessor =>
    .step (.call (.accessor name) accessor []) fun returned =>
      .step (.table (some name)) fun table => .done (told? table returned)
  | _, _ => .done (module.exported? name)

theorem function?_eq (name : String) :
    function? name = .step .setup fun setup => seek name setup.module := by
  refine congrArg (Program.step .setup) (funext fun setup => ?_)
  dsimp only [seek, Program.bind]
  cases setup.module.callTable? with
  | none => rfl
  | some declared => cases setup.module.exported? (accessorName name) <;> rfl

theorem seek_relinked {module : Module} {declared : TableDecl} {accessor : Nat}
    (hdeclared : module.callTable? = some declared)
    (haccessor : module.exported? (accessorName name) = some accessor) :
    seek name module = .step (.call (.accessor name) accessor []) fun returned =>
      .step (.table (some name)) fun table => .done (told? table returned) := by
  rw [seek, hdeclared, haccessor]

theorem seek_direct {module : Module}
    (h : module.callTable? = none ∨ module.exported? (accessorName name) = none) :
    seek name module = .done (module.exported? name) := by
  rw [seek]
  split
  · next hdeclared haccessor => simp [hdeclared, haccessor] at h
  · rfl

theorem perform_relinked {declared : TableDecl} {accessor : Nat}
    (hdeclared : m.setup.module.callTable? = some declared)
    (haccessor : m.setup.module.exported? (accessorName name) = some accessor) (s : State) :
    m.perform call (function? name) s = ((call accessor []).run.run s).bind fun x =>
      .done (told? x.2.table x.1, x.2) := by
  rw [function?_eq, Machine.perform_step]
  change m.perform call (seek name m.setup.module) s = _
  rw [seek_relinked hdeclared haccessor]
  rfl

theorem perform_direct (h : m.setup.module.callTable? = none ∨
      m.setup.module.exported? (accessorName name) = none) (s : State) :
    m.perform call (function? name) s = .done (m.setup.module.exported? name, s) := by
  rw [function?_eq, Machine.perform_step]
  change m.perform call (seek name m.setup.module) s = _
  rw [seek_direct h]
  rfl

theorem perform_misfit {declared : TableDecl} {accessor depth hostDepth : Nat}
    (hdeclared : m.setup.module.callTable? = some declared)
    (haccessor : m.setup.module.exported? (accessorName name) = some accessor)
    (h : (m.setup.module.funcType? accessor).map FuncType.params ≠ some []) (s : State) :
    m.perform (m.callFunction depth hostDepth .host) (function? name) s = .done (none, s) := by
  obtain ⟨t, htrap⟩ : ∃ t, m.callFunction depth hostDepth .host accessor [] = Exec.trap t :=
    m.callFunction_of_misfit depth hostDepth .host h
  rw [perform_relinked hdeclared haccessor, htrap]
  rfl

end Guest

/-- Searches for names, and steps that call what names stand for. -/
inductive Relinking (setup : Setup) (stands : String → Nat → Prop) (located : Nat → Prop) :
    BlockKind where
  | op (op : Op) : op.Obeys stands →
    Relinking setup stands located op.Answer (.ofOp op) (op.Answers fun _ => True)
  | setup : Relinking setup stands located Setup Program.setup (· = setup)
  | search (name : String) :
    Relinking setup stands located (Option Nat) (Guest.function? name) fun found =>
      ∀ f, found = some f → stands name f
  | look : Relinking setup stands located Table (Program.table none) fun table =>
    ∀ i f, table.function? i = some f → located f

namespace Relinking

variable {setup : Setup} {stands : String → Nat → Prop} {located : Nat → Prop} {α : Type}

abbrev Made (setup : Setup) (stands : String → Nat → Prop) (located : Nat → Prop) (a : Action α) :
    Prop :=
  Action.MadeOf (Relinking setup stands located) (fun _ => True) a

theorem access : (Relinking setup stands located).Allows (fun _ => True) Op.IsAccess :=
  .of_ops (fun op h => .op op h.obeys) trivial

theorem step (op : Op) (h : op.Obeys stands) :
    (Program.ofOp op).MadeOf (Relinking setup stands located) fun _ => True :=
  (Program.madeOf_block (.op op h)).weaken fun _ _ => trivial

theorem modifyHost (f : HostState → HostState) :
    (Program.modifyHost f).MadeOf (Relinking setup stands located) fun _ => True :=
  Program.madeOf_bind (step .getHost trivial) fun _ _ => step (.setHost _) trivial

theorem look_bind {f : HostState → Action α} (h : ∀ host, Made setup stands located (f host)) :
    Made setup stands located (liftM Program.host >>= f) :=
  Action.madeOf_lift_bind (step .getHost trivial) fun host _ => h host

theorem survey_bind {f : Setup → Action α} (h : ∀ s, s = setup → Made setup stands located (f s)) :
    Made setup stands located (liftM Program.setup >>= f) :=
  Action.madeOf_lift_bind (Program.madeOf_block .setup) h

theorem function?_bind {name : String} {f : Option Nat → Action α}
    (hnone : Made setup stands located (f none))
    (hsome : ∀ i, stands name i → Made setup stands located (f (some i))) :
    Made setup stands located (liftM (Guest.function? name) >>= f) := by
  refine Action.madeOf_lift_bind (Program.madeOf_block (.search name)) fun found hfound => ?_
  cases found with
  | none => exact hnone
  | some i => exact hsome i (hfound i rfl)

theorem function_bind {name : String} {f : Nat → Action α}
    (h : ∀ i, stands name i → Made setup stands located (f i)) :
    Made setup stands located (Guest.function name >>= f) :=
  Guest.madeOf_function_bind (Program.madeOf_block (.search name)) trivial h

theorem callRaw {purpose : Purpose} {name : String} {f : Nat} (hname : purpose.symbol? = some name)
    (h : stands name f) (args : List Value) : Made setup stands located (Guest.callRaw purpose f args) :=
  Guest.madeOf_callRaw _ _ _ (.op _ (Op.obeys_call hname h))

theorem madeOf_tableFunction? (address : UInt32) :
    (Guest.tableFunction? address).MadeOf (Relinking setup stands located) fun found =>
      ∀ f, found = some f → located f := by
  refine Program.madeOf_bind (Program.madeOf_block .setup) fun _ _ => ?_
  split
  · exact Program.madeOf_bind (Program.madeOf_block .look) fun _ hlook => .done (hlook _)
  · exact .done nofun

theorem allocate (size : Nat) : Made setup stands located (Guest.allocate size) :=
  Guest.madeOf_allocateBy coversHost_true (Program.madeOf_block (.search Guest.allocator)) size
    fun _ hf => .op _ (Op.obeys_call rfl hf)

theorem giveBack (address : UInt32) : Made setup stands located (Guest.giveBack address) :=
  Guest.madeOf_giveBackBy coversHost_true (Program.madeOf_block (.search Guest.deallocator)) address
    fun _ hf => .op _ (Op.obeys_call rfl hf)

theorem release (address : UInt32) : Made setup stands located (Guest.release address) :=
  Guest.madeOf_releaseBy (giveBack address) fun _ => step (.ask (.report _)) trivial

theorem send (bytes : List UInt8) : Made setup stands located (Guest.send bytes) :=
  Guest.madeOf_fill (allocate _) (Guest.madeOf_writeMemory access coversHost_true · bytes) release

theorem sendString (text : String) (slot : Option Guest.Slot) :
    Made setup stands located (Guest.sendString text slot) := by
  cases slot with
  | none => exact send _
  | some slot =>
    unfold Guest.sendString
    refine Action.madeOf_guard trivial fun _ => ?_
    exact Action.madeOf_bind (Guest.madeOf_writeCString access coversHost_true _ _) fun _ =>
      Action.madeOf_pure _

theorem inScope {body : Guest.Scope α}
    (h : Guest.Scope.Sends (Relinking setup stands located) (fun _ => True) body) :
    Made setup stands located (Guest.inScope body) := Guest.madeOf_closing release (h.of_send send)

theorem scratch : Made setup stands located Guest.scratch := by
  refine look_bind fun host => ?_
  split
  · exact Action.madeOf_pure _
  · refine survey_bind fun s _ => Action.madeOf_bind (allocate _) fun address => ?_
    exact Action.madeOf_lift_bind (modifyHost _) fun _ _ => Action.madeOf_pure _

theorem invoke {name : String} {f : Nat} (h : stands name f) (args : List Value) :
    Made setup stands located (Guest.invoke name f args) :=
  Guest.madeOf_enter coversHost_true (modifyHost _) (.op .getHost trivial)
    (.op _ (Op.obeys_call rfl h))

theorem argumentsFor (f : Nat) (pointers : List UInt32) (extra : List Int64) :
    Made setup stands located (Guest.argumentsFor f pointers extra) :=
  Guest.madeOf_argumentsFor access.lookup coversHost_true f pointers extra

theorem call (name : String) (args : List Int64) : Made setup stands located (Guest.call name args) :=
  function_bind fun _ hf => Action.madeOf_bind (argumentsFor _ _ _) fun _ => invoke hf _

theorem callWithString (name : String) (arg : Guest.StringArg) (extra : List Int64) :
    Made setup stands located (Guest.callWithString name arg extra) := by
  refine function_bind fun f hf => survey_bind fun s _ => ?_
  cases arg with
  | one text =>
    dsimp only
    split
    · refine Action.madeOf_bind scratch fun address => ?_
      refine Action.madeOf_bind (Guest.madeOf_writeCString access coversHost_true _ _) fun _ => ?_
      exact Action.madeOf_bind (argumentsFor _ _ _) fun _ => invoke hf _
    · refine inScope (.send_bind _ fun address => ?_)
      exact .bind (.action (argumentsFor _ _ _)) fun _ => .action (invoke hf _)
  | many texts =>
    refine inScope (.bind (Guest.sends_sendStrings texts) fun argv => ?_)
    exact .bind (.action (argumentsFor _ _ _)) fun _ => .action (invoke hf _)

theorem findEntryPoint {f : Nat} (h : stands "dlsym" f) (library : Int32) :
    Made setup stands located (Guest.findEntryPoint f library) := by
  refine inScope (.send_bind _ fun symbol => ?_)
  refine .bind (.action (callRaw rfl h _)) fun found => ?_
  split <;> exact .pure _

theorem callEntryPoint {main : Nat} (h : stands Guest.entryPoint main) (argv : List String) :
    Made setup stands located (Guest.callEntryPoint main argv) := by
  refine inScope (.bind (Guest.sends_sendStrings argv) fun address => ?_)
  exact .bind (.action (invoke h _)) fun _ => .pure _

section Run

variable (hentry : ∀ f, located f → stands Guest.entryPoint f)

include hentry

theorem loadAndExecute (path : String) (argv : List String) :
    Made setup stands located (Guest.loadAndExecute path argv) := by
  refine Action.madeOf_bind (callWithString "dlopen" (.one path) []) fun output => ?_
  refine Action.madeOf_bind (Action.madeOf_ofExcept (failsWithin_true _)) fun library => ?_
  refine function?_bind (Action.madeOf_pure _) fun findSymbol hfind => ?_
  refine Action.madeOf_bind (findEntryPoint hfind library) fun address => ?_
  split
  · exact Action.madeOf_pure _
  · refine Action.madeOf_lift_bind (madeOf_tableFunction? address) fun main hmain => ?_
    cases main with
    | none => exact Action.madeOf_pure _
    | some main =>
      refine Action.madeOf_bind (callEntryPoint (hentry main (hmain main rfl)) argv) fun code => ?_
      refine function?_bind (Action.madeOf_pure _) fun close hclose => ?_
      exact Action.madeOf_attempt_bind (callRaw rfl hclose _) fun _ _ => Action.madeOf_pure _

theorem run (argv : List String) : Made setup stands located (Guest.run argv) := by
  cases argv with
  | nil => exact Action.madeOf_throw trivial
  | cons path rest =>
    refine Action.madeOf_lift_bind (step (.ask (.report (.runBegan _))) trivial) fun _ _ => ?_
    have hrolled : Made setup stands located
        (Guest.rolledBack (Guest.loadAndExecute path (path :: rest))) := by
      refine Program.madeOf_bind (step .memory trivial) fun saved _ => ?_
      refine Program.madeOf_bind (step .getHost trivial) fun host _ => ?_
      refine Program.madeOf_bind (loadAndExecute hentry path (path :: rest)) fun outcome _ => ?_
      refine Program.madeOf_bind (step (.restore saved) trivial) fun _ _ => ?_
      exact Program.madeOf_bind (modifyHost _) fun _ _ => .done (failsWithin_true _)
    refine Action.madeOf_attempt_bind hrolled fun outcome houtcome => ?_
    exact Action.madeOf_lift_bind (step (.ask (.report .runEnded)) trivial) fun _ _ =>
      Action.madeOf_ofExcept houtcome

end Run

theorem operation (op : Guest.Operation)
    (hrun : ∀ argv, op = .run argv → Made setup stands located (Guest.run argv)) :
    Made setup stands located op.action := by
  cases op with
  | find name => exact Action.madeOf_lift (Program.madeOf_block (.search name))
  | call name args => exact call name args
  | callWithString name arg extra => exact callWithString name arg extra
  | run argv => exact hrun argv rfl
  | terminal argv =>
    exact Action.madeOf_bind (callWithString _ _ _) fun _ =>
      Action.madeOf_ofExcept (failsWithin_true _)
  | define name =>
    refine Action.madeOf_bind (callWithString _ _ _) fun output => ?_
    split
    · exact Action.madeOf_pure _
    · exact Action.madeOf_throw trivial
  | allocate size => exact allocate size
  | giveBack address => exact giveBack address
  | send bytes => exact send bytes
  | sendString text slot => exact sendString text slot
  | readMemory address length => exact Guest.madeOf_readMemory access coversHost_true address length
  | writeMemory address bytes => exact Guest.madeOf_writeMemory access coversHost_true address bytes
  | readString address => exact Guest.madeOf_readString access coversHost_true address

theorem binding : Made setup stands located Guest.bind := by
  have hfetch : Made setup stands located Guest.fetchConstants := by
    refine function_bind fun f hf => Action.madeOf_bind (callRaw rfl hf _) fun result => ?_
    split
    · refine Action.madeOf_guard trivial fun _ => ?_
      refine Action.madeOf_bind (Guest.madeOf_readString access coversHost_true _) fun text => ?_
      exact Action.madeOf_ofExcept (failsWithin_true _)
    · exact Action.madeOf_throw trivial
  rw [Made, Action.MadeOf, Guest.run_bind]
  refine Program.madeOf_bind (P := fun _ => True) ?_ fun b _ => ?_
  · refine Program.madeOf_bind (step .getHost trivial) fun host _ => ?_
    exact Program.madeOf_bind (step (.setHost _) trivial) fun _ _ => .done trivial
  · refine Program.madeOf_bind (Guest.Binding.madeOf_bind hfetch b) fun x _ => ?_
    exact Program.madeOf_bind (modifyHost _) fun _ _ => .done (failsWithin_true _)

theorem ask (r : Request) (_ : (Op.ask r).IsMarshal) :
    (Program.ask r).MadeOf (Relinking setup stands located) fun _ => True := step (.ask r) trivial

theorem requireBound : Made setup stands located Syscall.requireBound :=
  (BlockKind.joins _ _).requireBound coversHost_true fun _ h => look_bind h

theorem tells : ((Relinking setup stands located).actions fun _ => True).Tells fun _ => True where
  toJoins := BlockKind.joins _ _
  look _ h := look_bind h
  ask r hr _ := Action.madeOf_lift (ask r hr)
  setErrno e := by
    refine look_bind fun host => Action.madeOf_lift_bind (modifyHost _) fun _ _ => ?_
    refine Action.madeOf_bind requireBound fun _ => ?_
    refine function?_bind (Action.madeOf_pure _) fun f hf => ?_
    exact Action.madeOf_bind (callRaw rfl hf _) fun _ => Action.madeOf_pure _
  guestRead := Guest.madeOf_readMemory access coversHost_true
  guestWrite := Guest.madeOf_writeMemory access coversHost_true
  guestText := Guest.madeOf_readString access coversHost_true
  guestSend := sendString

theorem ownerInput (room : Nat) :
    (Handler.ownerInput room).MadeOf (Relinking setup stands located) fun _ => True := by
  refine Program.madeOf_bind (step .getHost trivial) fun host _ => ?_
  have hrest (available : List UInt8) : Program.MadeOf (Relinking setup stands located) (fun _ => True) (do
      Program.modifyHost fun h => { h with kept := available.drop room }
      return available.take room) :=
    Program.madeOf_bind (modifyHost _) fun _ _ => .done trivial
  dsimp only
  split
  · exact Program.madeOf_bind (ask .awaitInput trivial) fun available _ => hrest available
  · exact hrest _

theorem serves (hentry : ∀ f, located f → stands Guest.entryPoint f) :
    ((Relinking setup stands located).actions fun _ => True).Serves fun _ => True where
  toTells := tells
  terminalPath buffer := tells.keptTerminalPath coversHost_true fun _ _ =>
    Action.madeOf_lift (modifyHost _)
  signal s := by
    refine Action.madeOf_lift (P := fun _ => True) ?_
    exact Program.madeOf_bind (modifyHost _) fun _ _ => step (.ask (.report (.signal s))) trivial
  run {argv} _ := by
    refine Action.madeOf_bind requireBound fun _ => look_bind fun before => ?_
    refine Action.madeOf_lift_bind (step (.setHost _) trivial) fun _ _ => ?_
    refine Action.madeOf_attempt_bind (run hentry argv) fun outcome houtcome => ?_
    exact Action.madeOf_lift_bind (modifyHost _) fun _ _ => Action.madeOf_ofExcept houtcome
  pause := tells.pause coversHost_true survey_bind fun r hr => Action.madeOf_lift (ask r hr)
  readInput := by
    refine tells.readInput coversHost_true survey_bind
      (fun r hr => Action.madeOf_lift (ask r hr)) (fun _ _ _ room => ?_)
      (Handler.madeOf_deliver coversHost_true tells ask)
    exact Action.madeOf_lift (ownerInput room)

theorem hostFunction (hentry : ∀ f, located f → stands Guest.entryPoint f)
    (f : HostFunction) (args : List Value) : Made setup stands located (f.program args) :=
  HostFunction.madeOf_attended coversHost_true (serves hentry) ask (fun _ _ => trivial) args

end Relinking

namespace Machine

variable {m : Machine} {call : Callee} {stands : String → Nat → Prop} {located : Nat → Prop}
  {α : Type} {s : State}

theorem Resolves.mono {steps steps' : List Step} {name : String} {f : Nat}
    (h : m.Resolves call steps name f) (hsteps : steps <:+: steps') :
    m.Resolves call steps' name f := by
  obtain ⟨search, s, s', hsearch, htakes⟩ := h
  exact ⟨search, s, s', hsearch.trans hsteps, htakes⟩

/-- With an accessor, what was found is what one call of it told of, in the table that it left. -/
theorem Resolves.relinked {steps : List Step} {name : String} {f accessor : Nat}
    {declared : TableDecl} (h : m.Resolves call steps name f)
    (hdeclared : m.setup.module.callTable? = some declared)
    (haccessor : m.setup.module.exported? (Guest.accessorName name) = some accessor) :
    ∃ returned s s' t, ⟨.call (.accessor name) accessor [], returned, s, s', t⟩ ∈ steps ∧
      Guest.told? s'.table returned = some f := by
  obtain ⟨search, s, s', hsearch, htakes⟩ := h
  rw [Guest.function?_eq] at htakes
  obtain ⟨_, _, _, rest, hsetup, hrest, rfl⟩ := takes_step.mp htakes
  cases hsetup
  rw [Guest.seek_relinked hdeclared haccessor] at hrest
  obtain ⟨t, returned, s₁, _, -, hlook, rfl⟩ := takes_step.mp hrest
  obtain ⟨_, _, _, _, htable, hdone, rfl⟩ := takes_step.mp hlook
  cases htable
  obtain ⟨rfl, hfound, -⟩ := takes_done.mp hdone
  exact ⟨returned, s, s₁, t, hsearch.subset (.tail _ (.head _)), hfound.symm⟩

theorem Resolves.direct {steps : List Step} {name : String} {f : Nat}
    (h : m.Resolves call steps name f) (hnone : m.setup.module.callTable? = none ∨
      m.setup.module.exported? (Guest.accessorName name) = none) :
    m.setup.module.exported? name = some f := by
  obtain ⟨search, s, s', -, htakes⟩ := h
  have hends := ends_perform.mpr ⟨search, htakes, rfl⟩
  rw [Guest.perform_direct hnone] at hends
  exact (Prod.mk.inj (Dialogue.ends_done.mp hends).2).1.symm

theorem meets_relinking {β : Type} {p : Program β} {P : β → Prop}
    (h : Relinking m.setup stands located β p P) :
    m.Meets call p s fun _ op _ => op.Obeys stands := by
  cases h with
  | op op hop => exact meets_step.mpr ⟨hop, fun _ _ _ _ => meets_done _⟩
  | setup | look => exact meets_step.mpr ⟨trivial, fun _ _ _ _ => meets_done _⟩
  | search name =>
    have hmade : (Guest.function? name).MadeOf (StepsOf Op.IsLookup fun _ => True) fun _ => True :=
      Guest.madeOf_function? (StepsOf.allows id trivial) name
    exact (meets_sorted hmade s).mono fun _ _ _ hop => hop.isAccess.obeys

theorem value_of_relinking {β : Type} {p : Program β} {P : β → Prop}
    (h : Relinking m.setup stands located β p P) {steps : List Step} {b : β} {s' : State}
    (htakes : m.Takes call p s steps b s')
    (hstands : ∀ name f, m.Resolves call steps name f → stands name f)
    (hlocated : ∀ f, LookedUp steps f → located f) : P b := by
  cases h with
  | op op _ => exact op.answers_true b
  | setup =>
    obtain ⟨_, _, _, _, hsetup, hdone, -⟩ := takes_step.mp htakes
    cases hsetup
    exact (takes_done.mp hdone).2.1
  | search name =>
    rintro f rfl
    exact hstands name f ⟨steps, s, s', List.infix_rfl, htakes⟩
  | look =>
    obtain ⟨_, _, _, _, hlook, hdone, rfl⟩ := takes_step.mp htakes
    cases hlook
    obtain ⟨-, rfl, -⟩ := takes_done.mp hdone
    exact fun i f hf => hlocated f ⟨_, .head _, rfl, i, hf⟩

/-- What is made of the blocks calls nothing but what was found, by induction on the blocks. -/
theorem meets_obeys {p : Program α} {P : α → Prop}
    (hp : p.MadeOf (Relinking m.setup stands located) P) (s : State) (before : List Step) :
    m.Meets call p s fun steps op _ =>
      (∀ name f, m.Resolves call (before ++ steps) name f → stands name f) →
        (∀ f, LookedUp (before ++ steps) f → located f) → op.Obeys stands := by
  induction hp generalizing s before with
  | done _ => exact meets_done _
  | block hb _ ih =>
    refine meets_bind.mpr ⟨(meets_relinking hb).mono fun _ _ _ hop _ _ => hop, ?_⟩
    intro steps b s₁ htakes steps' op s' hnears hstands hlocated
    rw [← List.append_assoc] at hstands hlocated
    have hsteps : steps <:+: before ++ steps ++ steps' := ⟨before, steps', rfl⟩
    have hvalue := value_of_relinking hb htakes (fun name f h => hstands name f (h.mono hsteps))
      fun f h => hlocated f (h.mono hsteps.subset)
    exact ih b hvalue s₁ (before ++ steps) steps' op s' hnears hstands hlocated

theorem meets_found {a : Action α} (h : ∀ stands located, Relinking.Made m.setup stands located a)
    (s : State) :
    m.Meets call a.run s fun steps op _ => op.Obeys (m.Resolves call steps) :=
  fun steps op s' hnears =>
    meets_obeys (h (m.Resolves call steps) (LookedUp steps)) s [] steps op s' hnears (fun _ _ => id)
      fun _ => id

theorem meets_resolved {a : Action α}
    (h : ∀ (stands : String → Nat → Prop) (located : Nat → Prop),
      (∀ f, located f → stands Guest.entryPoint f) → Relinking.Made m.setup stands located a)
    (s : State) :
    m.Meets call a.run s fun steps op _ => op.Obeys fun name f =>
      m.Resolves call steps name f ∨ name = Guest.entryPoint ∧ LookedUp steps f := by
  intro steps op s' hnears
  let stands := fun name f => m.Resolves call steps name f ∨
    name = Guest.entryPoint ∧ LookedUp steps f
  have hmade := h stands (LookedUp steps) fun f hf => .inr ⟨rfl, hf⟩
  exact meets_obeys hmade s [] steps op s' hnears (fun _ _ => .inl) fun _ => id

/-- How names are looked up where this many levels of calls are left, and what the host calls under
them. -/
structure Relinks (m : Machine) (depth hostDepth : Nat) : Prop where
  /-- An accessor is called once and decides alone, by the table as it is when the accessor returns,
  also if the name itself is exported. -/
  accessor {name : String} {declared : TableDecl} {accessor : Nat} :
    m.setup.module.callTable? = some declared →
    m.setup.module.exported? (Guest.accessorName name) = some accessor → ∀ s,
      m.perform (m.callFunction depth hostDepth .host) (Guest.function? name) s =
        ((m.callFunction depth hostDepth .host accessor []).run.run s).bind fun x =>
          .done (Guest.told? x.2.table x.1, x.2)
  told {table : Table} {returned : Except Error (List Value)} {f : Nat} :
    Guest.told? table returned = some f ↔ ∃ (i : UInt32) (results : List Value),
      returned = .ok (.i32 i :: results) ∧ table[i.toNat]? = some (some f)
  misfit {name : String} {declared : TableDecl} {accessor : Nat} :
    m.setup.module.callTable? = some declared →
    m.setup.module.exported? (Guest.accessorName name) = some accessor →
    (m.setup.module.funcType? accessor).map FuncType.params ≠ some [] → ∀ s,
      m.perform (m.callFunction depth hostDepth .host) (Guest.function? name) s = .done (none, s)
  direct {name : String} : m.setup.module.callTable? = none ∨
      m.setup.module.exported? (Guest.accessorName name) = none → ∀ s,
    m.perform (m.callFunction depth hostDepth .host) (Guest.function? name) s =
      .done (m.setup.module.exported? name, s)
  /-- What has been found while there is an accessor is never the export. -/
  found {steps : List Step} {name : String} {f accessor : Nat} {declared : TableDecl} :
    m.Resolves (m.callFunction depth hostDepth .host) steps name f →
    m.setup.module.callTable? = some declared →
    m.setup.module.exported? (Guest.accessorName name) = some accessor →
    ∃ returned s s' t, ⟨.call (.accessor name) accessor [], returned, s, s', t⟩ ∈ steps ∧
      Guest.told? s'.table returned = some f
  foundDirect {steps : List Step} {name : String} {f : Nat} :
    m.Resolves (m.callFunction depth hostDepth .host) steps name f →
    m.setup.module.callTable? = none ∨
      m.setup.module.exported? (Guest.accessorName name) = none →
    m.setup.module.exported? name = some f
  operations (op : Guest.Operation) : (∀ argv, op ≠ .run argv) → ∀ s,
    m.Meets (m.callFunction depth hostDepth .host) op.action.run s fun steps next _ =>
      next.Obeys (m.Resolves (m.callFunction depth hostDepth .host) steps)
  /-- Only the entry point of a library is not looked up by its name: it is in the table. -/
  runs (argv : List String) (s : State) :
    m.Meets (m.callFunction depth hostDepth .host) (Guest.run argv).run s fun steps next _ =>
      next.Obeys fun name f => m.Resolves (m.callFunction depth hostDepth .host) steps name f ∨
        name = Guest.entryPoint ∧ LookedUp steps f
  /-- The same of system calls, and of what an embedding program supplies. -/
  hostFunctions (f : HostFunction) (args : List Value) (s : State) :
    m.Meets (m.callFunction depth hostDepth .host) (f.program args).run s fun steps next _ =>
      next.Obeys fun name f => m.Resolves (m.callFunction depth hostDepth .host) steps name f ∨
        name = Guest.entryPoint ∧ LookedUp steps f
  binding (s : State) :
    m.Meets (m.callFunction depth hostDepth .host) Guest.bind.run s fun steps next _ =>
      next.Obeys (m.Resolves (m.callFunction depth hostDepth .host) steps)

/-- At every depth of calls. -/
theorem names_are_relinked (m : Machine) (depth hostDepth : Nat) : m.Relinks depth hostDepth where
  accessor := Guest.perform_relinked
  told := Guest.told?_eq_some
  misfit := Guest.perform_misfit
  direct := Guest.perform_direct
  found h := h.relinked
  foundDirect h := h.direct
  operations op hop :=
    meets_found fun _ _ => Relinking.operation op fun argv h => absurd h (hop argv)
  runs argv := meets_resolved fun _ _ h => Relinking.run h argv
  hostFunctions f args := meets_resolved fun _ _ h => Relinking.hostFunction h f args
  binding := meets_found fun _ _ => Relinking.binding

/-- A module that still exports the function that another one has taken the place of. -/
def relinked : Module :=
  let word (w : UInt32) : Instr := .apply (.const (.i32 w)) []
  { memory := some ⟨1, none, some Module.memoryExport, none⟩
    table := some ⟨1, some Module.tableExport, [(0, 2)]⟩
    globals := []
    data := []
    imports := #[]
    funcs := #[⟨⟨[.i32], [.i32]⟩, [], [word 0xffffffff]⟩, ⟨⟨[], [.i32]⟩, [], [word 0]⟩,
      ⟨⟨[.i32], [.i32]⟩, [],
        [.apply (.word .add) [.apply (.localGet 0) [], .apply (.localGet 0) []]]⟩]
    exports := [("twice", 0), (Guest.accessorName "twice", 1)]
    start := none }

/-- A call enters the function that has taken the place, by what the accessor told. -/
theorem names_are_relinked_twice :
    let m := Instantiation.machine .standard { directoryExists := fun _ => true } relinked #[]
    let call := m.callFunction 20 10 .host
    let s : State :=
      { memory := .zeros 1, globals := #[], table := relinked.initialTable, fuel := none, host := {} }
    relinked.exported? "twice" = some 0 ∧ ∃ steps s',
      m.Nears call (Guest.call "twice" [21]).run s steps (.call (.entry "twice") 2 [.i32 21]) s' ∧
      m.Resolves call steps "twice" 2 := by
  intro m call s
  refine ⟨rfl, ?_⟩
  have hentry : ((m.approach call Request.unsupported "twice" (Guest.call "twice" [21]).run s).any
      fun x => x.2.1 == (2, [.i32 21])) = true := by
    decide +kernel
  obtain ⟨⟨steps, ⟨f, args⟩, s'⟩, hreached, hchecked⟩ := (Option.any_eq_true _ _).mp hentry
  cases eq_of_beq hchecked
  have hnears := nears_of_approach hreached
  have hrelinks := names_are_relinked m 20 10
  have hobeys := hrelinks.operations (.call "twice" [21]) nofun s steps _ s' hnears
  exact ⟨steps, s', hnears, hobeys "twice" rfl⟩

end Machine

end SandboxHost

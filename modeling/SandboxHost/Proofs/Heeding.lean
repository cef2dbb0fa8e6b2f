import SandboxHost.Proofs.Runs
import SandboxHost.Proofs.Scopes
import SandboxHost.Proofs.SystemCalls

namespace SandboxHost

/-- Steps of a program that has failed. Of all calls, only blocks are given back. -/
def Op.IsCleanup : Op → Prop
  | .call .release _ _ | .call (.accessor _) _ _ => True
  | .call _ _ _ => False
  | _ => True

theorem Op.IsRelease.isCleanup {op : Op} (h : op.IsRelease) : op.IsCleanup := by
  cases op with
  | call purpose f args => cases purpose <;> trivial
  | _ => trivial

/-- Whose failures are passed on. -/
def Purpose.IsHeeded : Purpose → Prop
  | .accessor _ | .closeLibrary => False
  | _ => True

namespace Program

variable {α β : Type} {failure : α → Option Error} {failure' : β → Option Error}

/-- Whatever answers it gets, the program only cleans up, and comes to this failure. -/
abbrev Unwinds (failure : α → Option Error) (e : Error) (p : Program α) : Prop :=
  p.MadeOf (StepsOf Op.IsCleanup fun _ => True) (failure · = some e)

/-- What goes on after a call minds its failure, as the purpose of the call has it. -/
def Minds (failure : α → Option Error) : (op : Op) → (op.Answer → Program α) → Prop
  | .call (.accessor _) _ _, next => ∀ e, next (.error e) = next (.ok [])
  | .call .closeLibrary _ _, next => ∀ answer answer', next answer = next answer'
  | .call _ _ _, next => ∀ e, (next (.error e)).Unwinds failure e
  | _, _ => True

theorem minds_call {purpose : Purpose} (h : purpose.IsHeeded) {f : Nat} {args : List Value}
    {next : Except Error (List Value) → Program α} :
    Minds failure (.call purpose f args) next ↔ ∀ e, (next (.error e)).Unwinds failure e := by
  cases purpose <;> first | exact h.elim | exact Iff.rfl

/-- As long as the program has not failed, it minds the failures of its calls. -/
inductive Heeds (failure : α → Option Error) : Program α → Prop where
  | done (a : α) : Heeds failure (.done a)
  | failing {p : Program α} (e : Error) : p.Unwinds failure e → Heeds failure p
  | step {op : Op} {next : op.Answer → Program α} :
    Minds failure op next → (∀ answer, Heeds failure (next answer)) → Heeds failure (.step op next)

/-- What follows goes on where there was no failure, and else unwinds. -/
theorem heeds_bind {p : Program α} {f : α → Program β} (hp : p.Heeds failure)
    (hok : ∀ a, failure a = none → (f a).Heeds failure')
    (hfailed : ∀ a e, failure a = some e → (f a).Unwinds failure' e) :
    (p.bind f).Heeds failure' := by
  induction hp with
  | done a =>
    cases h : failure a with
    | none => exact hok a h
    | some e => exact .failing e (hfailed a e h)
  | failing e hunwinds => exact .failing e (madeOf_bind hunwinds fun a ha => hfailed a e ha)
  | @step op next hminds _ ih =>
    refine .step ?_ ih
    cases op with
    | call purpose g args =>
      cases purpose with
      | accessor symbol => exact fun e => congrArg (Program.bind · f) (hminds e)
      | closeLibrary =>
        exact fun answer answer' => congrArg (Program.bind · f) (hminds answer answer')
      | _ => exact fun e => madeOf_bind (hminds e) fun a ha => hfailed a e ha
    | _ => trivial

theorem heeds_bind_of_none {p : Program α} {f : α → Program β} (hp : p.Heeds fun _ => none)
    (hf : ∀ a, (f a).Heeds failure') : (p.bind f).Heeds failure' :=
  heeds_bind hp (fun a _ => hf a) fun _ _ h => nomatch h

theorem heeds_modifyHost (f : HostState → HostState) : (modifyHost f).Heeds fun _ => none :=
  .step trivial fun _ => .step trivial fun _ => .done _

theorem heeds_report (e : Event) : (report e).Heeds fun _ => none := .step trivial fun _ => .done _

theorem cleanup_op {op : Op} (h : op.IsCleanup) :
    (ofOp op).MadeOf (StepsOf Op.IsCleanup fun _ => True) fun _ => True :=
  (madeOf_block (.op op h)).weaken fun _ _ => trivial

theorem cleanup_modifyHost (f : HostState → HostState) :
    (modifyHost f).MadeOf (StepsOf Op.IsCleanup fun _ => True) fun _ => True :=
  madeOf_bind (madeOf_block (.op .getHost trivial)) fun h _ => @cleanup_op (.setHost (f h)) trivial

theorem cleanup_report (e : Event) :
    (report e).MadeOf (StepsOf Op.IsCleanup fun _ => True) fun _ => True :=
  @cleanup_op (.ask (.report e)) trivial

theorem heeds_finally {p : Program α} {q : Program Unit} (hp : p.Heeds failure)
    (hq : q.Heeds fun _ => none)
    (hcleanup : q.MadeOf (StepsOf Op.IsCleanup fun _ => True) fun _ => True) :
    (p.bind fun a => q.bind fun _ => .done a).Heeds failure :=
  heeds_bind hp (fun a _ => heeds_bind_of_none hq fun _ => .done a)
    fun _ _ h => madeOf_bind hcleanup fun _ _ => .done h

end Program

def Heeding : ActionKind := fun _ a => a.run.Heeds failure?

namespace Heeding

variable {α β : Type}

theorem joins : Heeding.Joins fun _ => True where
  value _ := .done _
  raise _ := .done _
  bind := by
    intro α β a f ha hf
    rw [Heeding, Action.run_bind]
    refine Program.heeds_bind ha (fun r hr => ?_) fun r e hr => ?_
    · cases r with
      | ok x => exact hf x
      | error e => cases hr
    · cases r with
      | ok x => cases hr
      | error e' => exact .done hr

theorem lift {p : Program α} (hp : p.Heeds fun _ => none) : Heeding α (liftM p) :=
  Program.heeds_bind_of_none hp fun _ => .done _

theorem lift_bind {p : Program α} {f : α → Action β} (hp : p.Heeds fun _ => none)
    (hf : ∀ x, Heeding β (f x)) : Heeding β (liftM p >>= f) := joins.bind (lift hp) hf

/-- Nothing is made of a failure but to clean up before it is raised again. -/
theorem attempt_bind {a : Action α} {f : Except Error α → Action β} (ha : Heeding α a)
    (hok : ∀ x, Heeding β (f (.ok x))) (herror : ∀ e, (f (.error e)).run.Unwinds failure? e) :
    Heeding β (a.attempt >>= f) := by
  rw [Heeding, Action.run_attempt_bind]
  refine Program.heeds_bind ha (fun r hr => ?_) fun r e hr => ?_
  · cases r with
    | ok x => exact hok x
    | error e => cases hr
  · cases r with
    | ok x => cases hr
    | error e' =>
      cases hr
      exact herror e

theorem guard {c : Prop} [Decidable c] {e : Error} {f : Unit → Action α} (hf : Heeding α (f ())) :
    Heeding α (if c then throw e >>= f else f ()) := by
  split
  · exact joins.bind (joins.raise trivial) fun _ => hf
  · exact hf

end Heeding

namespace Guest

open Heeding

theorem heeds_function? (name : String) : (function? name).Heeds fun _ => none := by
  refine Program.heeds_bind_of_none (p := Program.setup) (.step trivial fun _ => .done _)
    fun s => ?_
  dsimp only
  split
  · refine .step (fun _ => rfl) fun r => ?_
    have hlook : (Program.table (some name) >>= fun table => Pure.pure (told? table r)).Heeds
        fun _ => none := .step trivial fun _ => .done _
    cases r <;> exact hlook
  · exact .done _

theorem heeds_tableFunction? (i : UInt32) : (tableFunction? i).Heeds fun _ => none := by
  refine .step trivial fun setup => ?_
  dsimp only [Program.bind]
  split
  · exact .step trivial fun _ => .done _
  · exact .done _

theorem heeding_function (name : String) : Heeding _ (function name) := by
  refine lift_bind (heeds_function? name) fun found => ?_
  cases found with
  | some f => exact joins.value f
  | none => exact joins.raise trivial

theorem heeding_callRaw {purpose : Purpose} (h : purpose.IsHeeded) (f : Nat) (args : List Value) :
    Heeding _ (callRaw purpose f args) := by
  refine .step ((Program.minds_call h).mpr fun e => .done rfl) fun r => ?_
  cases r <;> exact .done _

theorem heeding_readMemory (address : UInt32) (length : Nat) :
    Heeding _ (readMemory address length) := by
  refine lift_bind (.step trivial fun _ => .done _) fun memory => ?_
  split
  · exact joins.value _
  · exact joins.raise trivial

theorem heeding_writeMemory (address : UInt32) (bytes : List UInt8) :
    Heeding _ (writeMemory address bytes) := by
  refine lift_bind (.step trivial fun _ => .done _) fun done => ?_
  split
  · exact joins.value _
  · exact joins.raise trivial

theorem heeding_writeCString (address : UInt32) (text : String) :
    Heeding _ (writeCString address text) :=
  joins.bind (heeding_writeMemory _ _) fun _ => heeding_writeMemory _ _

theorem heeding_readString (address : UInt32) : Heeding _ (readString address) := by
  refine lift_bind (.step trivial fun _ => .done _) fun memory => guard ?_
  split
  · exact joins.value _
  · exact joins.raise trivial

theorem heeding_argumentsFor (f : Nat) (pointers : List UInt32) (extra : List Int64) :
    Heeding _ (argumentsFor f pointers extra) :=
  lift_bind (.step trivial fun _ => .done _) fun _ => .done _

theorem heeding_allocate (size : Nat) : Heeding _ (allocate size) := by
  refine joins.bind (heeding_function _) fun f => guard ?_
  refine joins.bind (heeding_callRaw (by trivial) _ _) fun result => ?_
  split
  · split
    · exact joins.raise trivial
    · exact joins.value _
  · exact joins.raise trivial

theorem cleanup_release :
    BlockKind.Allows (StepsOf Op.IsCleanup fun _ => True) (fun _ => True) Op.IsRelease :=
  StepsOf.allows Op.IsRelease.isCleanup trivial

theorem heeding_giveBack (address : UInt32) : Heeding _ (giveBack address) := by
  refine joins.bind (heeding_function _) fun f => ?_
  exact joins.bind (heeding_callRaw (by trivial) _ _) fun _ => joins.value _

theorem heeding_release (address : UInt32) : Heeding _ (release address) := by
  -- The report is of the outcome, so it is no program to come after any other outcome.
  refine Program.heeds_bind (heeding_giveBack address) (fun r _ => ?_) fun r e hr => ?_
  · exact Program.heeds_bind_of_none (Program.heeds_report _) fun _ => .done _
  · exact Program.madeOf_bind (Program.cleanup_report _) fun _ _ => .done hr

theorem heeding_send (bytes : List UInt8) : Heeding _ (send bytes) := by
  refine joins.bind (heeding_allocate _) fun address => ?_
  refine attempt_bind (heeding_writeMemory _ _) (fun _ => joins.value _) fun e => ?_
  rw [Action.run_attempt_bind]
  have hrelease := madeOf_release cleanup_release coversHost_true address
  exact Program.madeOf_bind hrelease fun _ _ => .done rfl

theorem heeding_sendString (text : String) (slot : Option Slot) :
    Heeding _ (sendString text slot) := by
  cases slot with
  | none => exact heeding_send _
  | some slot =>
    unfold sendString
    exact guard (joins.bind (heeding_writeCString _ _) fun _ => joins.value _)

theorem heeds_releaseAll (tracked : List UInt32) : (releaseAll tracked).Heeds id := by
  induction tracked with
  | nil => exact .done _
  | cons address rest ih =>
    refine Program.heeds_bind (heeding_release address) (fun first hfirst => ?_)
      fun first e hfirst => ?_
    · cases first with
      | error e => cases hfirst
      | ok _ => exact Program.heeds_bind ih (fun _ _ => .done _) fun _ _ hlater => .done hlater
    · cases first with
      | ok _ => cases hfirst
      | error _ =>
        exact Program.madeOf_bind (madeOf_releaseAll cleanup_release coversHost_true rest)
          fun _ _ => .done hfirst

namespace Scope

variable {α β : Type}

def Heeding (body : Scope α) : Prop :=
  ∀ tracked, (body.run.run tracked).Heeds fun x => failure? x.1

theorem heeding_pure (a : α) : Heeding (pure a) := fun _ => .done _

theorem heeding_bind {body : Scope α} {f : α → Scope β} (hbody : Heeding body)
    (hf : ∀ a, Heeding (f a)) : Heeding (body >>= f) := by
  intro tracked
  rw [run_bind]
  refine Program.heeds_bind (hbody tracked) (fun x hx => ?_) fun x e hx => ?_
  · rcases x with ⟨_ | a, noted⟩
    · cases hx
    · exact hf a noted
  · rcases x with ⟨_ | a, noted⟩
    · exact .done hx
    · cases hx

theorem heeding_lift {a : Action α} (ha : SandboxHost.Heeding α a) :
    Heeding (liftM a : Scope α) := fun _ =>
  Program.heeds_bind ha (fun _ _ => .done _) fun _ _ hr => .done hr

theorem heeding_track (address : UInt32) : Heeding (track address) := fun _ => .done _

end Scope

/-- The release of blocks decides only where the body has not failed. -/
theorem heeding_inScope {α : Type} {body : Scope α} (hbody : Scope.Heeding body) :
    Heeding _ (inScope body) := by
  refine Program.heeds_bind (hbody []) (fun x hx => ?_) fun x e hx => ?_
  · rcases x with ⟨_ | a, tracked⟩
    · cases hx
    · refine Program.heeds_bind (heeds_releaseAll tracked) (fun failure _ => ?_)
        fun failure e hfailure => ?_
      · cases failure <;> exact .done _
      · cases failure with
        | none => cases hfailure
        | some _ => exact .done hfailure
  · rcases x with ⟨_ | a, tracked⟩
    · exact Program.madeOf_bind (madeOf_releaseAll cleanup_release coversHost_true tracked)
        fun _ _ => .done hx
    · cases hx

theorem heeding_sendEach (texts : List String) : Scope.Heeding (sendEach texts) := by
  induction texts with
  | nil => exact Scope.heeding_pure _
  | cons text rest ih =>
    refine Scope.heeding_bind (Scope.heeding_lift (heeding_sendString _ _)) fun address => ?_
    exact Scope.heeding_bind (Scope.heeding_track _) fun _ => Scope.heeding_bind ih fun _ =>
      Scope.heeding_pure _

theorem heeding_sendStrings (texts : List String) : Scope.Heeding (sendStrings texts) := by
  unfold sendStrings
  split
  · exact Scope.heeding_pure _
  · refine Scope.heeding_bind (heeding_sendEach texts) fun addresses => ?_
    exact Scope.heeding_bind (Scope.heeding_lift (heeding_send _)) fun _ => Scope.heeding_track _

theorem heeding_invoke (name : String) (f : Nat) (args : List Value) :
    Heeding _ (invoke name f args) := by
  refine lift_bind (Program.heeds_modifyHost _) fun _ => ?_
  refine joins.bind (heeding_callRaw (by trivial) _ _) fun raw => ?_
  exact lift_bind (.step trivial fun _ => .done _) fun h => guard (joins.value _)

theorem heeding_scratch : Heeding _ scratch := by
  refine lift_bind (.step trivial fun _ => .done _) fun host => ?_
  split
  · exact joins.value _
  · refine lift_bind (.step trivial fun _ => .done _) fun setup => ?_
    refine joins.bind (heeding_allocate _) fun address => ?_
    exact lift_bind (Program.heeds_modifyHost _) fun _ => joins.value _

theorem heeding_callWithString (name : String) (arg : StringArg) (extra : List Int64) :
    Heeding _ (callWithString name arg extra) := by
  refine joins.bind (heeding_function name) fun f => ?_
  refine lift_bind (.step trivial fun _ => .done _) fun setup => ?_
  have henter (addresses : List UInt32) : Heeding _ (do
      invoke name f (← argumentsFor f addresses extra)) :=
    joins.bind (heeding_argumentsFor f addresses extra) fun _ => heeding_invoke name f _
  cases arg with
  | one text =>
    dsimp only
    split
    · refine joins.bind heeding_scratch fun address => ?_
      exact joins.bind (heeding_writeCString _ _) fun _ => henter [address]
    · refine heeding_inScope (Scope.heeding_bind (Scope.heeding_lift (heeding_sendString _ _))
        fun address => Scope.heeding_bind (Scope.heeding_track _) fun _ => ?_)
      exact Scope.heeding_bind (Scope.heeding_lift (heeding_argumentsFor _ _ _)) fun _ =>
        Scope.heeding_lift (heeding_invoke _ _ _)
  | many texts =>
    refine heeding_inScope (Scope.heeding_bind (heeding_sendStrings texts) fun argv => ?_)
    exact Scope.heeding_bind (Scope.heeding_lift (heeding_argumentsFor _ _ _)) fun _ =>
      Scope.heeding_lift (heeding_invoke _ _ _)

theorem heeding_call (name : String) (args : List Int64) : Heeding _ (Guest.call name args) :=
  joins.bind (heeding_function name) fun f =>
    joins.bind (heeding_argumentsFor f [] args) fun _ => heeding_invoke name f _

theorem heeding_findEntryPoint (f : Nat) (library : Int32) :
    Heeding _ (findEntryPoint f library) := by
  refine heeding_inScope (Scope.heeding_bind (Scope.heeding_lift (heeding_sendString _ _))
    fun address => Scope.heeding_bind (Scope.heeding_track _) fun _ => ?_)
  refine Scope.heeding_bind (Scope.heeding_lift (heeding_callRaw (by trivial) _ _)) fun found => ?_
  split <;> exact Scope.heeding_pure _

theorem heeding_callEntryPoint (main : Nat) (argv : List String) :
    Heeding _ (callEntryPoint main argv) := by
  refine heeding_inScope (Scope.heeding_bind (heeding_sendStrings argv) fun address => ?_)
  exact Scope.heeding_bind (Scope.heeding_lift (heeding_invoke _ _ _)) fun _ =>
    Scope.heeding_pure _

theorem heeding_close (f : Nat) (args : List Value) (code : Int32) :
    Heeding _ (do
      let _ ← (callRaw .closeLibrary f args).attempt
      return code) := by
  refine .step (fun answer answer' => ?_) fun answer => ?_
  · cases answer <;> cases answer' <;> rfl
  · cases answer <;> exact .done _

theorem heeding_loadAndExecute (path : String) (argv : List String) :
    Heeding _ (loadAndExecute path argv) := by
  refine joins.bind (heeding_callWithString _ _ _) fun output => ?_
  refine joins.bind (.done _) fun library => ?_
  refine lift_bind (heeds_function? _) fun findSymbol => ?_
  cases findSymbol with
  | none => exact joins.value _
  | some findSymbol =>
    refine joins.bind (heeding_findEntryPoint findSymbol library) fun address => ?_
    split
    · exact joins.value _
    · refine lift_bind (heeds_tableFunction? address) fun main => ?_
      cases main with
      | none => exact joins.value _
      | some main =>
        refine joins.bind (heeding_callEntryPoint main argv) fun code => ?_
        refine lift_bind (heeds_function? _) fun close => ?_
        cases close with
        | none => exact joins.value _
        | some close => exact heeding_close _ _ _

/-- Memory and pointers are put back after a failure too. -/
theorem heeding_rolledBack {α : Type} {body : Action α} (hbody : Heeding α body) :
    Heeding α (rolledBack body) := by
  refine .step trivial fun saved => .step trivial fun host => ?_
  let back := (Program.restore saved).bind fun _ =>
    Program.modifyHost fun h => { h with pointers := host.pointers }
  have hback : back.Heeds fun _ => none := .step trivial fun _ => Program.heeds_modifyHost _
  have hcleanup : back.MadeOf (StepsOf Op.IsCleanup fun _ => True) fun _ => True :=
    Program.madeOf_bind (Program.madeOf_block (.op (.restore saved) trivial)) fun _ _ =>
      Program.cleanup_modifyHost _
  exact Program.heeds_finally hbody hback hcleanup

theorem heeding_run (argv : List String) : Heeding _ (run argv) := by
  cases argv with
  | nil => exact joins.raise trivial
  | cons path rest =>
    rw [Heeding, run_cons]
    refine .step trivial fun _ => ?_
    exact Program.heeds_finally (heeding_rolledBack (heeding_loadAndExecute _ _))
      (Program.heeds_report _) (Program.cleanup_report _)

end Guest

theorem Heeding.assists : Heeding.Assists fun _ => True where
  toJoins := joins
  look _ h := lift_bind (.step trivial fun _ => .done _) h
  ask _ _ _ := lift (.step trivial fun _ => .done _)
  keepErrno _ := lift (Program.heeds_modifyHost _)
  find name := lift (Guest.heeds_function? name)
  tell := Guest.heeding_callRaw trivial
  guestRead := Guest.heeding_readMemory
  guestWrite := Guest.heeding_writeMemory
  guestText := Guest.heeding_readString
  guestSend := Guest.heeding_sendString

theorem Heeding.tells : Heeding.Tells fun _ => True := assists.tells coversHost_true

namespace Heeding

theorem run (argv : List String) : Heeding _ (Syscall.run argv) := by
  refine joins.bind (joins.requireBound coversHost_true assists.look) fun _ => ?_
  refine lift_bind (.step trivial fun _ => .done _) fun before => ?_
  refine lift_bind (.step trivial fun _ => .done _) fun _ => ?_
  refine attempt_bind (Guest.heeding_run argv) (fun _ => ?_) fun e => ?_
  · exact lift_bind (Program.heeds_modifyHost _) fun _ => .done _
  · rw [Action.run_lift_bind]
    exact Program.madeOf_bind (Program.cleanup_modifyHost _) fun _ _ => .done rfl

theorem survey {α : Type} {f : Setup → Action α} (h : ∀ s, True → Heeding α (f s)) :
    Heeding α (liftM Program.setup >>= f) :=
  lift_bind (.step trivial fun _ => .done _) fun s => h s trivial

theorem ask (r : Request) (_ : (Op.ask r).IsMarshal) : Heeding _ (liftM (Program.ask r)) :=
  lift (.step trivial fun _ => .done _)

theorem deliver (buffer : UInt32) (room : Nat) (bytes : List UInt8) :
    Heeding _ (Handler.deliver buffer room bytes) := by
  refine attempt_bind (tells.writeMemory coversHost_true _ _) (fun _ => ?_) fun e => ?_
  · refine lift_bind (.step trivial fun _ => .done _) fun host => ?_
    exact lift_bind (Program.heeds_report _) fun _ => .done _
  · rw [Action.run_lift_bind]
    refine Program.madeOf_bind (Program.madeOf_block (.op .getHost trivial)) fun host _ => ?_
    rw [Action.run_lift_bind]
    exact Program.madeOf_bind (Program.cleanup_report _) fun _ _ => .done rfl

theorem heeds_ownerInput (room : Nat) : (Handler.ownerInput room).Heeds fun _ => none := by
  refine Program.heeds_bind_of_none (.step trivial fun _ => .done _) fun host => ?_
  have hrest (available : List UInt8) : Program.Heeds (fun _ => none) (do
      Program.modifyHost fun h => { h with kept := available.drop room }
      return available.take room) :=
    Program.heeds_bind_of_none (Program.heeds_modifyHost _) fun _ => .done _
  dsimp only
  split
  · exact .step trivial fun available => hrest available
  · exact hrest _

theorem attends : Heeding.Attends fun _ => True where
  toAssists := assists
  terminalPath _ :=
    tells.keptTerminalPath coversHost_true fun _ _ => lift (Program.heeds_modifyHost _)
  signal s := by
    refine lift (Program.heeds_bind_of_none (Program.heeds_modifyHost _) fun _ => ?_)
    exact Program.heeds_report _
  run _ := run _
  pause := tells.pause coversHost_true survey ask
  readInput := tells.readInput coversHost_true survey ask
    (fun _ _ _ room => lift (heeds_ownerInput room)) deliver

end Heeding

theorem Guest.heeding_operation (op : Operation) : Heeding _ op.action := by
  cases op with
  | find name => exact Heeding.lift (heeds_function? name)
  | call name args => exact heeding_call name args
  | callWithString name arg extra => exact heeding_callWithString name arg extra
  | run argv => exact heeding_run argv
  | terminal argv => exact Heeding.joins.bind (heeding_callWithString _ _ _) fun _ => .done _
  | define name =>
    refine Heeding.joins.bind (heeding_callWithString _ _ _) fun output => ?_
    split <;> exact .done _
  | allocate size => exact heeding_allocate size
  | giveBack address => exact heeding_giveBack address
  | send bytes => exact heeding_send bytes
  | sendString text slot => exact heeding_sendString text slot
  | readMemory address length => exact heeding_readMemory address length
  | writeMemory address bytes => exact heeding_writeMemory address bytes
  | readString address => exact heeding_readString address

namespace Supplied

def Op.failure? : (op : Op) → op.Answer → Option Error
  | .ask _ _, _ => none
  | .readMemory _ _, r | .writeMemory _ _, r | .readString _, r | .sendString _ _, r | .run _, r
  | .setErrno _, r | .fail _ _, r | .requireBound, r | .handler _ _, r => SandboxHost.failure? r

theorem heeds_op (op : Op) : op.program.Heeds op.failure? := by
  have hf := coversHost_true
  have hG := Heeding.attends.serves hf
  cases op with
  | readMemory address length => exact hG.readMemory hf _ _
  | writeMemory address bytes => exact hG.writeMemory hf _ _
  | readString address => exact hG.readString hf _
  | sendString text slot => exact hG.sendString hf _ _
  | run argv => exact hG.run fun _ => trivial
  | setErrno e => exact hG.setErrno _
  | fail e returned => exact hG.fail hf _ _
  | requireBound => exact hG.requireBound hf
  | handler h args => exact hG.handler hf h args
  | ask r isOpen => exact .step trivial fun _ => .done _

end Supplied

end SandboxHost

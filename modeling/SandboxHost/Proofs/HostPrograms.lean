import SandboxHost.Proofs.Blocks

namespace SandboxHost

namespace Op

/-- Steps that leave the host's state alone and report neither signals nor runs. -/
def IsPlain : Op → Prop
  | .setHost _ | .restore _ => False
  | .ask (.report (.signal _)) | .ask (.report (.runBegan _)) | .ask (.report .runEnded) => False
  | _ => True

/-- Plain steps that enter no function in the name of a caller, nor look at what the host keeps. -/
def IsMarshal : Op → Prop
  | .call (.entry _) _ _ | .getHost => False
  | op => op.IsPlain

/-- Plain steps that move no block between the guest's allocator and the host. -/
def IsIdle : Op → Prop
  | .call .allocate _ _ | .call .release _ _ | .ask (.report (.released _ _)) => False
  | op => op.IsPlain

/-- Marshaling steps that move no block, nor look at the table for a bare address. -/
def IsQuiet : Op → Prop
  | .call (.entry _) _ _ | .getHost | .table none => False
  | op => op.IsIdle

/-- Steps that look at the setup, and ask where a function is. -/
def IsLookup : Op → Prop
  | .setup | .call (.accessor _) _ _ | .table (some _) => True
  | _ => False

def IsAccess : Op → Prop
  | .memory | .write _ _ => True
  | op => op.IsLookup

def IsRelease : Op → Prop
  | .call .release _ _ | .ask (.report (.released _ _)) => True
  | op => op.IsAccess

def IsReturn : Op → Prop
  | .call .release _ _ | .ask (.report (.released _ _)) => True
  | op => op.IsLookup

def IsSend : Op → Prop
  | .call .allocate _ _ => True
  | op => op.IsRelease

def IsNote : Op → Prop
  | .getHost | .setHost _ => True
  | _ => False

def IsInner : Op → Prop
  | .ask (.report (.runBegan _)) | .ask (.report .runEnded) => False
  | _ => True

/-- Steps that are the same on a worker as elsewhere and part of no read: neither looks at the
setup, nor requests that only one of both makes, nor deliveries of input. -/
def IsPortable : Op → Prop
  | .setup | .ask (.sleep _) | .ask (.readStdin _) | .ask (.pause _) | .ask .awaitInput
  | .ask (.report (.delivered _)) => False
  | _ => True

theorem IsMarshal.isPlain {op : Op} (h : op.IsMarshal) : op.IsPlain := by
  unfold IsMarshal at h
  split at h
  · exact h.elim
  · exact h.elim
  · exact h

theorem IsPlain.isInner {op : Op} (h : op.IsPlain) : op.IsInner := by
  unfold IsInner
  split
  · exact h
  · exact h
  · trivial

theorem IsIdle.isPlain {op : Op} (h : op.IsIdle) : op.IsPlain := by
  unfold IsIdle at h
  split at h
  · exact h.elim
  · exact h.elim
  · exact h.elim
  · exact h

theorem IsQuiet.isIdle {op : Op} (h : op.IsQuiet) : op.IsIdle := by
  unfold IsQuiet at h
  split at h
  · exact h.elim
  · exact h.elim
  · exact h.elim
  · exact h

theorem IsLookup.isQuiet {op : Op} (h : op.IsLookup) : op.IsQuiet := by
  unfold IsLookup at h
  split at h
  · trivial
  · trivial
  · trivial
  · exact h.elim

theorem IsLookup.isAccess {op : Op} (h : op.IsLookup) : op.IsAccess := by
  unfold IsAccess
  split
  · trivial
  · trivial
  · exact h

theorem IsAccess.isQuiet {op : Op} (h : op.IsAccess) : op.IsQuiet := by
  unfold IsAccess at h
  split at h
  · trivial
  · trivial
  · exact h.isQuiet

theorem IsQuiet.isMarshal {op : Op} (h : op.IsQuiet) : op.IsMarshal := by
  have hplain := h.isIdle.isPlain
  unfold IsMarshal
  split
  · exact h
  · exact h
  · exact hplain

theorem IsAccess.isMarshal {op : Op} (h : op.IsAccess) : op.IsMarshal := h.isQuiet.isMarshal

theorem IsRelease.isMarshal {op : Op} (h : op.IsRelease) : op.IsMarshal := by
  unfold IsRelease at h
  split at h
  · trivial
  · trivial
  · exact h.isMarshal

theorem IsAccess.isRelease {op : Op} (h : op.IsAccess) : op.IsRelease := by
  unfold IsRelease
  split
  · trivial
  · trivial
  · exact h

theorem IsLookup.isReturn {op : Op} (h : op.IsLookup) : op.IsReturn := by
  unfold IsReturn
  split
  · trivial
  · trivial
  · exact h

theorem IsReturn.isRelease {op : Op} (h : op.IsReturn) : op.IsRelease := by
  unfold IsReturn at h
  split at h
  · trivial
  · trivial
  · exact h.isAccess.isRelease

theorem IsRelease.isSend {op : Op} (h : op.IsRelease) : op.IsSend := by
  unfold IsSend
  split
  · trivial
  · exact h

theorem IsSend.isMarshal {op : Op} (h : op.IsSend) : op.IsMarshal := by
  unfold IsSend at h
  split at h
  · trivial
  · exact h.isMarshal

end Op

/-- Looks at a setup that do not tell whether the instance lives on a worker. -/
def Setup.Blind {α : Type} (g : Setup → α) : Prop :=
  ∀ (s : Setup) (blocking : Bool), g { s with blocking } = g s

/-- The kind has all portable steps of a sort among its blocks, and blind looks at the setup can be
made of them. -/
structure BlockKind.Allows (B : BlockKind) (fails : Error → Prop) (sort : Op → Prop) : Prop where
  op (op : Op) : sort op → op.IsPortable → B op.Answer (.ofOp op) (op.Answers fails)
  survey {γ : Type} {g : Setup → γ} : Setup.Blind g →
    (Program.setup.bind fun s => .done (g s)).MadeOf B fun a => ∃ s, g s = a

namespace BlockKind.Allows

variable {B : BlockKind} {fails : Error → Prop} {sort sort' : Op → Prop}

theorem mono (h : B.Allows fails sort) (hs : ∀ {op}, sort' op → sort op) : B.Allows fails sort' :=
  ⟨fun op hop => h.op op (hs hop), h.survey⟩

theorem step (h : B.Allows fails sort) (op : Op) (hop : sort op) (hportable : op.IsPortable) :
    (Program.ofOp op).MadeOf B (op.Answers fails) := Program.madeOf_block (h.op op hop hportable)

theorem of_ops (h : ∀ op, sort op → B op.Answer (.ofOp op) (op.Answers fails))
    (hsetup : sort .setup) : B.Allows fails sort where
  op op hop _ := h op hop
  survey _ :=
    Program.madeOf_bind (Program.madeOf_block (h .setup hsetup)) fun s _ => .done ⟨s, rfl⟩

theorem madeOf_survey_bind (hB : B.Allows fails sort) {α : Type} {P : α → Prop}
    {f : Setup → Program α} (hf : Setup.Blind f) (h : ∀ s, (f s).MadeOf B P) :
    (Program.setup.bind f).MadeOf B P := by
  have hthen : Program.setup.bind f = (Program.setup.bind fun s => .done (f s)).bind id := rfl
  rw [hthen]
  refine Program.madeOf_bind (hB.survey hf) ?_
  rintro _ ⟨s, rfl⟩
  exact h s

theorem madeOf_survey_action (hB : B.Allows fails sort) {α : Type} {f : Setup → Action α}
    (hf : Setup.Blind f) (h : ∀ s, Action.MadeOf B fails (f s)) :
    Action.MadeOf B fails (liftM Program.setup >>= f) := by
  rw [Action.MadeOf, Action.run_lift_bind]
  exact hB.madeOf_survey_bind (fun s b => congrArg ExceptT.run (hf s b)) h

theorem lookup (hB : B.Allows fails Op.IsAccess) : B.Allows fails Op.IsLookup :=
  hB.mono Op.IsLookup.isAccess

theorem modifyHost (hB : B.Allows fails sort) (hget : sort .getHost)
    (hset : ∀ h, sort (.setHost h)) (f : HostState → HostState) :
    (Program.modifyHost f).MadeOf B fun _ => True :=
  Program.madeOf_bind (hB.step .getHost hget trivial) fun _ _ => hB.step _ (hset _) trivial

end BlockKind.Allows

theorem StepsOf.allows {fails : Error → Prop} {sort sort' : Op → Prop}
    (h : ∀ {op}, sort' op → sort op) (hsetup : sort' .setup) :
    BlockKind.Allows (StepsOf sort fails) fails sort' :=
  .of_ops (fun op hop => .op op (h hop)) hsetup

/-- All errors but the refusal of an empty argument list. -/
def CoversHost (fails : Error → Prop) : Prop := ∀ e, e ≠ .invalidArgument .emptyArgv → fails e

theorem coversHost_true : CoversHost fun _ => True := fun _ _ => trivial

/-- The host's state when a call begins: the guest has set nothing yet. -/
def HostState.fresh (h : HostState) : HostState := { h with result := none, exception := false }

namespace Guest

variable {B : BlockKind} {fails : Error → Prop}

theorem madeOf_tableFunction? {sort : Op → Prop} (hB : B.Allows fails sort) (h : sort (.table none))
    (i : UInt32) : (tableFunction? i).MadeOf B fun _ => True := by
  refine hB.madeOf_survey_bind (fun _ _ => rfl) fun s => ?_
  split
  · exact Program.madeOf_bind (hB.step (.table none) h trivial) fun _ _ => .done trivial
  · exact .done trivial

section Lookup

variable (hB : B.Allows fails Op.IsLookup) (hf : CoversHost fails)

include hB

theorem madeOf_function? (name : String) : (function? name).MadeOf B fun _ => True := by
  refine hB.madeOf_survey_bind (fun _ _ => rfl) fun s => ?_
  dsimp only
  split
  · refine Program.madeOf_bind (hB.step (.call _ _ _) trivial trivial) fun returned _ => ?_
    exact Program.madeOf_bind (hB.step (.table (some name)) trivial trivial) fun _ _ => .done trivial
  · exact .done trivial

include hf

theorem madeOf_function (name : String) : Action.MadeOf B fails (function name) := by
  refine Action.madeOf_lift_bind (madeOf_function? hB name) fun found _ => ?_
  cases found with
  | some f => exact Action.madeOf_pure f
  | none => exact Action.madeOf_throw (hf _ nofun)

omit hB in
theorem failsWithin_arguments (types : List ValueType) (pointers : List UInt32)
    (extra : List Int64) : FailsWithin fails (arguments types pointers extra) := by
  have hargument (t : ValueType) (n : Int64) : FailsWithin fails (argument t n) := by
    cases t with
    | ref t => exact hf _ nofun
    | _ => trivial
  have hall (given : List (ValueType × Int64)) :
      FailsWithin fails (given.mapM fun x => argument x.1 x.2) := by
    induction given with
    | nil => trivial
    | cons x rest ih =>
      rw [List.mapM_cons]
      exact (hargument x.1 x.2).bind fun _ => ih.bind fun _ => trivial
  unfold arguments
  dsimp only
  split
  · exact hall _
  · exact hf _ nofun

theorem madeOf_argumentsFor (f : Nat) (pointers : List UInt32) (extra : List Int64) :
    Action.MadeOf B fails (argumentsFor f pointers extra) :=
  hB.madeOf_survey_action (fun _ _ => rfl) fun _ =>
    Action.madeOf_ofExcept (failsWithin_arguments hf _ _ _)

end Lookup

theorem madeOf_writeBy (hf : CoversHost fails) {P : Bool → Prop} {address : UInt32}
    {bytes : List UInt8} (h : (Program.write address.toNat bytes).MadeOf B P) :
    Action.MadeOf B fails (writeMemory address bytes) := by
  refine Action.madeOf_lift_bind h fun done _ => ?_
  split
  · exact Action.madeOf_pure _
  · exact Action.madeOf_throw (hf _ nofun)

section Access

variable (hB : B.Allows fails Op.IsAccess) (hf : CoversHost fails)

include hB hf

theorem madeOf_readMemory (address : UInt32) (length : Nat) :
    Action.MadeOf B fails (readMemory address length) := by
  refine Action.madeOf_lift_bind (hB.step .memory trivial trivial) fun memory _ => ?_
  split
  · exact Action.madeOf_pure _
  · exact Action.madeOf_throw (hf _ nofun)

theorem madeOf_writeMemory (address : UInt32) (bytes : List UInt8) :
    Action.MadeOf B fails (writeMemory address bytes) :=
  madeOf_writeBy hf (hB.step (.write _ _) trivial trivial)

theorem madeOf_writeCString (address : UInt32) (text : String) :
    Action.MadeOf B fails (writeCString address text) :=
  Action.madeOf_bind (madeOf_writeMemory hB hf _ _) fun _ => madeOf_writeMemory hB hf _ _

theorem madeOf_readString (address : UInt32) : Action.MadeOf B fails (readString address) := by
  refine Action.madeOf_lift_bind (hB.step .memory trivial trivial) fun m _ => ?_
  refine Action.madeOf_guard (hf _ nofun) fun _ => ?_
  split
  · exact Action.madeOf_pure _
  · exact Action.madeOf_throw (hf _ nofun)

end Access

theorem madeOf_write {sort : Op → Prop} {address : UInt32} {bytes : List UInt8}
    (h : sort (.write address.toNat bytes)) :
    Action.MadeOf (StepsOf sort fun _ => True) (fun _ => True) (writeMemory address bytes) :=
  madeOf_writeBy coversHost_true (Program.madeOf_block (.op (.write _ _) h))

theorem madeOf_callRaw (purpose : Purpose) (f : Nat) (args : List Value)
    (hB : B _ (.ofOp (.call purpose f args)) (Op.Answers fails (.call purpose f args))) :
    Action.MadeOf B fails (callRaw purpose f args) :=
  Action.madeOf_bind (a := ExceptT.mk (Program.call purpose f args)) (Program.madeOf_block hB)
    fun _ => Action.madeOf_pure _

theorem records_callRaw {m : Machine} {call : Callee} {purpose : Purpose} {f : Nat}
    {args : List Value} {s : State} {P : List Step → Except Error (Option Value) → State → Prop} :
    m.Records call (callRaw purpose f args).run s P ↔
      ∀ t returned s', ((call f args).run.run s).Ends t (returned, s') →
        P [⟨.call purpose f args, returned, s, s', t⟩] (returned.map List.head?) s' := by
  change m.Records call (Program.bind (.step (.call purpose f args) .done) _) s P ↔ _
  rw [Machine.records_bind, Machine.records_step]
  refine forall_congr' fun t => forall_congr' fun returned => forall_congr' fun s' =>
    imp_congr_right fun _ => ?_
  rw [Machine.records_done]
  cases returned <;> exact Machine.records_done

section Found

/- What holds of a function that is found may be needed to call it. -/
variable {stands : Nat → Prop}

theorem madeOf_function_bind {name : String} {α : Type} {k : Nat → Action α}
    (hsearch : (function? name).MadeOf B fun found => ∀ f, found = some f → stands f)
    (hnone : fails (.notFound name)) (hk : ∀ f, stands f → Action.MadeOf B fails (k f)) :
    Action.MadeOf B fails (function name >>= k) := by
  rw [function, bind_assoc]
  refine Action.madeOf_lift_bind hsearch fun found hfound => ?_
  cases found with
  | none => exact .done hnone
  | some f => exact hk f (hfound f rfl)

variable (hf : CoversHost fails)

include hf

theorem madeOf_giveBackBy
    (hsearch : (function? deallocator).MadeOf B fun found => ∀ f, found = some f → stands f)
    (address : UInt32) (hfree : ∀ f, stands f → B _ (.ofOp (.call .release f [.i32 address]))
      (Op.Answers fails (.call .release f [.i32 address]))) :
    Action.MadeOf B fails (giveBack address) :=
  madeOf_function_bind hsearch (hf _ nofun) fun f hstands =>
    Action.madeOf_bind (madeOf_callRaw _ _ _ (hfree f hstands)) fun _ => Action.madeOf_pure _

theorem madeOf_allocateBy
    (hsearch : (function? allocator).MadeOf B fun found => ∀ f, found = some f → stands f)
    (size : Nat) (hcall : ∀ f, stands f → B _ (.ofOp (.call .allocate f [.i32 size.toUInt32]))
      (Op.Answers fails (.call .allocate f [.i32 size.toUInt32]))) :
    Action.MadeOf B fails (allocate size) := by
  refine madeOf_function_bind hsearch (hf _ nofun) fun f hstands => ?_
  refine Action.madeOf_guard (hf _ nofun) fun _ => ?_
  refine Action.madeOf_bind (madeOf_callRaw _ _ _ (hcall f hstands)) fun result => ?_
  split
  · split
    · exact Action.madeOf_throw (hf _ nofun)
    · exact Action.madeOf_pure _
  · exact Action.madeOf_throw (hf _ nofun)

end Found

theorem madeOf_giveBack (hB : B.Allows fails Op.IsLookup) (hf : CoversHost fails) (address : UInt32)
    (hfree : ∀ f, B _ (.ofOp (.call .release f [.i32 address]))
      (Op.Answers fails (.call .release f [.i32 address]))) :
    Action.MadeOf B fails (giveBack address) :=
  madeOf_giveBackBy hf ((madeOf_function? hB deallocator).weaken fun _ h _ _ => h) address
    fun f _ => hfree f

theorem madeOf_allocate (hB : B.Allows fails Op.IsLookup) (hf : CoversHost fails) (size : Nat)
    (hcall : ∀ f, B _ (.ofOp (.call .allocate f [.i32 size.toUInt32]))
      (Op.Answers fails (.call .allocate f [.i32 size.toUInt32]))) :
    Action.MadeOf B fails (allocate size) :=
  madeOf_allocateBy hf ((madeOf_function? hB allocator).weaken fun _ h _ _ => h) size
    fun f _ => hcall f

theorem madeOf_releaseBy {address : UInt32} (hgive : Action.MadeOf B fails (giveBack address))
    (hreport : ∀ r, (Program.report (.released address r)).MadeOf B fun _ => True) :
    Action.MadeOf B fails (release address) :=
  Program.madeOf_bind hgive fun r hr => Program.madeOf_bind (hreport r) fun _ _ => .done hr

theorem madeOf_releaseEach (hrelease : ∀ address, Action.MadeOf B fails (release address))
    (tracked : List UInt32) :
    (releaseAll tracked).MadeOf B fun failure => ∀ e ∈ failure, fails e := by
  induction tracked with
  | nil => exact .done nofun
  | cons address rest ih =>
    refine Program.madeOf_bind (hrelease address) fun first hfirst => ?_
    refine Program.madeOf_bind ih fun later hlater => ?_
    cases first with
    | error e => exact .done fun e' he' => Option.some.inj he' ▸ hfirst
    | ok _ => exact .done hlater

section Return

variable (hB : B.Allows fails Op.IsReturn) (hf : CoversHost fails)

include hB hf

theorem madeOf_return (address : UInt32) : Action.MadeOf B fails (release address) := by
  have hgive : Action.MadeOf B fails (giveBack address) :=
    madeOf_giveBack (hB.mono Op.IsLookup.isReturn) hf address
      fun _ => hB.op (.call _ _ _) trivial trivial
  exact madeOf_releaseBy hgive fun r => hB.step (.ask (.report (.released address r))) trivial trivial

theorem madeOf_returnAll (tracked : List UInt32) :
    (releaseAll tracked).MadeOf B fun failure => ∀ e ∈ failure, fails e :=
  madeOf_releaseEach (madeOf_return hB hf) tracked

end Return

section Release

variable (hB : B.Allows fails Op.IsRelease) (hf : CoversHost fails)

include hB hf

theorem madeOf_release (address : UInt32) : Action.MadeOf B fails (release address) :=
  madeOf_return (hB.mono Op.IsReturn.isRelease) hf address

theorem madeOf_releaseAll (tracked : List UInt32) :
    (releaseAll tracked).MadeOf B fun failure => ∀ e ∈ failure, fails e :=
  madeOf_returnAll (hB.mono Op.IsReturn.isRelease) hf tracked

end Release

/-- A block that cannot be filled is given back before the failure is passed on. -/
theorem madeOf_fill {bytes : List UInt8}
    (hallocate : Action.MadeOf B fails (allocate bytes.length))
    (hwrite : ∀ address, Action.MadeOf B fails (writeMemory address bytes))
    (hrelease : ∀ address, Action.MadeOf B fails (release address)) :
    Action.MadeOf B fails (send bytes) := by
  refine Action.madeOf_bind hallocate fun address => ?_
  refine Action.madeOf_attempt_bind (hwrite address) fun r hr => ?_
  split
  · exact Action.madeOf_pure _
  · exact Action.madeOf_attempt_bind (hrelease address) fun _ _ => Action.madeOf_throw hr

section Send

variable (hB : B.Allows fails Op.IsSend) (hf : CoversHost fails)

include hB hf

theorem madeOf_sendBytes (bytes : List UInt8) : Action.MadeOf B fails (send bytes) := by
  have hrelease := hB.mono Op.IsRelease.isSend
  have haccess := hrelease.mono Op.IsAccess.isRelease
  have hallocate : Action.MadeOf B fails (allocate bytes.length) :=
    madeOf_allocate haccess.lookup hf _ fun _ => hB.op (.call _ _ _) trivial trivial
  exact madeOf_fill hallocate (madeOf_writeMemory haccess hf · bytes)
    (madeOf_release hrelease hf)

theorem madeOf_sendText (text : String) (slot : Option Slot) :
    Action.MadeOf B fails (sendString text slot) := by
  have haccess := (hB.mono Op.IsRelease.isSend).mono Op.IsAccess.isRelease
  cases slot with
  | none => exact madeOf_sendBytes hB hf _
  | some slot =>
    unfold sendString
    refine Action.madeOf_guard (hf _ nofun) fun _ => ?_
    exact Action.madeOf_bind (madeOf_writeCString haccess hf _ _) fun _ => Action.madeOf_pure _

end Send

section Marshal

variable (hB : B.Allows fails Op.IsMarshal) (hf : CoversHost fails)

include hB hf

theorem madeOf_allocateBlock (size : Nat) : Action.MadeOf B fails (allocate size) :=
  madeOf_allocate (hB.mono Op.IsAccess.isMarshal).lookup hf size fun _ =>
    hB.op (.call _ _ _) trivial trivial

theorem madeOf_send (bytes : List UInt8) : Action.MadeOf B fails (send bytes) :=
  madeOf_sendBytes (hB.mono Op.IsSend.isMarshal) hf bytes

theorem madeOf_sendString (text : String) (slot : Option Slot) :
    Action.MadeOf B fails (sendString text slot) :=
  madeOf_sendText (hB.mono Op.IsSend.isMarshal) hf text slot

end Marshal

namespace Scope

variable {α β : Type}

def MadeOf (B : BlockKind) (fails : Error → Prop) (body : Scope α) : Prop :=
  ∀ tracked, (body.run.run tracked).MadeOf B fun x => FailsWithin fails x.1

theorem run_bind (body : Scope α) (f : α → Scope β) (tracked : List UInt32) :
    (body >>= f).run.run tracked = (body.run.run tracked).bind fun x =>
      match x.1 with
      | .ok a => (f a).run.run x.2
      | .error e => .done (.error e, x.2) := by
  change Program.bind _ _ = _
  congr 1
  funext x
  rcases x with ⟨_ | _, tracked⟩ <;> rfl

theorem madeOf_pure (a : α) : MadeOf B fails (pure a) := fun _ => .done trivial

theorem madeOf_bind {body : Scope α} {f : α → Scope β} (hbody : MadeOf B fails body)
    (hf : ∀ a, MadeOf B fails (f a)) : MadeOf B fails (body >>= f) := by
  intro tracked
  rw [run_bind]
  refine Program.madeOf_bind (hbody tracked) fun x hx => ?_
  rcases x with ⟨e | a, tracked⟩
  · exact .done hx
  · exact hf a tracked

theorem madeOf_lift {a : Action α} (ha : Action.MadeOf B fails a) :
    MadeOf B fails (liftM a : Scope α) := fun _ => Program.madeOf_bind ha fun _ hr => .done hr

theorem madeOf_track (address : UInt32) : MadeOf B fails (track address) := fun _ => .done trivial

end Scope

theorem madeOf_closing (hrelease : ∀ address, Action.MadeOf B fails (release address)) {α : Type}
    {body : Scope α} (hbody : Scope.MadeOf B fails body) :
    Action.MadeOf B fails (inScope body) := by
  refine Program.madeOf_bind (hbody []) fun x hx => ?_
  refine Program.madeOf_bind (madeOf_releaseEach hrelease x.2) fun failure hfailure => ?_
  rcases x with ⟨e | a, tracked⟩
  · exact .done hx
  · cases failure with
    | none => exact .done trivial
    | some e => exact .done (hfailure e rfl)

theorem madeOf_inScope (hB : B.Allows fails Op.IsMarshal) (hf : CoversHost fails) {α : Type}
    {body : Scope α} (hbody : Scope.MadeOf B fails body) :
    Action.MadeOf B fails (inScope body) :=
  madeOf_closing (madeOf_release (hB.mono Op.IsRelease.isMarshal) hf) hbody

/-- Bodies of scopes that note every block they send, and else act as the kind allows. -/
inductive Scope.Sends (B : BlockKind) (fails : Error → Prop) : {α : Type} → Scope α → Prop where
  | pure {α : Type} (a : α) : Sends B fails (Pure.pure a)
  | bind {α β : Type} {body : Scope α} {f : α → Scope β} :
    Sends B fails body → (∀ a, Sends B fails (f a)) → Sends B fails (body >>= f)
  | action {α : Type} {a : Action α} : Action.MadeOf B fails a → Sends B fails (liftM a)
  | send (bytes : List UInt8) : Sends B fails (do Scope.track (← Guest.send bytes))

theorem Scope.Sends.send_bind (bytes : List UInt8) {α : Type} {f : UInt32 → Scope α}
    (hf : ∀ address, Scope.Sends B fails (f address)) :
    Scope.Sends B fails (do f (← Scope.track (← Guest.send bytes))) := by
  have h : Scope.Sends B fails ((do Scope.track (← Guest.send bytes)) >>= f) :=
    .bind (.send bytes) hf
  rwa [bind_assoc] at h

theorem Scope.Sends.of_send (hsend : ∀ bytes, Action.MadeOf B fails (Guest.send bytes))
    {α : Type} {body : Scope α} (h : Scope.Sends B fails body) : Scope.MadeOf B fails body := by
  induction h with
  | pure a => exact Scope.madeOf_pure a
  | bind _ _ ih ih' => exact Scope.madeOf_bind ih ih'
  | action ha => exact Scope.madeOf_lift ha
  | send bytes =>
    exact Scope.madeOf_bind (Scope.madeOf_lift (hsend bytes)) fun _ => Scope.madeOf_track _

theorem Scope.Sends.madeOf_sends (hB : B.Allows fails Op.IsSend) (hf : CoversHost fails) {α : Type}
    {body : Scope α} (h : Scope.Sends B fails body) : Scope.MadeOf B fails body :=
  h.of_send (madeOf_sendBytes hB hf)

theorem Scope.Sends.madeOf (hB : B.Allows fails Op.IsMarshal) (hf : CoversHost fails) {α : Type}
    {body : Scope α} (h : Scope.Sends B fails body) : Scope.MadeOf B fails body :=
  h.madeOf_sends (hB.mono Op.IsSend.isMarshal) hf

theorem sends_sendEach (texts : List String) : Scope.Sends B fails (sendEach texts) := by
  induction texts with
  | nil => exact .pure _
  | cons text rest ih => exact .send_bind _ fun _ => .bind ih fun _ => .pure _

theorem sends_sendStrings (texts : List String) : Scope.Sends B fails (sendStrings texts) := by
  unfold sendStrings
  split
  · exact .pure _
  · exact .bind (sends_sendEach texts) fun _ => .send _

/-- What a kind needs to have passing strings to the guest made of its blocks. -/
structure Passes (B : BlockKind) (fails : Error → Prop) : Prop where
  quiet : B.Allows fails Op.IsQuiet
  scratch : Action.MadeOf B fails scratch
  inScope {α : Type} {body : Scope α} :
    Scope.Sends B fails body → Action.MadeOf B fails (Guest.inScope body)

theorem Passes.access (hB : Passes B fails) : B.Allows fails Op.IsAccess :=
  hB.quiet.mono Op.IsAccess.isQuiet

theorem Passes.lookup (hB : Passes B fails) : B.Allows fails Op.IsLookup := hB.access.lookup

/-- What a kind needs to have loading and executing a library made of its blocks. -/
structure Loads (B : BlockKind) (fails : Error → Prop) : Prop extends Passes B fails where
  invoke (name : String) (f : Nat) (args : List Value) : Action.MadeOf B fails (invoke name f args)
  locate (address : UInt32) : (tableFunction? address).MadeOf B fun _ => True

theorem madeOf_enter (hf : CoversHost fails)
    (hfresh : (Program.modifyHost HostState.fresh).MadeOf B fun _ => True)
    (hlook : B HostState (.ofOp .getHost) (Op.Answers fails .getHost)) {name : String} {f : Nat}
    {args : List Value} (hcall : B _ (.ofOp (.call (.entry name) f args))
      (Op.Answers fails (.call (.entry name) f args))) :
    Action.MadeOf B fails (invoke name f args) := by
  refine Action.madeOf_lift_bind hfresh fun _ _ => ?_
  refine Action.madeOf_bind (madeOf_callRaw _ _ _ hcall) fun raw => ?_
  refine Action.madeOf_lift_bind (Program.madeOf_block hlook) fun h _ => ?_
  dsimp only
  split
  · exact Action.madeOf_bind (Action.madeOf_throw (hf _ nofun)) fun _ => Action.madeOf_pure _
  · exact Action.madeOf_pure _

theorem madeOf_invoke (hB : B.Allows fails Op.IsIdle) (hf : CoversHost fails)
    (hfresh : (Program.modifyHost HostState.fresh).MadeOf B fun _ => True) (name : String) (f : Nat)
    (args : List Value) : Action.MadeOf B fails (invoke name f args) :=
  madeOf_enter hf hfresh (hB.op .getHost trivial trivial) (hB.op (.call _ _ _) trivial trivial)

section Pass

variable (hB : Passes B fails) (hf : CoversHost fails)

include hB

include hf in
theorem madeOf_passString {name : String}
    (hinvoke : ∀ f args, Action.MadeOf B fails (invoke name f args)) (arg : StringArg)
    (extra : List Int64) : Action.MadeOf B fails (callWithString name arg extra) := by
  refine Action.madeOf_bind (madeOf_function hB.lookup hf name) fun f => ?_
  refine hB.quiet.madeOf_survey_action (fun _ _ => rfl) fun s => ?_
  have harguments (addresses : List UInt32) :
      Action.MadeOf B fails (argumentsFor f addresses extra) :=
    madeOf_argumentsFor hB.lookup hf f addresses extra
  cases arg with
  | one text =>
    dsimp only
    split
    · exact Action.madeOf_bind hB.scratch fun address =>
        Action.madeOf_bind (madeOf_writeCString hB.access hf _ _) fun _ =>
          Action.madeOf_bind (harguments _) (hinvoke f)
    · refine hB.inScope (.send_bind _ fun address => ?_)
      exact .bind (.action (harguments _)) fun args => .action (hinvoke f args)
  | many texts =>
    refine hB.inScope (.bind (sends_sendStrings texts) fun argv => ?_)
    exact .bind (.action (harguments _)) fun args => .action (hinvoke f args)

theorem madeOf_findEntryPoint (f : Nat) (library : Int32) :
    Action.MadeOf B fails (findEntryPoint f library) := by
  refine hB.inScope (.send_bind _ fun symbol => ?_)
  have hcall := hB.quiet.op (.call .findSymbol f [.ofInt32 library, .i32 symbol]) trivial trivial
  refine .bind (.action (madeOf_callRaw _ _ _ hcall)) fun found => ?_
  split <;> exact .pure _

theorem madeOf_callEntryPoint {main : Nat}
    (hinvoke : ∀ args, Action.MadeOf B fails (invoke entryPoint main args)) (argv : List String) :
    Action.MadeOf B fails (callEntryPoint main argv) := by
  refine hB.inScope (.bind (sends_sendStrings argv) fun address => ?_)
  exact .bind (.action (hinvoke _)) fun _ => .pure _

end Pass

section Load

variable (hB : Loads B fails) (hf : CoversHost fails)

include hB hf

theorem madeOf_callWithString (name : String) (arg : StringArg) (extra : List Int64) :
    Action.MadeOf B fails (callWithString name arg extra) :=
  madeOf_passString hB.toPasses hf (hB.invoke name) arg extra

theorem madeOf_call (name : String) (args : List Int64) :
    Action.MadeOf B fails (Guest.call name args) :=
  Action.madeOf_bind (madeOf_function hB.lookup hf name) fun f =>
    Action.madeOf_bind (madeOf_argumentsFor hB.lookup hf f [] args) fun _ => hB.invoke name f _

omit hB in
theorem failsWithin_asInt32 (output : Json) (name : String) :
    FailsWithin fails (asInt32 output name) := by
  unfold asInt32
  split
  · trivial
  · exact hf _ nofun

theorem madeOf_loadAndExecute (path : String) (argv : List String) :
    Action.MadeOf B fails (loadAndExecute path argv) := by
  refine Action.madeOf_bind (madeOf_callWithString hB hf _ _ _) fun output => ?_
  refine Action.madeOf_bind (Action.madeOf_ofExcept (failsWithin_asInt32 hf _ _)) fun library => ?_
  refine Action.madeOf_lift_bind (madeOf_function? hB.lookup "dlsym") fun findSymbol _ => ?_
  cases findSymbol with
  | none => exact Action.madeOf_pure _
  | some findSymbol =>
    refine Action.madeOf_bind (madeOf_findEntryPoint hB.toPasses findSymbol library) fun address => ?_
    split
    · exact Action.madeOf_pure _
    · refine Action.madeOf_lift_bind (hB.locate address) fun main _ => ?_
      cases main with
      | none => exact Action.madeOf_pure _
      | some main =>
        have henter := madeOf_callEntryPoint hB.toPasses (hB.invoke entryPoint main) argv
        refine Action.madeOf_bind henter fun code => ?_
        refine Action.madeOf_lift_bind (madeOf_function? hB.lookup "dlclose") fun close _ => ?_
        cases close with
        | none => exact Action.madeOf_pure _
        | some close =>
          have hcall := hB.quiet.op (.call .closeLibrary close [.ofInt32 library]) trivial trivial
          exact Action.madeOf_attempt_bind (madeOf_callRaw _ _ _ hcall) fun _ _ =>
            Action.madeOf_pure _

end Load

theorem madeOf_scratch (hB : B.Allows fails Op.IsLookup) (hf : CoversHost fails)
    (hlook : ∀ {γ : Type} {g : HostState → γ}, (∀ h h', h.pointers = h'.pointers → g h = g h') →
      (Program.host.bind fun h => .done (g h)).MadeOf B fun a => ∃ h, g h = a)
    (hset : ∀ f : Pointers → Pointers,
      (Program.modifyHost fun h => { h with pointers := f h.pointers }).MadeOf B fun _ => True)
    (hcall : ∀ (size f : Nat), B _ (.ofOp (.call .allocate f [.i32 size.toUInt32]))
      (Op.Answers fails (.call .allocate f [.i32 size.toUInt32]))) :
    Action.MadeOf B fails scratch := by
  refine Action.madeOf_look_bind (hlook fun h h' hh => by rw [hh]) fun host => ?_
  dsimp only
  split
  · exact Action.madeOf_pure _
  · refine hB.madeOf_survey_action (fun _ _ => rfl) fun setup => ?_
    refine Action.madeOf_bind (madeOf_allocate hB hf _ (hcall _)) fun address => ?_
    exact Action.madeOf_lift_bind (hset fun p => { p with scratch := some address })
      fun _ _ => Action.madeOf_pure _

/-- A kind whose blocks send things to the guest and keep the guest's addresses with the host. -/
structure Keeps (B : BlockKind) (fails : Error → Prop) : Prop where
  marshals : B.Allows fails Op.IsMarshal
  look {γ : Type} {g : HostState → γ} : (∀ h h', h.pointers = h'.pointers → g h = g h') →
    (Program.host.bind fun h => .done (g h)).MadeOf B fun a => ∃ h, g h = a
  setPointers (f : Pointers → Pointers) :
    (Program.modifyHost fun h => { h with pointers := f h.pointers }).MadeOf B fun _ => True

namespace Keeps

variable (hB : Keeps B fails)

include hB

theorem scratch (hf : CoversHost fails) : Action.MadeOf B fails scratch :=
  madeOf_scratch (hB.marshals.mono Op.IsAccess.isMarshal).lookup hf hB.look hB.setPointers
    fun _ _ => hB.marshals.op (.call _ _ _) trivial trivial

theorem passes (hf : CoversHost fails) : Passes B fails where
  quiet := hB.marshals.mono Op.IsQuiet.isMarshal
  scratch := hB.scratch hf
  inScope h := madeOf_inScope hB.marshals hf (h.madeOf hB.marshals hf)

end Keeps

theorem Keeps.of_ops (hB : B.Allows fails Op.IsMarshal)
    (hget : B HostState (.ofOp .getHost) (Op.Answers fails .getHost))
    (hset : ∀ h, B Unit (.ofOp (.setHost h)) (Op.Answers fails (.setHost h))) : Keeps B fails where
  marshals := hB
  look _ := Program.madeOf_bind (Program.madeOf_block hget) fun h _ => .done ⟨h, rfl⟩
  setPointers _ := Program.madeOf_bind (Program.madeOf_block hget) fun _ _ =>
    Program.madeOf_block (hset _)

/-- A kind whose blocks also enter functions, and put memory back. -/
structure Hosts (B : BlockKind) (fails : Error → Prop) : Prop extends Keeps B fails where
  invoke (name : String) (f : Nat) (args : List Value) : Action.MadeOf B fails (invoke name f args)
  restore (saved : Memory) : (Program.restore saved).MadeOf B fun _ => True

theorem Hosts.of_ops (hB : B.Allows fails Op.IsInner) (hf : CoversHost fails) : Hosts B fails where
  toKeeps := .of_ops (hB.mono fun h => h.isPlain.isInner) (hB.op .getHost trivial trivial)
    fun h => hB.op (.setHost h) trivial trivial
  invoke := madeOf_invoke (hB.mono fun h => h.isPlain.isInner) hf
    (hB.modifyHost trivial (fun _ => trivial) _)
  restore saved := hB.step (.restore saved) trivial trivial

namespace Hosts

variable (hB : Hosts B fails) (hf : CoversHost fails)

include hB hf

theorem loads : Loads B fails where
  toPasses := hB.passes hf
  invoke := hB.invoke
  locate := madeOf_tableFunction? hB.marshals trivial

omit hf in
theorem rolledBack {α : Type} {body : Action α} (hbody : Action.MadeOf B fails body) :
    Action.MadeOf B fails (rolledBack body) := by
  refine Program.madeOf_bind (hB.marshals.step .memory trivial trivial) fun saved _ => ?_
  refine Program.madeOf_look_bind (hB.look fun h h' hh => by rw [hh]) fun host => ?_
  refine Program.madeOf_bind hbody fun outcome houtcome => ?_
  refine Program.madeOf_bind (hB.restore saved) fun _ _ => ?_
  exact Program.madeOf_bind (hB.setPointers fun _ => host.pointers) fun _ _ => .done houtcome

/-- A run is put together from its marks and what is rolled back between them. -/
theorem run (hempty : fails (.invalidArgument .emptyArgv))
    (hbegan : ∀ argv, (Program.report (.runBegan argv)).MadeOf B fun _ => True)
    (hended : (Program.report .runEnded).MadeOf B fun _ => True) (argv : List String) :
    Action.MadeOf B fails (run argv) := by
  cases argv with
  | nil => exact Action.madeOf_throw hempty
  | cons path rest =>
    have hload := madeOf_loadAndExecute (hB.loads hf) hf path (path :: rest)
    refine Action.madeOf_lift_bind (hbegan _) fun _ _ => ?_
    refine Action.madeOf_attempt_bind (hB.rolledBack hload) fun outcome houtcome => ?_
    exact Action.madeOf_lift_bind hended fun _ _ => Action.madeOf_ofExcept houtcome

end Hosts

/-- What an embedding program has an instance do. -/
inductive Operation where
  | find (name : String)
  | call (name : String) (args : List Int64)
  | callWithString (name : String) (arg : StringArg) (extra : List Int64)
  | run (argv : List String)
  | terminal (argv : List String)
  | define (name : String)
  | allocate (size : Nat)
  | giveBack (address : UInt32)
  | send (bytes : List UInt8)
  | sendString (text : String) (slot : Option Slot)
  | readMemory (address : UInt32) (length : Nat)
  | writeMemory (address : UInt32) (bytes : List UInt8)
  | readString (address : UInt32)

namespace Operation

abbrev Result : Operation → Type
  | .find _ => Option Nat
  | .call _ _ | .callWithString _ _ _ => Json
  | .run _ | .terminal _ => Int32
  | .define _ => Int64
  | .allocate _ | .send _ | .sendString _ _ => UInt32
  | .giveBack _ | .writeMemory _ _ => Unit
  | .readMemory _ _ => List UInt8
  | .readString _ => String

def action : (op : Operation) → Action op.Result
  | .find name => liftM (function? name)
  | .call name args => Guest.call name args
  | .callWithString name arg extra => Guest.callWithString name arg extra
  | .run argv => Guest.run argv
  | .terminal argv => Guest.terminal argv
  | .define name => Guest.define name
  | .allocate size => Guest.allocate size
  | .giveBack address => Guest.giveBack address
  | .send bytes => Guest.send bytes
  | .sendString text slot => Guest.sendString text slot
  | .readMemory address length => Guest.readMemory address length
  | .writeMemory address bytes => Guest.writeMemory address bytes
  | .readString address => Guest.readString address

end Operation

/-- Every operation is made of what loading a library is made of, and of marshaling steps. Whole
runs are taken as they are. -/
theorem madeOf_operation (hB : Loads B fails) (hmarshal : B.Allows fails Op.IsMarshal)
    (hf : CoversHost fails) (op : Operation)
    (hrun : ∀ argv, op = .run argv → Action.MadeOf B fails (run argv)) :
    Action.MadeOf B fails op.action := by
  cases op with
  | find name => exact Action.madeOf_lift (madeOf_function? hB.lookup name)
  | call name args => exact madeOf_call hB hf name args
  | callWithString name arg extra => exact madeOf_callWithString hB hf name arg extra
  | run argv => exact hrun argv rfl
  | terminal argv =>
    exact Action.madeOf_bind (madeOf_callWithString hB hf _ _ _) fun output =>
      Action.madeOf_ofExcept (failsWithin_asInt32 hf _ _)
  | define name =>
    refine Action.madeOf_bind (madeOf_callWithString hB hf _ _ _) fun output => ?_
    split
    · exact Action.madeOf_pure _
    · exact Action.madeOf_throw (hf _ nofun)
  | allocate size => exact madeOf_allocateBlock hmarshal hf size
  | giveBack address =>
    exact madeOf_giveBack hB.lookup hf address fun _ => hmarshal.op (.call _ _ _) trivial trivial
  | send bytes => exact madeOf_send hmarshal hf bytes
  | sendString text slot => exact madeOf_sendString hmarshal hf text slot
  | readMemory address length => exact madeOf_readMemory hB.access hf address length
  | writeMemory address bytes => exact madeOf_writeMemory hB.access hf address bytes
  | readString address => exact madeOf_readString hB.access hf address

end Guest

end SandboxHost

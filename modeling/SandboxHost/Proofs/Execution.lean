import SandboxHost.Machine.Engine

namespace SandboxHost

mutual

def Instr.uses (kind : Operator → Bool) : Instr → Bool
  | .apply op code => kind op || codeUses kind code
  | .call _ code | .callIndirect _ code | .block _ code | .loop _ code | .branch _ code
  | .branchIf _ code | .leave code => codeUses kind code
  | .ifElse condition thenBody elseBody =>
    codeUses kind condition || (codeUses kind thenBody || codeUses kind elseBody)

def codeUses (kind : Operator → Bool) : List Instr → Bool
  | [] => false
  | i :: rest => i.uses kind || codeUses kind rest

end

def Module.uses (m : Module) (kind : Operator → Bool) : Bool :=
  m.funcs.any fun f => codeUses kind f.body

def Operator.setsGlobal : Operator → Bool
  | .globalSet _ => true
  | _ => false

def Operator.setsTable : Operator → Bool
  | .tableSet _ | .tableGrow _ | .tableCopy => true
  | _ => false

/-- Whether any code sets a global. A global that no code sets is as good as a constant. -/
def Module.setsGlobal (m : Module) : Bool := m.uses Operator.setsGlobal

def Module.setsTable (m : Module) : Bool := m.uses Operator.setsTable

def Machine.closesDescriptors (m : Machine) : Bool :=
  m.targets.any fun
    | .wasi .closeDescriptor => true
    | _ => false

theorem Exec.run_bind {α β : Type} (e : Exec α) (f : α → Exec β) (s : State) :
    (e >>= f).run.run s = (e.run.run s).bind fun x =>
      match x.1 with
      | .ok a => (f a).run.run x.2
      | .error error => .done (.error error, x.2) := by
  change Dialogue.bind _ _ = _
  congr 1
  funext x
  rcases x with ⟨_ | _, s⟩ <;> rfl

theorem Exec.run_charge (s : State) : Exec.charge.run.run s = match s.fuel with
    | none => .done (.ok (), s)
    | some 0 => .done (.error (.trap .outOfFuel), s)
    | some (n + 1) => .done (.ok (), { s with fuel := some n }) := by
  change ExceptT.run (m := StateT State Dialogue) (match s.fuel with
    | none => pure ()
    | some 0 => Exec.trap .outOfFuel
    | some (n + 1) => set { s with fuel := some n }) s = _
  split <;> rfl

namespace Machine

theorem run_growMemory (m : Machine) (delta : UInt32) (s : State) :
    (m.growMemory delta).run.run s =
      if s.memory.pages.size + delta.toNat ≤ m.maxPages then
        .done (.ok s.memory.pages.size.toUInt32, { s with memory := s.memory.grow delta.toNat })
      else .done (.ok 0xffffffff, s) := by
  change ExceptT.run (m := StateT State Dialogue) (if _ then do
    set { s with memory := s.memory.grow delta.toNat }
    return s.memory.pages.size.toUInt32 else return 0xffffffff) s = _
  split <;> rfl

theorem run_storeBytes (address : UInt32) (bytes : List UInt8) (s : State) :
    (storeBytes address bytes).run.run s =
      if address.toNat + bytes.length ≤ s.memory.size then
        .done (.ok (), { s with memory := s.memory.writeAll address.toNat bytes })
      else .done (.error (.trap .memoryAccess), s) := by
  change ExceptT.run (m := StateT State Dialogue) (if _ then
    set { s with memory := s.memory.writeAll address.toNat bytes }
    else Exec.trap .memoryAccess) s = _
  split <;> rfl

theorem run_changeTable (change : Table → Option Table) (s : State) :
    (changeTable change).run.run s = match change s.table with
      | some table => .done (.ok (), { s with table })
      | none => .done (.error (.trap .tableAccess), s) := by
  change ExceptT.run (m := StateT State Dialogue) (match change s.table with
    | some table => set { s with table }
    | none => Exec.trap .tableAccess) s = _
  split <;> rfl

theorem run_growTable (delta : UInt32) (function : Option Nat) (s : State) :
    (growTable delta function).run.run s =
      if s.table.size + delta.toNat < 0x100000000 then
        .done (.ok s.table.size.toUInt32,
          { s with table := s.table ++ Array.replicate delta.toNat function })
      else .done (.ok 0xffffffff, s) := by
  change ExceptT.run (m := StateT State Dialogue) (if _ then do
    set { s with table := s.table ++ Array.replicate delta.toNat function }
    return s.table.size.toUInt32 else return 0xffffffff) s = _
  split <;> rfl

theorem run_closeDescriptor (descriptor : UInt32) (s : State) :
    (closeDescriptor descriptor).run.run s =
      if descriptor ∈ s.descriptors then
        .done (.ok 0, { s with descriptors := s.descriptors.filter (· != descriptor) })
      else .done (.ok notOpen, s) := by
  change ExceptT.run (m := StateT State Dialogue) (if _ then do
    set { s with descriptors := s.descriptors.filter (· != descriptor) }
    return 0 else return notOpen) s = _
  split <;> rfl

/-- A loop goes round once, and then as often as it may still start again. -/
theorem goRound_succ (body : Frame → Exec (Flow × Frame)) (label : String)
    (height patience : Nat) (f : Frame) :
    ExceptT.mk (goRound body label height (patience + 1) f) = (body f >>= fun x =>
      match x with
      | (.branch l, f) =>
        if l = label then ExceptT.mk (goRound body label height patience (f.unwind height))
        else pure (.branch l, f)
      | x => pure x) := by
  funext s
  change goRound body label height (patience + 1) f s = (body f >>= _).run.run s
  rw [Exec.run_bind, goRound]
  cases (body f).run.run s with
  | done x =>
    rcases x with ⟨_ | ⟨_ | l | _, f⟩, s⟩ <;> try rfl
    dsimp only [Dialogue.bind]
    split <;> rfl
  | diverged => rfl
  | ask r next =>
    simp only [Dialogue.bind]
    congr 1
    funext answer
    congr 1
    funext x
    rcases x with ⟨_ | ⟨_ | l | _, f⟩, s⟩ <;> try rfl
    dsimp only
    split <;> rfl

/-- The same instance on a worker, or not on one. -/
def placed (m : Machine) (blocking : Bool) : Machine :=
  { m with setup := { m.setup with blocking } }

/-- A relation that the machine's own steps have to themselves, and each two executions that are put
together from executions that have it. -/
structure Couples (m : Machine) (G : (α : Type) → Exec α → Exec α → Prop) : Prop where
  pure {α : Type} (a : α) : G α (Pure.pure a) (Pure.pure a)
  bind {α β : Type} {e e' : Exec α} {f f' : α → Exec β} :
    G α e e' → (∀ a, G β (f a) (f' a)) → G β (e >>= f) (e' >>= f')
  trap {α : Type} (t : Trap) : G α (Exec.trap t) (Exec.trap t)
  diverge {α : Type} : G α Exec.diverge Exec.diverge
  charge : G Unit Exec.charge Exec.charge
  look {α : Type} {f f' : Memory → Table → Array UInt32 → Exec α} :
    (∀ memory table globals, G α (f memory table globals) (f' memory table globals)) →
      G α (getThe State >>= fun s => f s.memory s.table s.globals)
        (getThe State >>= fun s => f' s.memory s.table s.globals)
  grow (delta : UInt32) : G UInt32 (m.growMemory delta) (m.growMemory delta)
  store (address : UInt32) (bytes : List UInt8) :
    G Unit (storeBytes address bytes) (storeBytes address bytes)
  setGlobal (i : Nat) (w : UInt32) : m.setup.module.setsGlobal = true →
    G PUnit (modifyThe State fun s => { s with globals := s.globals.setIfInBounds i w })
      (modifyThe State fun s => { s with globals := s.globals.setIfInBounds i w })
  changeTable (change : Table → Option Table) : m.setup.module.setsTable = true →
    G Unit (changeTable change) (changeTable change)
  growTable (delta : UInt32) (function : Option Nat) : m.setup.module.setsTable = true →
    G UInt32 (growTable delta function) (growTable delta function)
  close (descriptor : UInt32) : m.closesDescriptors = true →
    G UInt32 (closeDescriptor descriptor) (closeDescriptor descriptor)

def CalleesMatch (G : (α : Type) → Exec α → Exec α → Prop) (call call' : Callee) : Prop :=
  ∀ f args, G _ (call f args) (call' f args)

/-- The programs behind the imports are related, here and in another place, where the functions that
they call are. -/
def ImportsMatch (m : Machine) (blocking : Bool) (G : (α : Type) → Exec α → Exec α → Prop) : Prop :=
  ∀ (i : Nat) (f : HostFunction), m.targets[i]? = some (.function f) →
    ∀ call call', CalleesMatch G call call' → ∀ args,
      G _ (ExceptT.mk (m.perform call (f.program args).run))
        (ExceptT.mk ((m.placed blocking).perform call' (f.program args).run))

mutual

/-- Guest code runs the same in every place. -/
theorem exec_placed (m : Machine) (blocking : Bool) (call : Callee) (i : Instr) :
    (m.placed blocking).exec call i = m.exec call i := by
  funext f
  cases i with
  | apply _ _ | call _ _ | callIndirect _ _ | loop _ _ =>
    rw [exec, exec, execAll_placed]
    rfl
  | ifElse condition thenBody elseBody =>
    rw [exec, exec, execAll_placed, execAll_placed, execAll_placed]
  | block _ _ | branch _ _ | branchIf _ _ | leave _ => rw [exec, exec, execAll_placed]

theorem execAll_placed (m : Machine) (blocking : Bool) (call : Callee) (code : List Instr) :
    (m.placed blocking).execAll call code = m.execAll call code := by
  funext f
  cases code with
  | nil => rw [execAll, execAll]
  | cons i rest => rw [execAll, execAll, exec_placed, execAll_placed]

end

theorem enter_placed (m : Machine) (blocking : Bool) (call : Callee) (func : Func)
    (args : List Value) : (m.placed blocking).enter call func args = m.enter call func args := by
  rw [enter, enter, execAll_placed]

namespace Couples

variable {m : Machine} {G : (α : Type) → Exec α → Exec α → Prop} (hG : m.Couples G) {α β : Type}

include hG

theorem orTrap (t : Trap) (a : Option α) : G α (Exec.orTrap t a) (Exec.orTrap t a) := by
  cases a with
  | some a => exact hG.pure a
  | none => exact hG.trap t

theorem guard {c : Prop} [Decidable c] {t : Trap} {f f' : Unit → Exec α}
    (hf : ∀ x, G α (f x) (f' x)) :
    G α (if c then Exec.trap t >>= f else f ()) (if c then Exec.trap t >>= f' else f' ()) := by
  split
  · exact hG.bind (hG.trap t) hf
  · exact hf ()

theorem guardNot {c : Prop} [Decidable c] {t : Trap} {f f' : Unit → Exec α}
    (hf : ∀ x, G α (f x) (f' x)) :
    G α (if c then f () else Exec.trap t >>= f) (if c then f' () else Exec.trap t >>= f') := by
  split
  · exact hf ()
  · exact hG.bind (hG.trap t) hf

theorem paid {e e' : Exec α} {f f' : α → Exec β} (he : G α e e') (hf : ∀ a, G β (f a) (f' a)) :
    G β (Exec.charge >>= fun _ => e >>= f) (Exec.charge >>= fun _ => e' >>= f') :=
  hG.bind hG.charge fun _ => hG.bind he hf

theorem lookAlike {f : Memory → Table → Array UInt32 → Exec α}
    (hf : ∀ memory table globals, G α (f memory table globals) (f memory table globals)) :
    G α (getThe State >>= fun s => f s.memory s.table s.globals)
      (getThe State >>= fun s => f s.memory s.table s.globals) := hG.look hf

theorem loadWord (address : UInt32) :
    G UInt32 (Machine.loadWord address) (Machine.loadWord address) :=
  hG.lookAlike (f := fun memory _ _ => Exec.orTrap .memoryAccess (memory.word? address.toNat))
    fun _ _ _ => hG.orTrap _ _

theorem loadByte (address : UInt32) :
    G UInt32 (Machine.loadByte address) (Machine.loadByte address) := by
  refine hG.lookAlike (f := fun memory _ _ =>
    if address.toNat < memory.size then Pure.pure (memory.get address.toNat).toUInt32
    else Exec.trap .memoryAccess) fun memory _ _ => ?_
  split
  · exact hG.pure _
  · exact hG.trap _

theorem operate (op : Operator) (f : Frame)
    (hop : ∀ kind, kind op = true → m.setup.module.uses kind = true) :
    G Frame (m.operate op f) (m.operate op f) := by
  have hnext (f : Frame) : G Frame (Pure.pure f) (Pure.pure f) := hG.pure f
  unfold Machine.operate
  split
  -- The operators that read or write the state or may trap, in the order of the definition; the
  -- others only work on the stack.
  case h_2 => exact hG.bind (hG.orTrap _ _) fun _ => hnext _
  case h_4 _ i =>
    exact hG.lookAlike (f := fun _ _ globals => do
      let w ← Exec.orTrap .invalidCode globals[i]?
      return f.push (.i32 w)) fun _ _ _ => hG.bind (hG.orTrap _ _) fun _ => hnext _
  case h_5 => exact hG.bind (hG.setGlobal _ _ (hop Operator.setsGlobal rfl)) fun _ => hnext _
  case h_7 => exact hG.trap _
  case h_8 =>
    exact hG.lookAlike (f := fun memory _ _ => Pure.pure (f.push (.i32 memory.pages.size.toUInt32)))
      fun _ _ _ => hnext _
  case h_9 => exact hG.bind (hG.grow _) fun _ => hnext _
  case h_10 => exact hG.bind (hG.orTrap _ _) fun _ => hnext _
  case h_12 => exact hG.bind (hG.loadWord _) fun _ => hnext _
  case h_13 => exact hG.bind (hG.loadByte _) fun _ => hnext _
  case h_14 => exact hG.bind (hG.store _ _) fun _ => hnext _
  case h_15 => exact hG.bind (hG.store _ _) fun _ => hnext _
  case h_23 =>
    exact hG.lookAlike (f := fun _ table _ => Pure.pure (f.push (.i32 table.size.toUInt32)))
      fun _ _ _ => hnext _
  case h_24 => exact hG.bind (hG.changeTable _ (hop Operator.setsTable rfl)) fun _ => hnext _
  case h_25 => exact hG.bind (hG.growTable _ _ (hop Operator.setsTable rfl)) fun _ => hnext _
  case h_26 => exact hG.bind (hG.changeTable _ (hop Operator.setsTable rfl)) fun _ => hnext _
  case h_27 => exact hG.trap _
  all_goals exact hnext _

theorem callFrom {call call' : Callee} (hcall : CalleesMatch G call call') (function : Nat)
    (f : Frame) : G Frame (m.callFrom call function f) (m.callFrom call' function f) := by
  refine hG.bind (hG.orTrap _ _) fun type => ?_
  exact hG.guard fun _ => hG.bind (hcall _ _) fun _ => hG.pure _

theorem entryFunction (type : FuncType) (i : UInt32) :
    G Nat (m.entryFunction type i) (m.entryFunction type i) := by
  refine hG.lookAlike (f := fun _ table _ => do
    let function ← Exec.orTrap .nullEntry (← Exec.orTrap .tableAccess table[i.toNat]?)
    if m.setup.module.funcType? function ≠ some type then Exec.trap .entryMismatch
    return function) fun _ table _ => ?_
  refine hG.bind (hG.orTrap _ _) fun entry => hG.bind (hG.orTrap _ _) fun function => ?_
  exact hG.guard fun _ => hG.pure function

theorem loop {body body' : Frame → Exec (Flow × Frame)} (hbody : ∀ f, G _ (body f) (body' f))
    (label : String) (height patience : Nat) (f : Frame) :
    G _ (ExceptT.mk (goRound body label height patience f))
      (ExceptT.mk (goRound body' label height patience f)) := by
  induction patience generalizing f with
  | zero => exact hG.diverge
  | succ patience ih =>
    rw [goRound_succ, goRound_succ]
    refine hG.bind (hbody f) fun x => ?_
    split
    · split
      · exact ih _
      · exact hG.pure _
    · exact hG.pure _

section

variable {call call' : Callee}

mutual

theorem exec (hcall : CalleesMatch G call call') (i : Instr) (f : Frame)
    (hi : ∀ kind, i.uses kind = true → m.setup.module.uses kind = true) :
    G _ (Machine.exec m call i f) (Machine.exec m call' i f) := by
  cases i with
  | apply op operands =>
    rw [Machine.exec, Machine.exec]
    simp only [Instr.uses, Bool.or_eq_true] at hi
    refine hG.paid (execAll hcall operands f fun kind h => hi kind (.inr h)) fun x => ?_
    split
    · exact hG.bind (hG.operate op _ fun kind h => hi kind (.inl h)) fun _ => hG.pure _
    · exact hG.pure _
  | call function operands =>
    rw [Machine.exec, Machine.exec]
    refine hG.paid (execAll hcall operands f hi) fun x => ?_
    split
    · exact hG.bind (hG.callFrom hcall function _) fun _ => hG.pure _
    · exact hG.pure _
  | callIndirect type operands =>
    rw [Machine.exec, Machine.exec]
    refine hG.paid (execAll hcall operands f hi) fun x => ?_
    split
    · exact hG.bind (hG.entryFunction type _) fun function =>
        hG.bind (hG.callFrom hcall function _) fun _ => hG.pure _
    · exact hG.trap _
    · exact hG.pure _
  | ifElse condition thenBody elseBody =>
    rw [Machine.exec, Machine.exec]
    simp only [Instr.uses, Bool.or_eq_true] at hi
    refine hG.paid (execAll hcall condition f fun kind h => hi kind (.inl h)) fun x => ?_
    split
    · split
      · exact execAll hcall thenBody _ fun kind h => hi kind (.inr (.inl h))
      · exact execAll hcall elseBody _ fun kind h => hi kind (.inr (.inr h))
    · exact hG.trap _
    · exact hG.pure _
  | block label body =>
    rw [Machine.exec, Machine.exec]
    refine hG.bind (execAll hcall body f hi) fun x => ?_
    split
    · split <;> exact hG.pure _
    · exact hG.pure _
  | loop label body =>
    rw [Machine.exec, Machine.exec]
    exact hG.loop (fun f => execAll hcall body f hi) label _ _ f
  | branch label operands =>
    rw [Machine.exec, Machine.exec]
    refine hG.paid (execAll hcall operands f hi) fun x => ?_
    split <;> exact hG.pure _
  | branchIf label operands =>
    rw [Machine.exec, Machine.exec]
    refine hG.paid (execAll hcall operands f hi) fun x => ?_
    split
    · exact hG.pure _
    · exact hG.trap _
    · exact hG.pure _
  | leave operands =>
    rw [Machine.exec, Machine.exec]
    refine hG.paid (execAll hcall operands f hi) fun x => ?_
    split <;> exact hG.pure _

theorem execAll (hcall : CalleesMatch G call call') (code : List Instr) (f : Frame)
    (hcode : ∀ kind, codeUses kind code = true → m.setup.module.uses kind = true) :
    G _ (Machine.execAll m call code f) (Machine.execAll m call' code f) := by
  cases code with
  | nil =>
    rw [Machine.execAll, Machine.execAll]
    exact hG.pure _
  | cons i rest =>
    rw [Machine.execAll, Machine.execAll]
    simp only [codeUses, Bool.or_eq_true] at hcode
    refine hG.bind (exec hcall i f fun kind h => hcode kind (.inl h)) fun x => ?_
    split
    · exact execAll hcall rest _ fun kind h => hcode kind (.inr h)
    · exact hG.pure _

end

theorem enter (hcall : CalleesMatch G call call') (func : Func)
    (hfunc : ∀ kind, codeUses kind func.body = true → m.setup.module.uses kind = true)
    (args : List Value) : G _ (m.enter call func args) (m.enter call' func args) := by
  refine hG.paid (hG.execAll hcall _ _ hfunc) fun x => ?_
  dsimp only
  split
  · exact hG.pure _
  · exact hG.trap _

end

theorem storeAligned (address value : UInt32) :
    G Unit (Machine.storeAligned address value) (Machine.storeAligned address value) := by
  unfold Machine.storeAligned
  split
  · exact hG.bind (hG.trap _) fun _ => hG.store _ _
  · exact hG.store _ _

theorem advance (address : UInt32) (count : Nat) :
    G UInt32 (Machine.advance address count) (Machine.advance address count) := by
  unfold Machine.advance
  split
  · exact hG.pure _
  · exact hG.trap _

theorem storePieces (pieces : List (List UInt8)) (address : UInt32) :
    G UInt32 (Machine.storePieces pieces address) (Machine.storePieces pieces address) := by
  induction pieces generalizing address with
  | nil => exact hG.pure address
  | cons piece rest ih => exact hG.bind (hG.store _ _) fun _ => hG.bind (hG.advance _ _) ih

theorem storeTexts (texts : List (List (List UInt8))) (array buffer : UInt32) :
    G Unit (Machine.storeTexts texts array buffer) (Machine.storeTexts texts array buffer) := by
  induction texts generalizing array buffer with
  | nil => exact hG.pure ()
  | cons text rest ih =>
    exact hG.bind (hG.storeAligned _ _) fun _ => hG.bind (hG.advance _ _) fun _ =>
      hG.bind (hG.storePieces _ _) (ih _)

theorem storeSizes (texts : List (List (List UInt8))) (count bytes : UInt32) :
    G Unit (Machine.storeSizes texts count bytes) (Machine.storeSizes texts count bytes) :=
  hG.bind (hG.storeAligned _ _) fun _ => hG.storeAligned _ _

theorem serveWasi (w : Wasi) (hw : w = .closeDescriptor → m.closesDescriptors = true)
    (args : List Value) : G _ (m.serveWasi w args) (m.serveWasi w args) := by
  unfold Machine.serveWasi
  split
  · exact hG.bind (hG.storeSizes _ _ _) fun _ => hG.pure _
  · exact hG.bind (hG.storeTexts _ _ _) fun _ => hG.pure _
  · exact hG.bind (hG.storeSizes _ _ _) fun _ => hG.pure _
  · exact hG.bind (hG.storeTexts _ _ _) fun _ => hG.pure _
  · exact hG.close _ (hw rfl)
  · exact hG.trap _

theorem wasiCall (caller : Caller) (w : Wasi) (hw : w = .closeDescriptor → m.closesDescriptors = true)
    (args : List Value) : G _ (m.wasiCall caller w args) (m.wasiCall caller w args) := by
  unfold Machine.wasiCall
  exact hG.guardNot fun _ => hG.bind (hG.serveWasi w hw args) fun _ => hG.pure _

omit hG in
theorem closesDescriptors_of_target {i : Nat} (h : m.targets[i]? = some (.wasi .closeDescriptor)) :
    m.closesDescriptors = true := Array.any_eq_true'.mpr ⟨_, Array.mem_of_getElem? h, rfl⟩

theorem importCall {call call' : Callee} {blocking : Bool} (himports : m.ImportsMatch blocking G)
    (hcall : CalleesMatch G call call') (caller : Caller) (i : Nat) (args : List Value) :
    G _ (m.importCall call caller i args)
      ((m.placed blocking).importCall call' caller i args) := by
  have htarget : (m.placed blocking).targets[i]? = m.targets[i]? := rfl
  have hmodule : (m.placed blocking).setup.module = m.setup.module := rfl
  unfold Machine.importCall
  rw [htarget, hmodule]
  split
  · next f hf => exact hG.bind (himports i f hf call call' hcall args) fun _ => hG.orTrap _ _
  · next w hw =>
    exact hG.wasiCall _ _ (fun hclose => closesDescriptors_of_target (hclose ▸ hw)) _
  · split <;> exact hG.trap _

omit hG in
theorem uses_of_mem {i : Nat} {func : Func} (hfunc : m.setup.module.funcs[i]? = some func)
    (kind : Operator → Bool) (h : codeUses kind func.body = true) :
    m.setup.module.uses kind = true :=
  Array.any_eq_true'.mpr ⟨func, Array.mem_of_getElem? hfunc, h⟩

theorem guestCall {call call' : Callee} {blocking : Bool} (hcall : CalleesMatch G call call')
    (i : Nat) (args : List Value) :
    G _ (do
      let func ← Exec.orTrap .invalidCode m.setup.module.funcs[i]?
      m.enter call func args) (do
      let func ← Exec.orTrap .invalidCode m.setup.module.funcs[i]?
      (m.placed blocking).enter call' func args) := by
  simp only [enter_placed]
  cases hfunc : m.setup.module.funcs[i]? with
  | none => exact hG.trap _
  | some func => exact hG.enter hcall func (uses_of_mem hfunc) args

/-- A relation that the imports have too is one of every call, however deep, here and in another
place. -/
theorem callFunction {blocking : Bool} (himports : m.ImportsMatch blocking G)
    (depth hostDepth : Nat) (caller : Caller) :
    CalleesMatch G (m.callFunction depth hostDepth caller)
      ((m.placed blocking).callFunction depth hostDepth caller) := by
  -- Only calls use up depth, so what a call calls is related by induction.
  induction depth generalizing hostDepth caller with
  | zero => exact fun _ _ => hG.trap _
  | succ depth ih =>
    intro f args
    cases hostDepth with
    | zero =>
      refine hG.bind (hG.orTrap _ _) fun type => hG.guard fun _ => ?_
      change G _ (if _ then _ else _) (if f < m.setup.module.imports.size then _ else _)
      split
      · exact hG.trap _
      · exact hG.guestCall (ih 0 .guest) _ args
    | succ hostDepth =>
      refine hG.bind (hG.orTrap _ _) fun type => hG.guard fun _ => ?_
      change G _ (if _ then _ else _) (if f < m.setup.module.imports.size then _ else _)
      split
      · exact hG.importCall himports (ih hostDepth .host) caller f args
      · exact hG.guestCall (ih (hostDepth + 1) .guest) _ args

end Couples

/-- A property that the machine's own steps have, and each execution that is put together from
executions that have it. -/
structure Composes (m : Machine) (G : (α : Type) → Exec α → Prop) : Prop where
  pure {α : Type} (a : α) : G α (Pure.pure a)
  bind {α β : Type} {e : Exec α} {f : α → Exec β} : G α e → (∀ a, G β (f a)) → G β (e >>= f)
  trap {α : Type} (t : Trap) : G α (Exec.trap t)
  diverge {α : Type} : G α Exec.diverge
  charge : G Unit Exec.charge
  look {α : Type} {f : Memory → Table → Array UInt32 → Exec α} :
    (∀ memory table globals, G α (f memory table globals)) →
      G α (getThe State >>= fun s => f s.memory s.table s.globals)
  grow (delta : UInt32) : G UInt32 (m.growMemory delta)
  store (address : UInt32) (bytes : List UInt8) : G Unit (storeBytes address bytes)
  setGlobal (i : Nat) (w : UInt32) : m.setup.module.setsGlobal = true →
    G PUnit (modifyThe State fun s => { s with globals := s.globals.setIfInBounds i w })
  changeTable (change : Table → Option Table) : m.setup.module.setsTable = true →
    G Unit (changeTable change)
  growTable (delta : UInt32) (function : Option Nat) : m.setup.module.setsTable = true →
    G UInt32 (growTable delta function)
  close (descriptor : UInt32) : m.closesDescriptors = true → G UInt32 (closeDescriptor descriptor)

def CalleeHas (G : (α : Type) → Exec α → Prop) (call : Callee) : Prop := ∀ f args, G _ (call f args)

/-- The programs behind the imports have the property where the functions that they call do. -/
def ImportsHave (m : Machine) (G : (α : Type) → Exec α → Prop) : Prop :=
  ∀ (i : Nat) (f : HostFunction), m.targets[i]? = some (.function f) →
    ∀ call, CalleeHas G call → ∀ args, G _ (ExceptT.mk (m.perform call (f.program args).run))

namespace Composes

variable {m : Machine} {G : (α : Type) → Exec α → Prop}

theorem couples (hG : m.Composes G) : m.Couples fun α e _ => G α e where
  pure := hG.pure
  bind := hG.bind
  trap := hG.trap
  diverge := hG.diverge
  charge := hG.charge
  look := hG.look
  grow := hG.grow
  store := hG.store
  setGlobal := hG.setGlobal
  changeTable := hG.changeTable
  growTable := hG.growTable
  close := hG.close

/-- A property that the imports have too is one of every call, however deep. -/
theorem callFunction (hG : m.Composes G) (himports : m.ImportsHave G) (depth hostDepth : Nat)
    (caller : Caller) : CalleeHas G (m.callFunction depth hostDepth caller) := by
  have hmatch : m.ImportsMatch m.setup.blocking fun α e _ => G α e :=
    fun i f hf call _ hcall args => himports i f hf call hcall args
  exact hG.couples.callFunction hmatch depth hostDepth caller

end Composes

end Machine

end SandboxHost

import SandboxHost.Machine.State

namespace SandboxHost

/-- The locals of a function in progress and its operand stack, top first. -/
structure Frame where
  locals : Array Value
  stack : List Value

/-- How a run of instructions ends: at its end, on the way to a label, or on the way out. -/
inductive Flow where
  | next
  | branch (label : String)
  | leave

namespace Frame

def push (f : Frame) (v : Value) : Frame := { f with stack := v :: f.stack }

def unwind (f : Frame) (height : Nat) : Frame :=
  { f with stack := f.stack.drop (f.stack.length - height) }

end Frame

namespace WordOp

def ofBool (b : Bool) : UInt32 := if b then 1 else 0

/-- Division has no result by zero, nor where the quotient is no word. -/
def eval : WordOp → UInt32 → UInt32 → Option UInt32
  | .add, a, b => some (a + b)
  | .sub, a, b => some (a - b)
  | .mul, a, b => some (a * b)
  | .and, a, b => some (a &&& b)
  | .eq, a, b => some (ofBool (a == b))
  | .ne, a, b => some (ofBool (a != b))
  | .lessU, a, b => some (ofBool (a < b))
  | .greaterU, a, b => some (ofBool (b < a))
  | .greaterS, a, b => some (ofBool (b.toInt32 < a.toInt32))
  | .atLeastS, a, b => some (ofBool (b.toInt32 ≤ a.toInt32))
  | .atMostS, a, b => some (ofBool (a.toInt32 ≤ b.toInt32))
  | .divS, a, b =>
    if b = 0 ∨ (a = 0x80000000 ∧ b = 0xffffffff) then none
    else some (a.toInt32 / b.toInt32).toUInt32

end WordOp

namespace Machine

/-- Grows memory by a number of pages and gives the old number, or -1 if that is too many. -/
def growMemory (m : Machine) (delta : UInt32) : Exec UInt32 := do
  let s ← getThe State
  let old := s.memory.pages.size
  if old + delta.toNat ≤ m.maxPages then
    set { s with memory := s.memory.grow delta.toNat }
    return old.toUInt32
  else return 0xffffffff

def storeBytes (address : UInt32) (bytes : List UInt8) : Exec Unit := do
  let s ← getThe State
  if address.toNat + bytes.length ≤ s.memory.size then
    set { s with memory := s.memory.writeAll address.toNat bytes }
  else Exec.trap .memoryAccess

/-- Changes the table, unless some of the change lies outside of it. -/
def changeTable (change : Table → Option Table) : Exec Unit := do
  let s ← getThe State
  match change s.table with
  | some table => set { s with table }
  | none => Exec.trap .tableAccess

def growTable (delta : UInt32) (function : Option Nat) : Exec UInt32 := do
  let s ← getThe State
  let old := s.table.size
  if old + delta.toNat < 0x100000000 then
    set { s with table := s.table ++ Array.replicate delta.toNat function }
    return old.toUInt32
  else return 0xffffffff

def loadWord (address : UInt32) : Exec UInt32 := do
  Exec.orTrap .memoryAccess ((← getThe State).memory.word? address.toNat)

def loadByte (address : UInt32) : Exec UInt32 := do
  let memory := (← getThe State).memory
  if address.toNat < memory.size then return (memory.get address.toNat).toUInt32
  else Exec.trap .memoryAccess

def operate (m : Machine) (op : Operator) (f : Frame) : Exec Frame := do
  match op, f.stack with
  | .const v, _ => return f.push v
  | .localGet i, _ => return f.push (← Exec.orTrap .invalidCode f.locals[i]?)
  | .localSet i, v :: rest => return ⟨f.locals.setIfInBounds i v, rest⟩
  | .globalGet i, _ => return f.push (.i32 (← Exec.orTrap .invalidCode (← getThe State).globals[i]?))
  | .globalSet i, .i32 w :: rest =>
    modifyThe State fun s => { s with globals := s.globals.setIfInBounds i w }
    return { f with stack := rest }
  | .drop, _ :: rest => return { f with stack := rest }
  | .unreachable, _ => Exec.trap .unreachable
  | .memorySize, _ => return f.push (.i32 (← getThe State).memory.pages.size.toUInt32)
  | .memoryGrow, .i32 delta :: rest =>
    return { f with stack := .i32 (← m.growMemory delta) :: rest }
  | .word op, .i32 b :: .i32 a :: rest =>
    return { f with stack := .i32 (← Exec.orTrap .division (op.eval a b)) :: rest }
  | .eqz, .i32 a :: rest => return { f with stack := .i32 (WordOp.ofBool (a == 0)) :: rest }
  | .load, .i32 a :: rest => return { f with stack := .i32 (← loadWord a) :: rest }
  | .loadByte, .i32 a :: rest => return { f with stack := .i32 (← loadByte a) :: rest }
  | .store, .i32 w :: .i32 a :: rest =>
    storeBytes a (Memory.wordBytes w)
    return { f with stack := rest }
  | .storeByte, .i32 w :: .i32 a :: rest =>
    storeBytes a [w.toUInt8]
    return { f with stack := rest }
  | .addLong, .i64 b :: .i64 a :: rest => return { f with stack := .i64 (a + b) :: rest }
  | .extendU, .i32 a :: rest => return { f with stack := .i64 a.toUInt64 :: rest }
  | .extendS, .i32 a :: rest => return { f with stack := .i64 a.toInt32.toInt64.toUInt64 :: rest }
  | .wordOfSingle, .f32 bits :: rest => return { f with stack := .i32 bits :: rest }
  | .singleOfWord, .i32 a :: rest => return { f with stack := .f32 a :: rest }
  | .longOfDouble, .f64 bits :: rest => return { f with stack := .i64 bits :: rest }
  | .doubleOfLong, .i64 a :: rest => return { f with stack := .f64 a :: rest }
  | .tableSize, _ => return f.push (.i32 (← getThe State).table.size.toUInt32)
  | .tableSet function, .i32 i :: rest =>
    changeTable (·.set? i.toNat function)
    return { f with stack := rest }
  | .tableGrow function, .i32 delta :: rest =>
    return { f with stack := .i32 (← growTable delta function) :: rest }
  | .tableCopy, .i32 count :: .i32 source :: .i32 target :: rest =>
    changeTable (·.copy? target.toNat source.toNat count.toNat)
    return { f with stack := rest }
  | _, _ => Exec.trap .invalidCode

/-- Takes arguments from the stack, the last one first, and puts the results onto it. -/
def callFrom (m : Machine) (call : Callee) (function : Nat) (f : Frame) : Exec Frame := do
  let type ← Exec.orTrap .invalidCode (m.setup.module.funcType? function)
  let count := type.params.length
  if f.stack.length < count then Exec.trap .invalidCode
  let results ← call function (f.stack.take count).reverse
  return { f with stack := results.reverse ++ f.stack.drop count }

/-- The function in the table at an index, if it has the type that is expected. -/
def entryFunction (m : Machine) (type : FuncType) (i : UInt32) : Exec Nat := do
  let table := (← getThe State).table
  let entry ← Exec.orTrap .tableAccess table[i.toNat]?
  let function ← Exec.orTrap .nullEntry entry
  if m.setup.module.funcType? function ≠ some type then Exec.trap .entryMismatch
  return function

/-- Goes round a loop as long as its body branches back to it. -/
def goRound (body : Frame → Exec (Flow × Frame)) (label : String) (height : Nat) :
    Nat → Frame → State → Dialogue (Except Error (Flow × Frame) × State)
  | 0, _, _ => .diverged
  | patience + 1, f, s =>
    match (body f).run.run s with
    | .done (.ok (.branch l, f), s) =>
      if l = label then goRound body label height patience (f.unwind height) s
      else .done (.ok (.branch l, f), s)
    | .done (outcome, s) => .done (outcome, s)
    | .diverged => .diverged
    | .ask r next => .ask r fun answer => (next answer).bind fun (outcome, s) =>
      match outcome with
      | .ok (.branch l, f) =>
        if l = label then goRound body label height patience (f.unwind height) s
        else .done (.ok (.branch l, f), s)
      | outcome => .done (outcome, s)

mutual

def exec (m : Machine) (call : Callee) : Instr → Frame → Exec (Flow × Frame)
  | .apply op operands, f => do
    Exec.charge
    match ← execAll m call operands f with
    | (.next, f) => return (.next, ← m.operate op f)
    | left => return left
  | .call function operands, f => do
    Exec.charge
    match ← execAll m call operands f with
    | (.next, f) => return (.next, ← m.callFrom call function f)
    | left => return left
  | .callIndirect type operands, f => do
    Exec.charge
    match ← execAll m call operands f with
    | (.next, ⟨locals, .i32 i :: rest⟩) =>
      return (.next, ← m.callFrom call (← m.entryFunction type i) ⟨locals, rest⟩)
    | (.next, _) => Exec.trap .invalidCode
    | left => return left
  | .ifElse condition thenBody elseBody, f => do
    Exec.charge
    match ← execAll m call condition f with
    | (.next, ⟨locals, .i32 w :: rest⟩) =>
      if w ≠ 0 then execAll m call thenBody ⟨locals, rest⟩ else execAll m call elseBody ⟨locals, rest⟩
    | (.next, _) => Exec.trap .invalidCode
    | left => return left
  | .block label body, f => do
    match ← execAll m call body f with
    | (.branch l, inner) =>
      if l = label then return (.next, inner.unwind f.stack.length) else return (.branch l, inner)
    | left => return left
  | .loop label body, f =>
    ExceptT.mk (goRound (execAll m call body) label f.stack.length m.patience f)
  | .branch label operands, f => do
    Exec.charge
    match ← execAll m call operands f with
    | (.next, f) => return (.branch label, f)
    | left => return left
  | .branchIf label operands, f => do
    Exec.charge
    match ← execAll m call operands f with
    | (.next, ⟨locals, .i32 w :: rest⟩) =>
      return (if w ≠ 0 then .branch label else .next, ⟨locals, rest⟩)
    | (.next, _) => Exec.trap .invalidCode
    | left => return left
  | .leave operands, f => do
    Exec.charge
    match ← execAll m call operands f with
    | (.next, f) => return (.leave, f)
    | left => return left

def execAll (m : Machine) (call : Callee) : List Instr → Frame → Exec (Flow × Frame)
  | [], f => return (.next, f)
  | i :: rest, f => do
    match ← exec m call i f with
    | (.next, f) => execAll m call rest f
    | left => return left

end

/-- Runs a function of the module. Its results are the values on top of the stack. -/
def enter (m : Machine) (call : Callee) (func : Func) (args : List Value) : Exec (List Value) := do
  Exec.charge
  let locals := args ++ func.locals.map ValueType.zero
  let (_, f) ← execAll m call func.body ⟨locals.toArray, []⟩
  let results := (f.stack.take func.type.results.length).reverse
  if typesOf results = func.type.results then return results else Exec.trap .invalidCode

end Machine

end SandboxHost

import SandboxHost.Guest.Module

namespace SandboxHost.Typing

structure Scope where
  module : Module
  locals : List ValueType
  results : List ValueType

/-- The types on the stack since the innermost block began, the top first. Where code is never reached,
more values of any type lie below. -/
structure Stack where
  types : List ValueType := []
  reachable : Bool := true

namespace Stack

def push (s : Stack) (types : List ValueType) : Stack :=
  { s with types := types.reverse ++ s.types }

def drop? (s : Stack) : Option Stack :=
  match s.types with
  | _ :: rest => some { s with types := rest }
  | [] => if s.reachable then none else some s

def pop? (s : Stack) (type : ValueType) : Option Stack :=
  match s.types with
  | t :: rest => if t = type then some { s with types := rest } else none
  | [] => if s.reachable then none else some s

/-- Takes values of these types, the last one first. -/
def popAll? (s : Stack) (types : List ValueType) : Option Stack :=
  types.foldr (fun t s => s.bind (·.pop? t)) (some s)

def call? (s : Stack) (type : FuncType) : Option Stack :=
  (s.popAll? type.params).map (·.push type.results)

/-- The stack after an instruction that is never passed. -/
def passed : Stack := { reachable := false }

end Stack

def onWords (params results : Nat) : FuncType :=
  ⟨List.replicate params .i32, List.replicate results .i32⟩

/-- What an operator takes and gives, unless it takes any type or is never passed. -/
def operatorType? (σ : Scope) : Operator → Option FuncType
  | .const v => some ⟨[], [v.type]⟩
  | .localGet i => σ.locals[i]?.map fun t => ⟨[], [t]⟩
  | .localSet i => σ.locals[i]?.map fun t => ⟨[t], []⟩
  | .globalGet i => if i < σ.module.globals.length then some (onWords 0 1) else none
  | .globalSet i => if i < σ.module.globals.length then some (onWords 1 0) else none
  | .memorySize => inMemory (onWords 0 1)
  | .memoryGrow | .load | .loadByte => inMemory (onWords 1 1)
  | .store | .storeByte => inMemory (onWords 2 0)
  | .word _ => some (onWords 2 1)
  | .eqz => some (onWords 1 1)
  | .addLong => some ⟨[.i64, .i64], [.i64]⟩
  | .extendU | .extendS => some ⟨[.i32], [.i64]⟩
  | .wordOfSingle => some ⟨[.f32], [.i32]⟩
  | .singleOfWord => some ⟨[.i32], [.f32]⟩
  | .longOfDouble => some ⟨[.f64], [.i64]⟩
  | .doubleOfLong => some ⟨[.i64], [.f64]⟩
  | .tableSize => inTable none (onWords 0 1)
  | .tableSet function => inTable function (onWords 1 0)
  | .tableGrow function => inTable function (onWords 1 1)
  | .tableCopy => inTable none (onWords 3 0)
  | .drop | .unreachable => none
where
  inMemory (type : FuncType) : Option FuncType :=
    if σ.module.memory.isSome then some type else none
  inTable (function : Option Nat) (type : FuncType) : Option FuncType :=
    if σ.module.table.isSome ∧ function.all (σ.module.funcType? · |>.isSome) then some type else none

def operator? (σ : Scope) (s : Stack) : Operator → Option Stack
  | .drop => s.drop?
  | .unreachable => some .passed
  | op => (operatorType? σ op).bind s.call?

mutual

/-- The stack after an instruction. A branch goes to one of the labels around it. -/
def instr? (σ : Scope) (labels : List String) (s : Stack) : Instr → Option Stack
  | .apply op operands => do operator? σ (← instrs? σ labels s operands) op
  | .call function operands => do
    (← instrs? σ labels s operands).call? (← σ.module.funcType? function)
  | .callIndirect type operands => do
    let s ← (← instrs? σ labels s operands).pop? .i32
    if σ.module.table.isSome then s.call? type else failure
  | .ifElse condition thenBody elseBody => do
    let s ← (← instrs? σ labels s condition).pop? .i32
    body? σ labels thenBody
    body? σ labels elseBody
    return s
  | .block label body => do
    body? σ (label :: labels) body
    return s
  | .loop label body => do
    body? σ (label :: labels) body
    return s
  | .branch label operands => do
    let _ ← instrs? σ labels s operands
    if labels.contains label then return .passed else failure
  | .branchIf label operands => do
    let s ← (← instrs? σ labels s operands).pop? .i32
    if labels.contains label then return s else failure
  | .leave operands => do
    let _ ← (← instrs? σ labels s operands).popAll? σ.results
    return .passed

def instrs? (σ : Scope) (labels : List String) (s : Stack) : List Instr → Option Stack
  | [] => some s
  | i :: rest => do instrs? σ labels (← instr? σ labels s i) rest

/-- A body that takes nothing from the stack around it and leaves nothing there. -/
def body? (σ : Scope) (labels : List String) (body : List Instr) : Option Unit := do
  let s ← instrs? σ labels {} body
  if s.types.isEmpty then return () else failure

end

def isFunction (m : Module) (f : Func) : Bool :=
  let σ : Scope := ⟨m, f.type.params ++ f.locals, f.type.results⟩
  match (instrs? σ [] {} f.body).bind (·.popAll? σ.results) with
  | some s => s.types.isEmpty
  | none => false

/-- A start function takes and gives nothing, and data needs memory to be in. -/
def isModule (m : Module) : Bool :=
  m.funcs.all (isFunction m) && m.start.all (m.funcType? · == some ⟨[], []⟩) &&
    (m.memory.isSome || m.data.isEmpty)

end SandboxHost.Typing

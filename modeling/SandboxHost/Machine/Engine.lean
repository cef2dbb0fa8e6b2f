import SandboxHost.Machine.Exec

namespace SandboxHost.Machine

/-- Runs a host program. `call` enters the guest functions it calls. -/
def perform (m : Machine) (call : Callee) {α : Type} : Program α → State → Dialogue (α × State)
  | .done a, s => .done (a, s)
  | .step .setup next, s => perform m call (next m.setup) s
  | .step .getHost next, s => perform m call (next s.host) s
  | .step (.setHost h) next, s => perform m call (next ()) { s with host := h }
  | .step .memory next, s => perform m call (next s.memory) s
  | .step (.table _) next, s => perform m call (next s.table) s
  | .step (.write address bytes) next, s =>
    if address + bytes.length ≤ s.memory.size then
      perform m call (next true) { s with memory := s.memory.writeAll address bytes }
    else perform m call (next false) s
  | .step (.restore saved) next, s =>
    perform m call (next ()) { s with memory := s.memory.restore saved }
  | .step (.call _ f args) next, s =>
    ((call f args).run.run s).bind fun (outcome, s) => perform m call (next outcome) s
  | .step (.ask r) next, s => .ask r fun answer => perform m call (next answer) s

def storeAligned (address value : UInt32) : Exec Unit := do
  if address % 4 ≠ 0 then Exec.trap .memoryAccess
  storeBytes address (Memory.wordBytes value)

def advance (address : UInt32) (count : Nat) : Exec UInt32 :=
  if address.toNat + count < 0x100000000 then return address + count.toUInt32
  else Exec.trap .memoryAccess

/-- Writes pieces of bytes one after the other, each as a whole, and gives the address after them. -/
def storePieces : List (List UInt8) → UInt32 → Exec UInt32
  | [], address => return address
  | piece :: rest, address => do
    storeBytes address piece
    storePieces rest (← advance address piece.length)

/-- Writes texts in pieces, one after the other, and the address of each into an array before it. -/
def storeTexts : List (List (List UInt8)) → UInt32 → UInt32 → Exec Unit
  | [], _, _ => return ()
  | text :: rest, array, buffer => do
    storeAligned array buffer
    storeTexts rest (← advance array 4) (← storePieces text buffer)

def storeSizes (texts : List (List (List UInt8))) (count bytes : UInt32) : Exec Unit := do
  storeAligned bytes (texts.foldl (fun (n : Nat) t => n + t.flatten.length) 0).toUInt32
  storeAligned count texts.length.toUInt32

def argumentPieces (text : String) : List (List UInt8) := [Utf8.encode text, [0]]

def variablePieces (assignment : String × String) : List (List UInt8) :=
  [Utf8.encode assignment.1, Utf8.encode "=", Utf8.encode assignment.2, [0]]

/-- The number of the error that a descriptor is not open, where errors of closing have one. -/
def notOpen : UInt32 := 8

/-- Closes a descriptor, and gives zero if it was open. -/
def closeDescriptor (descriptor : UInt32) : Exec UInt32 := do
  let s ← getThe State
  if descriptor ∈ s.descriptors then
    set { s with descriptors := s.descriptors.filter (· != descriptor) }
    return 0
  else return notOpen

/-- What a function of the system interface does, and the number of the error it gives. -/
def serveWasi (m : Machine) : Wasi → List Value → Exec UInt32
  | .argsSizes, [.i32 p, .i32 q] => do
    storeSizes (m.args.map argumentPieces) p q
    return 0
  | .args, [.i32 p, .i32 q] => do
    storeTexts (m.args.map argumentPieces) p q
    return 0
  | .environmentSizes, [.i32 p, .i32 q] => do
    storeSizes (m.environment.map variablePieces) p q
    return 0
  | .environment, [.i32 p, .i32 q] => do
    storeTexts (m.environment.map variablePieces) p q
    return 0
  | .closeDescriptor, [.i32 descriptor] => closeDescriptor descriptor
  | _, _ => Exec.trap .callMismatch

/-- Memory is what the guest code that calls exports under the usual name. -/
def wasiCall (m : Machine) (caller : Caller) (w : Wasi) (args : List Value) :
    Exec (List Value) := do
  unless caller = .guest ∧ m.setup.module.exportsMemory do
    Exec.trap (.reported "missing required memory export")
  return [.i32 (← m.serveWasi w args)]

/-- The results of an import: the value it gave comes first, and what is missing is a null function. -/
def importResults (types : List ValueType) (given : Option Value) : Option (List Value) :=
  let nulls := types.map fun _ => Value.null .funcref
  let results := match given, nulls with
    | some v, _ :: rest => v :: rest
    | _, nulls => nulls
  if typesOf results = types then some results else none

def hostCall (m : Machine) (call : Callee) (f : HostFunction) (args : List Value) :
    Exec (List Value) := do
  let given ← ExceptT.mk (m.perform call (f.program args).run)
  Exec.orTrap .badResult (importResults f.type.results given)

def importCall (m : Machine) (call : Callee) (caller : Caller) (i : Nat) (args : List Value) :
    Exec (List Value) := do
  match m.targets[i]? with
  | some (.function f) => m.hostCall call f args
  | some (.wasi w) => m.wasiCall caller w args
  | _ =>
    match m.setup.module.imports[i]? with
    | some declared => Exec.trap (.missingImport declared.space declared.name)
    | none => Exec.trap .invalidCode

/-- Calls the function of a number, with at most `depth` levels of calls below, where at most
`hostDepth` are calls of imports. -/
def callFunction (m : Machine) : Nat → Nat → Caller → Callee
  | 0, _, _, _, _ => Exec.trap .callDepth
  | depth + 1, hostDepth, caller, f, args => do
    let type ← Exec.orTrap .invalidCode (m.setup.module.funcType? f)
    if typesOf args ≠ type.params then Exec.trap .callMismatch
    let imports := m.setup.module.imports.size
    if f < imports then
      match hostDepth with
      | 0 => Exec.trap .callDepth
      | hostDepth + 1 => m.importCall (m.callFunction depth hostDepth .host) caller f args
    else
      let func ← Exec.orTrap .invalidCode m.setup.module.funcs[f - imports]?
      m.enter (m.callFunction depth hostDepth .guest) func args

def maxDepth : Nat := 10000

/-- Calls of imports take more room than others, and fewer of them may nest. -/
def maxHostDepth : Nat := 200

def callFromOutside (m : Machine) : Callee := m.callFunction maxDepth maxHostDepth .host

def start (m : Machine) {α : Type} (p : Program α) (s : State) : Dialogue (α × State) :=
  m.perform m.callFromOutside p s

end SandboxHost.Machine

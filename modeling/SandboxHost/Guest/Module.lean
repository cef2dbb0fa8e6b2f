import SandboxHost.Guest.Value

namespace SandboxHost

inductive WordOp where
  | add
  | sub
  | mul
  | and
  | eq
  | ne
  | lessU
  | greaterU
  | greaterS
  | atLeastS
  | atMostS
  | divS
  deriving DecidableEq

inductive Operator where
  | const (v : Value)
  | localGet (i : Nat)
  | localSet (i : Nat)
  | globalGet (i : Nat)
  | globalSet (i : Nat)
  | drop
  | unreachable
  | memorySize
  | memoryGrow
  | word (op : WordOp)
  | eqz
  | load
  | loadByte
  | store
  | storeByte
  | addLong
  | extendU
  | extendS
  | wordOfSingle
  | singleOfWord
  | longOfDouble
  | doubleOfLong
  | tableSize
  /- Which function comes into the table is part of the instruction, as references to functions are
  never on the stack. -/
  | tableSet (function : Option Nat)
  | tableGrow (function : Option Nat)
  | tableCopy

/-- Instructions with their operands folded into them. A branch names the block it leaves or the loop
it starts again. -/
inductive Instr where
  | apply (op : Operator) (operands : List Instr)
  | call (func : Nat) (operands : List Instr)
  | callIndirect (type : FuncType) (operands : List Instr)
  | ifElse (condition thenBody elseBody : List Instr)
  | block (label : String) (body : List Instr)
  | loop (label : String) (body : List Instr)
  | branch (label : String) (operands : List Instr)
  | branchIf (label : String) (operands : List Instr)
  | leave (operands : List Instr)

structure Func where
  type : FuncType
  locals : List ValueType
  body : List Instr

structure Import where
  space : String
  name : String
  type : FuncType

structure MemoryDecl where
  min : Nat
  max : Option Nat
  exportName : Option String
  importName : Option (String × String)

structure TableDecl where
  size : Nat
  exportName : Option String
  elems : List (Nat × Nat)

/-- A table as it is at a time: the function behind each index, unless the entry is null. -/
abbrev Table := Array (Option Nat)

namespace Table

def function? (t : Table) (i : Nat) : Option Nat := t[i]?.join

def set? (t : Table) (i : Nat) (function : Option Nat) : Option Table :=
  if i < t.size then some (t.setIfInBounds i function) else none

/-- Copies entries within the table, as they were before. -/
def copy? (t : Table) (target source count : Nat) : Option Table :=
  if target + count ≤ t.size ∧ source + count ≤ t.size then
    some (t.mapIdx fun i entry =>
      if target ≤ i ∧ i < target + count then t.function? (source + (i - target)) else entry)
  else none

end Table

structure Module where
  memory : Option MemoryDecl
  table : Option TableDecl
  globals : List UInt32
  data : List (Nat × List UInt8)
  imports : Array Import
  funcs : Array Func
  exports : List (String × Nat)
  start : Option Nat

namespace Module

def memoryExport : String := "memory"

def mostPages : Nat := 65536

def mostEntries : Nat := 10000000

def tableExport : String := "__indirect_function_table"

def funcType? (m : Module) (f : Nat) : Option FuncType :=
  if f < m.imports.size then (m.imports[f]?).map (·.type)
  else (m.funcs[f - m.imports.size]?).map (·.type)

def exported? (m : Module) (name : String) : Option Nat := m.exports.lookup name

def initialTable (m : Module) : Table :=
  m.table.elim #[] fun t =>
    t.elems.foldr (fun (i, f) table => table.setIfInBounds i (some f)) (.replicate t.size none)

/-- The table that calls from outside go through, if the module exports it. -/
def callTable? (m : Module) : Option TableDecl :=
  m.table.filter (·.exportName == some tableExport)

def exportsMemory (m : Module) : Bool := m.memory.any (·.exportName == some memoryExport)

def importsMemory (m : Module) (space name : String) : Bool :=
  m.memory.any (·.importName == some (space, name))

end Module

end SandboxHost

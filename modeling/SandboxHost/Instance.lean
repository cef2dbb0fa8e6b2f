import SandboxHost.Config
import SandboxHost.Guest.Binding
import SandboxHost.Machine.Engine

namespace SandboxHost

structure LoadedModule where
  name : String
  module : Module

structure Instance where
  name : String
  machine : Machine
  state : State

namespace Instance

def perform {α : Type} (i : Instance) (p : Program α) : Dialogue (α × Instance) :=
  (i.machine.start p i.state).bind fun (a, s) => .done (a, { i with state := s })

def act {α : Type} (i : Instance) (a : Action α) : Dialogue (Except Error α × Instance) :=
  i.perform a.run

end Instance

/-- What an embedding program gives to a new instance besides its configuration. -/
structure Embedding where
  imports : ImportMap := .empty
  /-- Whether sleeping and standard input go through the owner of a worker. -/
  blocking : Bool := false
  /-- The directories that exist. -/
  directoryExists : String → Bool

namespace Instantiation

def namespaceOfHandlers : String := "env"

def namespaceOfWasi : String := "wasi_snapshot_preview1"

def wasi? : String → Option Wasi
  | "args_sizes_get" => some .argsSizes
  | "args_get" => some .args
  | "environ_sizes_get" => some .environmentSizes
  | "environ_get" => some .environment
  | "fd_close" => some .closeDescriptor
  | _ => none

/-- A function that nobody supplies has the type of its first import. -/
def missing? (m : Module) (declared : Import) : Option Target :=
  let isSame (i : Import) : Bool := i.space == declared.space && i.name == declared.name
  match m.imports.find? isSame with
  | some first => if first.type = declared.type then some .missing else none
  | none => none

/-- What stands behind an import. A function of another type than the import is no match, nor is a
memory. -/
def target? (functions : ImportMap) (m : Module) (declared : Import) : Option Target :=
  if declared.space = namespaceOfHandlers then
    if declared.name = Module.memoryExport ∧ m.importsMemory declared.space declared.name then none
    else match functions.get? declared.name with
      | some f => if f.type = declared.type then some (.function f) else none
      | none => missing? m declared
  else if declared.space = namespaceOfWasi then
    match wasi? declared.name with
    | some w => if declared.type = w.type then some (.wasi w) else none
    | none => missing? m declared
  else missing? m declared

def memory? (functions : ImportMap) (maxMemory : Nat) (m : Module) : Except EngineFault Memory :=
  match m.memory with
  | none => .ok (.zeros 0)
  | some declared =>
    let fits := declared.min * pageSize ≤ maxMemory
    match declared.importName with
    | some (space, name) =>
      if space = namespaceOfHandlers ∧ name = Module.memoryExport then
        if !fits then .error .memoryCreation
        else if functions.contains name then .error .memoryImport
        else .ok (.zeros declared.min)
      else .error (.instantiation "no memory of this name")
    | none => if fits then .ok (.zeros declared.min) else .error (.instantiation "memory limit")

/-- Puts all data into memory, unless some of it lies outside. -/
def placeData (memory : Memory) (data : List (Nat × List UInt8)) : Option Memory :=
  data.foldlM (fun m (address, bytes) => m.write? address bytes) memory

def elemsFit (m : Module) : Bool := m.table.all fun t => t.elems.all (·.1 < t.size)

def maxPages (c : Config) (m : Module) : Nat :=
  min ((m.memory.bind (·.max)).getD Module.mostPages) (c.maxMemory.toNat / pageSize)

/-- The descriptors of a new instance: the three standard ones, and one for each directory. -/
def openAtFirst (g : Grants) : List UInt32 :=
  (List.range (3 + (g.readDirs ++ g.writeDirs).length)).map Nat.toUInt32

/-- A loop may start again this often. -/
def patience : Nat := 1000000000000000000

def machine (c : Config) (e : Embedding) (m : Module) (targets : Array Target) : Machine :=
  { setup := { module := m, smallStringSize := c.smallStringSize.toNat, blocking := e.blocking }
    targets
    args := c.grants.args
    environment := c.grants.environment
    maxPages := maxPages c m
    patience }

/-- The machine and state of a new instance before any of its code runs. -/
def prepare (c : Config) (e : Embedding) (m : Module) : Except EngineFault (Machine × State) := do
  match (c.grants.readDirs ++ c.grants.writeDirs).find? (!e.directoryExists ·) with
  | some path => throw (.openDir path)
  | none => pure ()
  let functions := e.imports.complete
  let memory ← memory? functions c.maxMemory.toNat m
  let some targets := m.imports.mapM (target? functions m)
    | throw (.instantiation "incompatible import type")
  if !elemsFit m then throw (.instantiation "table element out of bounds")
  let some memory := placeData memory m.data
    | throw (.instantiation "data out of bounds")
  return (machine c e m targets,
    { memory
      table := m.initialTable
      globals := m.globals.toArray
      descriptors := openAtFirst c.grants
      fuel := c.fuelLimit.map (·.toNat)
      host := {} })

/-- Runs the start function. Any failure there fails the instantiation. -/
def runStart (machine : Machine) (state : State) (f : Nat) :
    Dialogue (Except EngineFault State) :=
  ((machine.callFromOutside f []).run.run state).bind fun (outcome, state) =>
    match outcome with
    | .ok _ => .done (.ok state)
    | .error e => .done (.error (.instantiation e.message))

def hasMemory (m : Module) : Bool :=
  m.importsMemory namespaceOfHandlers Module.memoryExport || m.exportsMemory

end Instantiation

/-- Sets up an instance: directories, memory, imports, data, start function, and binding. -/
def instantiate (c : Config) (e : Embedding) (loaded : LoadedModule) :
    Dialogue (Except Error Instance) := do
  match Instantiation.prepare c e loaded.module with
  | .error fault => return .error (.engine fault)
  | .ok (machine, state) =>
    let started ← match loaded.module.start with
      | some f => Instantiation.runStart machine state f
      | none => pure (.ok state)
    match started with
    | .error fault => return .error (.engine fault)
    | .ok state =>
      if !Instantiation.hasMemory loaded.module then return .error (.engine .noMemory)
      let (outcome, i) ← (Instance.mk loaded.name machine state).act Guest.bind
      return outcome.map fun () => i

def Config.check (c : Config) : Except Error Unit :=
  if c.enableSimd then .ok () else .error (.engine .noSimd)

end SandboxHost

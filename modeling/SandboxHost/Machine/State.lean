import SandboxHost.Host.Dialogue
import SandboxHost.Syscall.ImportMap

namespace SandboxHost

/-- The functions that give a guest its arguments and its environment, and the one that closes a
descriptor. -/
inductive Wasi where
  | argsSizes
  | args
  | environmentSizes
  | environment
  | closeDescriptor
  deriving DecidableEq

def Wasi.type : Wasi → FuncType
  | .closeDescriptor => ⟨[.i32], [.i32]⟩
  | _ => ⟨[.i32, .i32], [.i32]⟩

inductive Target where
  | function (f : HostFunction)
  | wasi (w : Wasi)
  | missing

structure Machine where
  setup : Setup
  targets : Array Target
  args : List String
  environment : List (String × String)
  /-- Memory never has more pages than this. -/
  maxPages : Nat
  /-- How often one loop may start again before the machine gives up waiting for it. -/
  patience : Nat

/-- What the machine changes. Without a fuel limit there is no fuel to count. -/
structure State where
  memory : Memory
  table : Table := #[]
  globals : Array UInt32
  /-- The descriptors that the guest has not closed. Nothing opens one again. -/
  descriptors : List UInt32 := []
  fuel : Option Nat
  host : HostState

/-- A step of the machine: it may fail, and what it changed before stays changed. -/
abbrev Exec (α : Type) := ExceptT Error (StateT State Dialogue) α

namespace Exec

def trap {α : Type} (t : Trap) : Exec α := throw (.trap t)

def diverge {α : Type} : Exec α := ExceptT.mk fun _ => .diverged

def orTrap {α : Type} (t : Trap) : Option α → Exec α
  | some a => return a
  | none => trap t

def charge : Exec Unit := do
  let s ← getThe State
  match s.fuel with
  | none => return ()
  | some 0 => trap .outOfFuel
  | some (n + 1) => set { s with fuel := some n }

end Exec

inductive Caller where
  | guest
  | host
  deriving DecidableEq

/-- Calls the function of a number. -/
abbrev Callee := Nat → List Value → Exec (List Value)

end SandboxHost

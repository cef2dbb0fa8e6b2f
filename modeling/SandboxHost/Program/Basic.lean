import SandboxHost.Error
import SandboxHost.Guest.Module
import SandboxHost.Host.Request
import SandboxHost.Memory
import SandboxHost.Posix.Constants

namespace SandboxHost

/-- What stays the same for the life of an instance. -/
structure Setup where
  module : Module
  smallStringSize : Nat
  /-- Whether sleeping and standard input go through the owner of a worker. -/
  blocking : Bool

/-- Guest addresses that the host keeps between calls. -/
structure Pointers where
  scratch : Option UInt32 := none
  terminalPath : Option UInt32 := none
  deriving DecidableEq

/-- What the host keeps for one instance. -/
structure HostState where
  /-- What the guest set for the call in flight. -/
  result : Option Json := none
  exception : Bool := false
  pointers : Pointers := {}
  /-- The last error number a system call gave, in the guest's numbering. -/
  lastErrno : Int32 := 0
  bound : Bool := false
  constants : Option Constants := none
  /-- Standard input that the owner read beyond what the guest has asked for. -/
  kept : List UInt8 := []

/-- Why the host calls a guest function. -/
inductive Purpose where
  | accessor (symbol : String)
  | allocate
  | release
  | entry (function : String)
  | findSymbol
  | closeLibrary
  | reportErrno
  | constants
  deriving DecidableEq

inductive Op where
  | setup
  | getHost
  | setHost (h : HostState)
  | memory
  /-- Looks at the table, for what an accessor told or else for a bare address. -/
  | table (symbol : Option String)
  | write (address : Nat) (bytes : List UInt8)
  | restore (saved : Memory)
  | call (purpose : Purpose) (function : Nat) (args : List Value)
  | ask (r : Request)

abbrev Op.Answer : Op → Type
  | .setup => Setup
  | .getHost => HostState
  | .setHost _ => Unit
  | .memory => Memory
  | .table _ => Table
  /- Whether all bytes lie inside memory; if not, nothing is written. -/
  | .write _ _ => Bool
  | .restore _ => Unit
  | .call _ _ _ => Except Error (List Value)
  | .ask r => r.Answer

inductive Program (α : Type) where
  | done (a : α)
  | step (op : Op) (next : op.Answer → Program α)

namespace Program

variable {α β : Type}

def bind : Program α → (α → Program β) → Program β
  | .done a, f => f a
  | .step op next, f => .step op fun answer => (next answer).bind f

instance : Monad Program where
  pure := .done
  bind := bind

theorem bind_done (p : Program α) : p.bind .done = p := by
  induction p with
  | done a => rfl
  | step op next ih => simp only [Program.bind, ih]

theorem bind_assoc {γ : Type} (p : Program α) (f : α → Program β) (g : β → Program γ) :
    (p.bind f).bind g = p.bind fun a => (f a).bind g := by
  induction p with
  | done a => rfl
  | step op next ih => simp only [Program.bind, ih]

instance : LawfulMonad Program := .mk' Program bind_done (fun _ _ => rfl) bind_assoc

def ofOp (op : Op) : Program op.Answer := .step op .done

def setup : Program Setup := ofOp .setup

def host : Program HostState := ofOp .getHost

def setHost (h : HostState) : Program Unit := ofOp (.setHost h)

def modifyHost (f : HostState → HostState) : Program Unit := do setHost (f (← host))

def memory : Program Memory := ofOp .memory

def table (symbol : Option String) : Program Table := ofOp (.table symbol)

def write (address : Nat) (bytes : List UInt8) : Program Bool := ofOp (.write address bytes)

def restore (saved : Memory) : Program Unit := ofOp (.restore saved)

/-- All results of a guest function, or how it failed. -/
def call (purpose : Purpose) (f : Nat) (args : List Value) : Program (Except Error (List Value)) :=
  ofOp (.call purpose f args)

def ask (r : Request) : Program r.Answer := ofOp (.ask r)

def report (e : Event) : Program Unit := ask (.report e)

end Program

/-- A program that may fail. What it did before it failed stays done. -/
abbrev Action (α : Type) := ExceptT Error Program α

namespace Action

variable {α : Type}

def attempt (a : Action α) : Action (Except Error α) := ExceptT.mk (do return .ok (← a.run))

def ofExcept (e : Except Error α) : Action α := ExceptT.mk (pure e)

end Action

end SandboxHost

import SandboxHost.Syscall.Handler

namespace SandboxHost

namespace Supplied

inductive Op where
  | readMemory (address : UInt32) (length : Nat)
  | writeMemory (address : UInt32) (bytes : List UInt8)
  | readString (address : UInt32)
  | sendString (text : String) (slot : Option Guest.Slot)
  | run (argv : List String)
  | setErrno (e : Errno)
  | fail (e : HostError) (returned : Int32)
  | requireBound
  | handler (h : Handler) (args : List Int32)
  | ask (r : Request) (isOpen : r.isOpen = true := by rfl)

abbrev Op.Answer : Op → Type
  | .readMemory _ _ => Except Error (List UInt8)
  | .writeMemory _ _ => Except Error Unit
  | .readString _ => Except Error String
  | .sendString _ _ => Except Error UInt32
  | .run _ => Except Error Int32
  | .setErrno _ => Except Error Int32
  | .fail _ _ => Except Error Int32
  | .requireBound => Except Error Unit
  | .handler _ _ => Except Error Int32
  | .ask r _ => r.Answer

def Op.program : (op : Op) → SandboxHost.Program op.Answer
  | .readMemory address length => (Syscall.readMemory address length).run
  | .writeMemory address bytes => (Syscall.writeMemory address bytes).run
  | .readString address => (Syscall.readString address).run
  | .sendString text slot => (Syscall.sendString text slot).run
  | .run argv => (Syscall.run argv).run
  | .setErrno e => (Syscall.setErrno e).run
  | .fail e returned => (Syscall.fail e returned).run
  | .requireBound => Syscall.requireBound.run
  | .handler h args => (h.program args).run
  | .ask r _ => SandboxHost.Program.ask r

end Supplied

inductive Supplied (α : Type) where
  | done (a : α)
  | step (op : Supplied.Op) (next : op.Answer → Supplied α)

namespace Supplied

variable {α β : Type}

def bind : Supplied α → (α → Supplied β) → Supplied β
  | .done a, f => f a
  | .step op next, f => .step op fun answer => (next answer).bind f

instance : Monad Supplied where
  pure := .done
  bind := bind

def ofOp (op : Op) : Supplied op.Answer := .step op .done

/-- The program on the instance that the steps amount to. -/
def program : Supplied α → Program α
  | .done a => .done a
  | .step op next => op.program.bind fun answer => (next answer).program

end Supplied

end SandboxHost

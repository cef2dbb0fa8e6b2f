import SandboxHost.Guest.Access
import SandboxHost.Guest.Call

namespace SandboxHost.Guest

def allocator : String := "c_malloc"

def deallocator : String := "c_free"

def allocate (size : Nat) : Action UInt32 := do
  let f ← function allocator
  if 0x7fffffff < size then throw (.outOfMemory size)
  match ← callRaw .allocate f [.i32 size.toUInt32] with
  | some (.i32 address) => if address = 0 then throw (.outOfMemory size) else return address
  | _ => throw (.outOfMemory size)

def giveBack (address : UInt32) : Action Unit := do
  let f ← function deallocator
  let _ ← callRaw .release f [.i32 address]

/-- Attempts to give a block back, and reports how that went. -/
def release (address : UInt32) : Action Unit := ExceptT.mk do
  let outcome ← (giveBack address).run
  Program.report (.released address outcome)
  return outcome

/-- Copies bytes into a block of their size. A block that cannot be filled is released again. -/
def send (bytes : List UInt8) : Action UInt32 := do
  let address ← allocate bytes.length
  match ← (writeMemory address bytes).attempt with
  | .ok () => return address
  | .error e =>
    let _ ← (release address).attempt
    throw e

structure Slot where
  address : UInt32
  capacity : Nat

def writeCString (address : UInt32) (text : String) : Action Unit := do
  let bytes := Utf8.encode text
  writeMemory address bytes
  writeMemory (address + bytes.length.toUInt32) [0]

/-- Writes a text and a zero byte, into a slot as much of it as fits, or else into a new block. -/
def sendString (text : String) : Option Slot → Action UInt32
  | some slot => do
    if slot.capacity = 0 then throw (.invalidArgument .noRoom)
    writeCString slot.address (Utf8.truncate (slot.capacity - 1) text)
    return slot.address
  | none => send (Utf8.encode text ++ [0])

/-- An action that notes the blocks it allocates, newest first. -/
abbrev Scope (α : Type) := ExceptT Error (StateT (List UInt32) Program) α

instance : MonadLift (ExceptT Error Program) (ExceptT Error (StateT (List UInt32) Program)) where
  monadLift a := ExceptT.mk (StateT.lift a.run)

def Scope.track (address : UInt32) : Scope UInt32 := do
  modifyThe (List UInt32) (address :: ·)
  return address

/-- Releases every block in order and keeps the first failure. -/
def releaseAll : List UInt32 → Program (Option Error)
  | [] => return none
  | address :: rest => do
    let first ← (release address).run
    let later ← releaseAll rest
    match first with
    | .error e => return some e
    | .ok () => return later

/-- The body's own failure counts before a failed release. -/
def inScope {α : Type} (body : Scope α) : Action α := ExceptT.mk do
  let (outcome, tracked) ← body.run.run []
  let failure ← releaseAll tracked
  match outcome, failure with
  | .error e, _ => return .error e
  | .ok _, some e => return .error e
  | .ok a, none => return .ok a

end SandboxHost.Guest

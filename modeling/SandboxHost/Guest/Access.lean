import SandboxHost.Program.Basic
import SandboxHost.Text.Utf8

namespace SandboxHost.Guest

def readMemory (address : UInt32) (length : Nat) : Action (List UInt8) := do
  match (← Program.memory).read? address.toNat length with
  | some bytes => return bytes
  | none => throw (.outOfBounds address.toNat length)

def writeMemory (address : UInt32) (bytes : List UInt8) : Action Unit := do
  unless ← Program.write address.toNat bytes do
    throw (.outOfBounds address.toNat bytes.length)

/-- The text up to the next zero byte. -/
def readString (address : UInt32) : Action String := do
  let m ← Program.memory
  if m.size < address.toNat then throw (.outOfBounds address.toNat 1)
  match m.cstring? address.toNat with
  | some bytes => return Utf8.decodeLossy bytes
  | none => throw (.outOfBounds address.toNat (m.size - address.toNat))

end SandboxHost.Guest

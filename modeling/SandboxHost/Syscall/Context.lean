import SandboxHost.Guest.Run

namespace SandboxHost.Syscall

def requireBound : Action Unit := do
  unless (← Program.host).bound do throw .notBound

def readMemory (address : UInt32) (length : Nat) : Action (List UInt8) := do
  requireBound
  Guest.readMemory address length

def writeMemory (address : UInt32) (bytes : List UInt8) : Action Unit := do
  requireBound
  Guest.writeMemory address bytes

def readString (address : UInt32) : Action String := do
  requireBound
  Guest.readString address

def sendString (text : String) (slot : Option Guest.Slot) : Action UInt32 := do
  requireBound
  Guest.sendString text slot

/-- Runs a library for the guest. The call state of the call in flight is kept aside meanwhile. -/
def run (argv : List String) : Action Int32 := do
  requireBound
  let before ← Program.host
  Program.setHost { before with result := none, exception := false }
  let outcome ← (Guest.run argv).attempt
  Program.modifyHost fun h => { h with result := before.result, exception := before.exception }
  Action.ofExcept outcome

/-- The guest's number for an error. It is kept as the last error, and the guest is told if it wants
to know. -/
def setErrno (e : Errno) : Action Int32 := do
  let value := e.guestNumber (← Program.host).constants
  Program.modifyHost fun h => { h with lastErrno := value }
  requireBound
  if let some f ← Guest.function? "setErrno" then
    let _ ← Guest.callRaw .reportErrno f [.ofInt32 value]
  return value

/-- What a failed call returns, after telling the guest why. -/
def fail (e : HostError) (returned : Int32) : Action Int32 :=
  match e with
  | .unsupported capability => throw (.notImplemented capability)
  | .os errno => do
    let _ ← setErrno errno
    return returned

def check : HostResult Int32 → Action Int32
  | .ok value => return value
  | .error e => fail e (-1)

end SandboxHost.Syscall

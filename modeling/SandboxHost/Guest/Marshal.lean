import SandboxHost.Guest.Allocation

namespace SandboxHost.Guest

inductive StringArg where
  | one (text : String)
  | many (texts : List String)
  deriving DecidableEq

/-- The scratch block, allocated when it is first needed. -/
def scratch : Action UInt32 := do
  match (← Program.host).pointers.scratch with
  | some address => return address
  | none =>
    let address ← allocate (← Program.setup).smallStringSize
    Program.modifyHost fun h => { h with pointers := { h.pointers with scratch := some address } }
    return address

def sendEach : List String → Scope (List UInt32)
  | [] => return []
  | text :: rest => do
    let address ← Scope.track (← sendString text none)
    return address :: (← sendEach rest)

/-- The address of an array of strings; an empty list is a null pointer. -/
def sendStrings (texts : List String) : Scope UInt32 := do
  if texts.isEmpty then return 0
  let addresses ← sendEach texts
  Scope.track (← send (addresses.flatMap Memory.wordBytes))

/-- Calls a function with a string, or with the length and address of a list, before other numbers. -/
def callWithString (name : String) (arg : StringArg) (extra : List Int64) : Action Json := do
  let f ← function name
  let small := (← Program.setup).smallStringSize
  match arg with
  | .one text =>
    if text.utf8ByteSize < small then
      let address ← scratch
      writeCString address text
      invoke name f (← argumentsFor f [address] extra)
    else inScope do
      let address ← Scope.track (← sendString text none)
      invoke name f (← argumentsFor f [address] extra)
  | .many texts => inScope do
    let argv ← sendStrings texts
    invoke name f (← argumentsFor f [texts.length.toUInt32, argv] extra)

def terminal (argv : List String) : Action Int32 := do
  Action.ofExcept (asInt32 (← callWithString "terminal" (.many argv) []) "terminal")

def define (name : String) : Action Int64 := do
  let output ← callWithString "cDefine" (.one name) []
  match output.toInt64? with
  | some n => return Int64.ofInt n
  | none => throw (.invalidArgument (.noDefine name output))

end SandboxHost.Guest

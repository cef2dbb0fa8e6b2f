import SandboxHost.Guest.Marshal

namespace SandboxHost.Guest

def entryPoint : String := "__main_argc_argv"

/-- Puts memory and kept pointers back after an action, whatever its outcome. -/
def rolledBack {α : Type} (body : Action α) : Action α := ExceptT.mk do
  let saved ← Program.memory
  let pointers := (← Program.host).pointers
  let outcome ← body.run
  Program.restore saved
  Program.modifyHost fun h => { h with pointers }
  return outcome

def findEntryPoint (findSymbol : Nat) (library : Int32) : Action UInt32 := inScope do
  let symbol ← Scope.track (← sendString entryPoint none)
  match ← callRaw .findSymbol findSymbol [.ofInt32 library, .i32 symbol] with
  | some (.i32 address) => return address
  | _ => return 0

/-- Calls the entry point with the arguments. An output that is no integer counts as zero. -/
def callEntryPoint (main : Nat) (argv : List String) : Action Int32 := inScope do
  let address ← sendStrings argv
  let output ← invoke entryPoint main [.i32 argv.length.toUInt32, .i32 address]
  return Int32.ofInt (output.toInt64?.getD 0)

/-- What a shell would report, such as a missing entry point, is exit code 1. -/
def loadAndExecute (path : String) (argv : List String) : Action Int32 := do
  let library ← Action.ofExcept (asInt32 (← callWithString "dlopen" (.one path) []) "dlopen")
  let some findSymbol ← function? "dlsym" | return 1
  let address ← findEntryPoint findSymbol library
  if address = 0 then return 1
  let some main ← tableFunction? address | return 1
  let code ← callEntryPoint main argv
  let some closeLibrary ← function? "dlclose" | return 1
  let _ ← (callRaw .closeLibrary closeLibrary [.ofInt32 library]).attempt
  return code

/-- Loads the library that the first argument names, calls its entry point, and gives its exit code. -/
def run : List String → Action Int32
  | [] => throw (.invalidArgument .emptyArgv)
  | path :: rest => do
    Program.report (.runBegan (path :: rest))
    let outcome ← (rolledBack (loadAndExecute path (path :: rest))).attempt
    Program.report .runEnded
    Action.ofExcept outcome

end SandboxHost.Guest

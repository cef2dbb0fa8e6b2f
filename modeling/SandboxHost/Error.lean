import SandboxHost.Guest.Value
import SandboxHost.Json.Printer
import SandboxHost.Text.Quoted

namespace SandboxHost

/-- Why guest code stopped. -/
inductive Trap where
  | unreachable
  | memoryAccess
  | division
  | missingImport (space name : String)
  | outOfFuel
  | callMismatch
  | tableAccess
  | nullEntry
  | entryMismatch
  | badResult
  | callDepth
  | invalidCode
  | reported (text : String)
  deriving DecidableEq

namespace Trap

def message : Trap → String
  | .unreachable => "unreachable instruction executed"
  | .memoryAccess => "out of bounds memory access"
  | .division => "integer division by zero or overflow"
  | .missingImport space name => "unknown import " ++ space ++ "::" ++ name ++ " has not been defined"
  | .outOfFuel => "all fuel consumed"
  | .callMismatch => "arguments do not match the type of the function"
  | .tableAccess => "undefined element: out of bounds table access"
  | .nullEntry => "uninitialized element"
  | .entryMismatch => "indirect call type mismatch"
  | .badResult => "host function returned an incompatible value"
  | .callDepth => "call stack exhausted"
  | .invalidCode => "invalid code"
  | .reported text => text

end Trap

inductive ArgumentFault where
  | emptyArgv
  | argumentCount (expected given : Nat)
  | parameterType (type : ValueType)
  | noRoom
  | noNumber (function : String) (output : Json)
  | noDefine (name : String) (output : Json)
  | reported (text : String)

namespace ArgumentFault

def message : ArgumentFault → String
  | .emptyArgv => "argv must have length at least 1"
  | .argumentCount expected given =>
    "function takes " ++ toString expected ++ " arguments, " ++ toString given ++ " given"
  | .parameterType type => "unsupported parameter type " ++ type.name
  | .noRoom => "destination has no room for the terminating NUL"
  | .noNumber function output => function ++ " returned " ++ output.render ++ ", expected a number"
  | .noDefine name output => "cDefine(" ++ name ++ ") returned " ++ output.render
  | .reported text => text

end ArgumentFault

inductive EngineFault where
  | noSimd
  | loadFailed
  | creationFailed
  | openDir (path : String)
  | memoryCreation
  | memoryImport
  | instantiation (reason : String)
  | noMemory
  | reported (text : String)

namespace EngineFault

def message : EngineFault → String
  | .noSimd => "engine creation failed: vector instructions cannot be disabled"
  | .loadFailed => "module load failed: no valid module in this file"
  | .creationFailed => "module creation failed: no valid module"
  | .openDir path => "failed to open dir " ++ Quoted.render path ++ ": no such directory"
  | .memoryCreation => "memory creation failed: more than the memory limit"
  | .memoryImport => "memory import failed: the name is taken"
  | .instantiation reason => "instantiation failed: " ++ reason
  | .noMemory => "no memory export found"
  | .reported text => text

end EngineFault

/-- A message that does not follow the protocol between worker and owner, or a constants table that
does not fit together. -/
inductive ProtocolFault where
  | noModule
  | replyDuringInit (id : UInt64)
  | initDuringReply (id : UInt64)
  | unexpectedInit
  | constantsLength (names values : Nat)
  | reported (text : String)

namespace ProtocolFault

def message : ProtocolFault → String
  | .noModule => "worker has no module loaded"
  | .replyDuringInit id => "reply " ++ toString id.toNat ++ " received during init"
  | .initDuringReply id => "init notice received while waiting for reply " ++ toString id.toNat
  | .unexpectedInit => "unexpected init notice"
  | .constantsLength names values =>
    "constants: " ++ toString names ++ " names but " ++ toString values ++ " values"
  | .reported text => text

end ProtocolFault

inductive Error where
  | notFound (name : String)
  | outOfMemory (size : Nat)
  | raised (function : String)
  | notImplemented (capability : String)
  | workerInit (text : String)
  | engine (fault : EngineFault)
  | trap (t : Trap)
  | notAvailable (what : String)
  | invalidArgument (fault : ArgumentFault)
  | outOfBounds (address length : Nat)
  | notBound
  | alreadyBound
  | protocol (fault : ProtocolFault)
  | workerCall (text : String)
  | workerDisconnected
  | io (text : String)
  | json (text : String)

namespace Error

/-- The reason for not finding a constants table behind a null pointer. -/
def noConstants : Error := .notAvailable "sandbox returned no constants"

def invalidJson : Error := .json "invalid JSON"

def message : Error → String
  | .notFound name => "no function " ++ name ++ " defined in wasm module"
  | .outOfMemory size =>
    "out of memory: sandbox allocator returned null for " ++ toString size ++ " bytes"
  | .raised function => "runtime error raised by sandbox in " ++ function
  | .notImplemented capability => "not implemented: " ++ capability
  | .workerInit text => "worker init failed: " ++ text
  | .engine fault => "WASM error: " ++ fault.message
  | .trap t => "trap: " ++ t.message
  | .notAvailable what => "not available: " ++ what
  | .invalidArgument fault => "invalid argument: " ++ fault.message
  | .outOfBounds address length =>
    "memory access out of bounds at 0x" ++ Quoted.hexDigits address ++ " (+" ++ toString length ++ ")"
  | .notBound => "syscall bridge is not bound to an instance"
  | .alreadyBound => "syscall bridge is already bound to an instance"
  | .protocol fault => "worker protocol error: " ++ fault.message
  | .workerCall text => "worker call failed: " ++ text
  | .workerDisconnected => "worker disconnected"
  | .io text => "IO error: " ++ text
  | .json text => "JSON error: " ++ text

end Error

end SandboxHost

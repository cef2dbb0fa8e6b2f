import SandboxHost.Json.Parser
import SandboxHost.Syscall.Context

namespace SandboxHost

inductive Callback where
  | exception
  | int
  | string
  | json
  deriving DecidableEq

namespace Callback

def all : List Callback := [.exception, .int, .json, .string]

def name : Callback → String
  | .exception => "wasm_set_exception"
  | .int => "wasm_set_int"
  | .string => "wasm_set_string"
  | .json => "wasm_set_json"

def params : Callback → List ValueType
  | .exception => []
  | .int => [.i64]
  | .string | .json => [.i32, .i32]

/-- The bytes at an address and of a length; a negative length counts as zero. -/
def readBytes (args : List Value) : Action (List UInt8) :=
  Syscall.readMemory ((args.getD 0 (.i32 0)).int32.toUInt32)
    ((args.getD 1 (.i32 0)).int32.toNatClampNeg)

def setSignal (s : Signal) : Program Unit := do
  Program.modifyHost fun h => match s with
    | .exception => { h with exception := true }
    | .result value => { h with result := some value }
  Program.report (.signal s)

def setResult (value : Json) : Action Unit := do setSignal (.result value)

def program (c : Callback) (args : List Value) : Action Unit :=
  match c with
  | .exception => do setSignal .exception
  | .int => match args with
    | .i64 w :: _ => setResult (.int w.toInt64.toInt)
    | _ => setResult (.int 0)
  | .string => do setResult (.str (Utf8.decodeLossy (← readBytes args)))
  | .json => do
    let bytes ← readBytes args
    match (Utf8.decode? bytes).bind (Json.parseWithin Json.maxDepth .any) with
    | some value => setResult value.canonical
    | none => throw .invalidJson

end Callback

end SandboxHost

import SandboxHost.Program.Basic

namespace SandboxHost.Guest

/-- The export that tells where a function is in the table. -/
def accessorName (name : String) : String := "__WASM_EXPORT__" ++ name

/-- The function that an accessor tells of by what it returned, in the table as it is now. -/
def told? (table : Table) : Except Error (List Value) → Option Nat
  | .ok (.i32 i :: _) => table.function? i.toNat
  | _ => none

/-- The function a name stands for. Where an accessor exists it alone decides, because the function may
have moved; if it gives no function in the table, the name stands for none. -/
def function? (name : String) : Program (Option Nat) := do
  let m := (← Program.setup).module
  match m.callTable?, m.exported? (accessorName name) with
  | some _, some accessor =>
    let returned ← Program.call (.accessor name) accessor []
    return told? (← Program.table (some name)) returned
  | _, _ => return m.exported? name

def tableFunction? (i : UInt32) : Program (Option Nat) := do
  if (← Program.setup).module.callTable?.isSome then
    return (← Program.table none).function? i.toNat
  else return none

def function (name : String) : Action Nat := do
  match ← function? name with
  | some f => return f
  | none => throw (.notFound name)

/-- The first result of a call that leaves the call state alone. -/
def callRaw (purpose : Purpose) (f : Nat) (args : List Value) : Action (Option Value) := do
  let results ← ExceptT.mk (Program.call purpose f args)
  return results.head?

/-- Calls a function and gives what it set, or its first result. -/
def invoke (name : String) (f : Nat) (args : List Value) : Action Json := do
  Program.modifyHost fun h => { h with result := none, exception := false }
  let raw ← callRaw (.entry name) f args
  let h ← Program.host
  if h.exception then throw (.raised name)
  return h.result.getD ((raw.map Value.toJson).getD .null)

def argument (type : ValueType) (n : Int64) : Except Error Value :=
  match type with
  | .i32 => .ok (.i32 n.toUInt64.toUInt32)
  | .i64 => .ok (.i64 n.toUInt64)
  | .f32 => .ok (.f32 (binary32.ofInt n.toInt).toUInt32)
  | .f64 => .ok (.f64 (binary64.ofInt n.toInt).toUInt64)
  | .ref _ => .error (.invalidArgument (.parameterType type))

/-- Pointers, read as signed numbers, and then integers, each as an argument of its declared type. -/
def arguments (types : List ValueType) (pointers : List UInt32) (extra : List Int64) :
    Except Error (List Value) :=
  let given := pointers.map (·.toInt32.toInt64) ++ extra
  if types.length = given.length then (types.zip given).mapM fun (t, n) => argument t n
  else .error (.invalidArgument (.argumentCount types.length given.length))

def argumentsFor (f : Nat) (pointers : List UInt32) (extra : List Int64) : Action (List Value) := do
  let types := ((← Program.setup).module.funcType? f).elim [] (·.params)
  Action.ofExcept (arguments types pointers extra)

def call (name : String) (args : List Int64) : Action Json := do
  let f ← function name
  invoke name f (← argumentsFor f [] args)

/-- An output as a word of the guest: the low 32 bits of an integer. -/
def asInt32 (output : Json) (name : String) : Except Error Int32 :=
  match output.toInt64? with
  | some n => .ok (Int32.ofInt n)
  | none => .error (.invalidArgument (.noNumber name output))

end SandboxHost.Guest

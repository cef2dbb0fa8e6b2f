import SandboxHost.Guest.Typing
import SandboxHost.Json.Decoder
import SandboxHost.Text.Numeral
import SandboxHost.Text.Utf8

namespace SandboxHost.ModuleFormat

mutual

def text? : Json → Option String
  | .str s => some s
  | .obj [("rep", .arr [t, .int n])] =>
    (text? t).map fun s => String.join (List.replicate n.toNat s)
  | .obj [("cat", .arr parts)] => (texts? parts).map String.join
  | _ => none

def texts? : List Json → Option (List String)
  | [] => some []
  | j :: rest => do return (← text? j) :: (← texts? rest)

end

def hexByte? (a b : Char) : Option UInt8 := do
  let digit (c : Char) : Option Nat :=
    if 'a' ≤ c ∧ c ≤ 'f' then some (c.toNat - 87)
    else if 'A' ≤ c ∧ c ≤ 'F' then some (c.toNat - 55)
    else Numeral.digit? c
  return ((← digit a) * 16 + (← digit b)).toUInt8

/-- Two digits a byte; `done` holds the bytes so far, last first. -/
def hexBytes? : List Char → List UInt8 → Option (List UInt8)
  | [], done => some done.reverse
  | a :: b :: rest, done => match hexByte? a b with
    | some v => hexBytes? rest (v :: done)
    | none => none
  | [_], _ => none

def bytes? : Json → Option (List UInt8)
  | .obj [("hex", .str digits)] => hexBytes? digits.toList []
  | j => (text? j).map Utf8.encode

def type? : Json → Option ValueType
  | .str "i32" => some .i32
  | .str "i64" => some .i64
  | .str "f32" => some .f32
  | .str "f64" => some .f64
  | .str "externref" => some (.ref .externref)
  | .str "funcref" => some (.ref .funcref)
  | _ => none

def refType? : Json → Option RefType
  | .str "extern" => some .externref
  | .str "func" => some .funcref
  | _ => none

def word (n : Int) : UInt32 := (n % 0x100000000).toNat.toUInt32

def long (n : Int) : UInt64 := (n % 0x10000000000000000).toNat.toUInt64

def word? (j : Json) : Option UInt32 := (j.integer? (-0x80000000) 0xffffffff).map word

def long? (j : Json) : Option UInt64 := (j.integer? Json.minInt64 Json.maxUInt64).map long

/-- An address or an index, written as the name of a member. -/
def offset? (name : String) : Option Nat := do
  return (← word? (.int (← Numeral.int64? name).toInt)).toNat

def natural? : Json → Option Nat
  | .int n => if 0 ≤ n then some n.toNat else none
  | _ => none

structure Names where
  funcs : List String
  globals : List String

def number? (names : List String) (written : String) : Option Nat :=
  match written.toList with
  | '$' :: rest => names.findIdx? (· == String.ofList rest)
  | _ => none

def operator? : String → Option Operator
  | "drop" => some .drop
  | "unreachable" => some .unreachable
  | "memory.size" => some .memorySize
  | "memory.grow" => some .memoryGrow
  | "i32.add" => some (.word .add)
  | "i32.sub" => some (.word .sub)
  | "i32.mul" => some (.word .mul)
  | "i32.and" => some (.word .and)
  | "i32.eq" => some (.word .eq)
  | "i32.ne" => some (.word .ne)
  | "i32.lt_u" => some (.word .lessU)
  | "i32.gt_u" => some (.word .greaterU)
  | "i32.gt_s" => some (.word .greaterS)
  | "i32.ge_s" => some (.word .atLeastS)
  | "i32.le_s" => some (.word .atMostS)
  | "i32.div_s" => some (.word .divS)
  | "i32.eqz" => some .eqz
  | "i32.load" => some .load
  | "i32.load8_u" => some .loadByte
  | "i32.store" => some .store
  | "i32.store8" => some .storeByte
  | "i64.add" => some .addLong
  | "i64.extend_i32_u" => some .extendU
  | "i64.extend_i32_s" => some .extendS
  | "i32.reinterpret_f32" => some .wordOfSingle
  | "f32.reinterpret_i32" => some .singleOfWord
  | "i64.reinterpret_f64" => some .longOfDouble
  | "f64.reinterpret_i64" => some .doubleOfLong
  | _ => none

def immediate? (names : Names) : String → Json → Option Operator
  | "i32.const", j => (word? j).map fun w => .const (.i32 w)
  | "i64.const", j => (long? j).map fun w => .const (.i64 w)
  | "local.get", j => (natural? j).map .localGet
  | "local.set", j => (natural? j).map .localSet
  | "global.get", .str g => (number? names.globals g).map .globalGet
  | "global.set", .str g => (number? names.globals g).map .globalSet
  | "ref.null", t => (refType? t).map fun t => .const (.null t)
  | _, _ => none

mutual

def instr? (names : Names) : Json → Option Instr
  | .arr (.str op :: args) =>
    match op, args with
    | "call", .str f :: operands => do
      return .call (← number? names.funcs f) (← instrs? names operands)
    | "if", [condition, .arr (.str "then" :: thenBody)] => do
      return .ifElse [← instr? names condition] (← instrs? names thenBody) []
    | "if", [condition, .arr (.str "then" :: thenBody), .arr (.str "else" :: elseBody)] => do
      return .ifElse [← instr? names condition] (← instrs? names thenBody)
        (← instrs? names elseBody)
    | "block", .str label :: body => do return .block label (← instrs? names body)
    | "loop", .str label :: body => do return .loop label (← instrs? names body)
    | "br", .str label :: operands => do return .branch label (← instrs? names operands)
    | "br_if", .str label :: operands => do return .branchIf label (← instrs? names operands)
    | "return", operands => do return .leave (← instrs? names operands)
    | _, [] => (operator? op).map (.apply · [])
    | _, first :: rest =>
      match operator? op with
      | some o => do return .apply o ((← instr? names first) :: (← instrs? names rest))
      | none => do return .apply (← immediate? names op first) (← instrs? names rest)
  | _ => none

def instrs? (names : Names) : List Json → Option (List Instr)
  | [] => some []
  | j :: rest => do return (← instr? names j) :: (← instrs? names rest)

end

def types? (j : Json) : Option (List ValueType) := j.list? type?

def field (j : Json) (name : String) : Option Json :=
  match j with
  | .obj members => members.lookup name
  | _ => none

def section? {α : Type} (j : Json) (name : String) (default : α)
    (decode : Json → Option α) : Option α :=
  match field j name with
  | none => some default
  | some v => decode v

def entries? : Json → Option (List (String × Json))
  | .obj members => some members
  | _ => none

def memory? (j : Json) : Option MemoryDecl := do
  let min ← section? j "min" 0 natural?
  let max ← section? j "max" none (fun v => (natural? v).map some)
  let exportName ← section? j "export" none (fun v => v.string?.map some)
  let importName ← section? j "import" none (fun v => (v.pair? Json.string? Json.string?).map some)
  let most := max.getD Module.mostPages
  if min ≤ most ∧ most ≤ Module.mostPages then some ⟨min, max, exportName, importName⟩ else none

def table? (names : Names) (j : Json) : Option TableDecl := do
  let size ← section? j "size" 0 natural?
  let exportName ← section? j "export" none (fun v => v.string?.map some)
  let entry (e : String × Json) : Option (Nat × Nat) := do
    return (← offset? e.1, ← names.funcs.findIdx? (some · == e.2.string?))
  let elems ← section? j "elem" [] (fun v => do (← entries? v).mapM entry)
  if size ≤ Module.mostEntries then some ⟨size, exportName, elems⟩ else none

def import? : Json → Option Import
  | .arr [.str space, .str name, params, results] => do
    return ⟨space, name, ⟨← types? params, ← types? results⟩⟩
  | _ => none

def func? (names : Names) (j : Json) : Option Func := do
  let params ← section? j "p" [] types?
  let results ← section? j "r" [] types?
  let locals ← section? j "l" [] types?
  let body ← section? j "b" [] (fun v => match v with
    | .arr items => instrs? names items
    | _ => none)
  return ⟨⟨params, results⟩, locals, body⟩

def hasDistinctExports (m : Module) : Bool :=
  let others := (m.memory.bind (·.exportName)).toList ++ (m.table.bind (·.exportName)).toList
  others.eraseDups.length == others.length && !others.any (m.exports.lookup · |>.isSome)

/-- The module that a canonical JSON value describes, if it is well typed. -/
def module? (j : Json) : Option Module := do
  let imports ← section? j "imports" [] entries?
  let funcs ← section? j "funcs" [] entries?
  let globals ← section? j "globals" [] entries?
  let names : Names := ⟨imports.map (·.1) ++ funcs.map (·.1), globals.map (·.1)⟩
  let known (v : Json) : Option Nat := do names.funcs.findIdx? (· == (← v.string?))
  let exported (e : String × Json) : Option (String × Nat) := do return (e.1, ← known e.2)
  let placed (e : String × Json) : Option (Nat × List UInt8) := do
    return (← offset? e.1, ← bytes? e.2)
  let m : Module :=
    { memory := ← section? j "memory" none (fun v => (memory? v).map some)
      table := ← section? j "table" none (fun v => (table? names v).map some)
      globals := ← globals.mapM fun e => word? e.2
      data := ← section? j "data" [] (fun v => do (← entries? v).mapM placed)
      imports := (← imports.mapM fun e => import? e.2).toArray
      funcs := (← funcs.mapM fun e => func? names e.2).toArray
      exports := ← section? j "exports" [] (fun v => do (← entries? v).mapM exported)
      start := ← section? j "start" none (fun v => (known v).map some) }
  let areDistinct := imports.all fun e => (funcs.lookup e.1).isNone
  if areDistinct && hasDistinctExports m && Typing.isModule m then some m else none

end SandboxHost.ModuleFormat

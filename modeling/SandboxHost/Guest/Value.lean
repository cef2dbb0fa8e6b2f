import SandboxHost.Json.Basic

namespace SandboxHost

inductive RefType where
  | externref
  | funcref
  deriving DecidableEq

inductive ValueType where
  | i32
  | i64
  | f32
  | f64
  | ref (t : RefType)
  deriving DecidableEq

structure FuncType where
  params : List ValueType
  results : List ValueType
  deriving DecidableEq

/-- The only reference a guest can make is the null of its type. -/
inductive Value where
  | i32 (w : UInt32)
  | i64 (w : UInt64)
  | f32 (bits : UInt32)
  | f64 (bits : UInt64)
  | null (t : RefType)
  deriving DecidableEq, Inhabited

namespace ValueType

def name : ValueType → String
  | .i32 => "i32"
  | .i64 => "i64"
  | .f32 => "f32"
  | .f64 => "f64"
  | .ref .externref => "(ref null extern)"
  | .ref .funcref => "(ref null func)"

def zero : ValueType → Value
  | .i32 => .i32 0
  | .i64 => .i64 0
  | .f32 => .f32 0
  | .f64 => .f64 0
  | .ref t => .null t

def listName (types : List ValueType) : String := "[" ++ ", ".intercalate (types.map name) ++ "]"

end ValueType

namespace Value

def type : Value → ValueType
  | .i32 _ => .i32
  | .i64 _ => .i64
  | .f32 _ => .f32
  | .f64 _ => .f64
  | .null t => .ref t

def signed (w : UInt32) : Int := w.toInt32.toInt

def ofInt32 (n : Int32) : Value := .i32 n.toUInt32

/-- The signed number in a value; any other value counts as zero. -/
def int32 : Value → Int32
  | .i32 w => w.toInt32
  | _ => 0

/-- Integers are signed; floats that are no number or infinite, and references, are null. -/
def toJson : Value → Json
  | .i32 w => .int w.toInt32.toInt
  | .i64 w => .int w.toInt64.toInt
  | .f32 bits => ((Binary64.ofSingle? bits).map Json.float).getD .null
  | .f64 bits => .ofBinary64 ⟨bits⟩
  | .null _ => .null

end Value

def typesOf (values : List Value) : List ValueType := values.map Value.type

end SandboxHost

import SandboxHost.Number.Binary

namespace SandboxHost

inductive Json where
  | null
  | bool (b : Bool)
  | int (n : Int)
  | float (x : Binary64)
  | str (text : String)
  | arr (items : List Json)
  | obj (members : List (String × Json))
  deriving Inhabited

namespace Json

def insertMember (key : String) (value : Json) : List (String × Json) → List (String × Json)
  | [] => [(key, value)]
  | (k, v) :: rest =>
    if key < k then (key, value) :: (k, v) :: rest
    else if key = k then (key, value) :: rest
    else (k, v) :: insertMember key value rest

mutual

def canonical : Json → Json
  | .null => .null
  | .bool b => .bool b
  | .int n => .int n
  | .float x => .float x
  | .str s => .str s
  | .arr items => .arr (canonicalItems items)
  | .obj members => .obj (canonicalMembers members [])

def canonicalItems : List Json → List Json
  | [] => []
  | j :: rest => canonical j :: canonicalItems rest

/-- `placed` holds the members before these, in order. -/
def canonicalMembers : List (String × Json) → List (String × Json) → List (String × Json)
  | [], placed => placed
  | (k, v) :: rest, placed => canonicalMembers rest (insertMember k (canonical v) placed)

end

/-- A double-precision number; what is no number or infinite becomes null. -/
def ofBinary64 (x : Binary64) : Json := if x.isFinite then .float x else .null

def minInt64 : Int := -0x8000000000000000
def maxInt64 : Int := 0x7fffffffffffffff
def maxUInt64 : Int := 0xffffffffffffffff

def toInt64? : Json → Option Int
  | .int n => if minInt64 ≤ n ∧ n ≤ maxInt64 then some n else none
  | _ => none

end Json

end SandboxHost

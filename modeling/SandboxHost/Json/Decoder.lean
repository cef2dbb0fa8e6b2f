import SandboxHost.Json.Basic

namespace SandboxHost.Json

def bool? : Json → Option Bool
  | .bool b => some b
  | _ => none

def string? : Json → Option String
  | .str s => some s
  | _ => none

/-- An integer within bounds; a float never is one. -/
def integer? (low high : Int) : Json → Option Int
  | .int n => if low ≤ n ∧ n ≤ high then some n else none
  | _ => none

def uint8? (j : Json) : Option UInt8 := (j.integer? 0 255).map (·.toNat.toUInt8)

def uint64? (j : Json) : Option UInt64 := (j.integer? 0 maxUInt64).map (·.toNat.toUInt64)

def int64? (j : Json) : Option Int64 := (j.integer? minInt64 maxInt64).map Int64.ofInt

def int32? (j : Json) : Option Int32 := (j.integer? (-0x80000000) 0x7fffffff).map Int32.ofInt

def list? {α : Type} (item : Json → Option α) : Json → Option (List α)
  | .arr items => items.mapM item
  | _ => none

def pair? {α β : Type} (first : Json → Option α) (second : Json → Option β) : Json → Option (α × β)
  | .arr [a, b] => do return (← first a, ← second b)
  | _ => none

def nullable? {α : Type} (value : Json → Option α) : Json → Option (Option α)
  | .null => some none
  | j => (value j).map some

def value? (j : Json) : Option Json := some j.canonical

def single? (members : List (String × Json)) (name : String) : Option (Option Json) :=
  match members.filter (·.1 == name) with
  | [] => some none
  | [(_, v)] => some (some v)
  | _ => none

def fields? (names : List String) : Json → Option (List (Option Json))
  | .obj members => names.mapM (single? members)
  | .arr items =>
    if items.length ≤ names.length then
      some (items.map some ++ List.replicate (names.length - items.length) none)
    else none
  | _ => none

def required {α : Type} (decode : Json → Option α) : Option Json → Option α
  | some j => decode j
  | none => none

def optional {α : Type} (decode : Json → Option α) (default : α) : Option Json → Option α
  | some j => decode j
  | none => some default

/-- The tag of an alternative and what is left without it. -/
def tagged? (tag : String) : Json → Option (Json × Json)
  | .obj members =>
    match members.filter (·.1 == tag) with
    | [(_, v)] => some (v, .obj (members.filter (·.1 != tag)))
    | _ => none
  | .arr (v :: rest) => some (v, .arr rest)
  | _ => none

/-- An alternative without fields ignores the members of an object, but takes no list items. -/
def empty? : Json → Option Unit
  | .obj _ => some ()
  | .arr [] => some ()
  | _ => none

end SandboxHost.Json

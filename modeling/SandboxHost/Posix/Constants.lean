import SandboxHost.Error
import SandboxHost.Json.Decoder
import SandboxHost.Json.Parser
import SandboxHost.Posix.Errno

namespace SandboxHost

/-- Names in order, each once. -/
structure Constants where
  entries : List (String × Int32)
  deriving DecidableEq

namespace Constants

def empty : Constants := ⟨[]⟩

def put (name : String) (value : Int32) : List (String × Int32) → List (String × Int32)
  | [] => [(name, value)]
  | (n, v) :: rest =>
    if name < n then (name, value) :: (n, v) :: rest
    else if name = n then (name, value) :: rest
    else (n, v) :: put name value rest

def insert (c : Constants) (name : String) (value : Int32) : Constants := ⟨put name value c.entries⟩

def ofPairs (pairs : List (String × Int32)) : Constants :=
  pairs.foldl (fun c (n, v) => c.insert n v) empty

def get? (c : Constants) (name : String) : Option Int32 := c.entries.lookup name

def size (c : Constants) : Nat := c.entries.length

/-- The guest's number for a host error: by name, or the host's own number if the guest has none. -/
def errno (c : Constants) (e : Errno) : Int32 := (c.get? e.name).getD e.toInt32

def ofLists (names : List String) (values : List Int32) : Except Error Constants :=
  if names.length = values.length then .ok (ofPairs (names.zip values))
  else .error (.protocol (.constantsLength names.length values.length))

def fieldNames : List String := ["names", "values"]

def lists? (j : Json) : Option (List String × List Int32) := do
  match ← j.fields? fieldNames with
  | [names, values] =>
    return (← Json.required (Json.list? Json.string?) names,
      ← Json.required (Json.list? Json.int32?) values)
  | _ => failure

def parse (text : String) : Except Error Constants :=
  match (Json.parseAs? (.ofFields fieldNames) text).bind lists? with
  | some (names, values) => ofLists names values
  | none => .error .invalidJson

end Constants

/-- What a failed call hands to the guest: the table's number, or the host's without a table. -/
def Errno.guestNumber (constants : Option Constants) (e : Errno) : Int32 :=
  match constants with
  | some c => c.errno e
  | none => e.toInt32

end SandboxHost

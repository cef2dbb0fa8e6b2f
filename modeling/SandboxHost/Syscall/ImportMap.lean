import SandboxHost.Syscall.Callback
import SandboxHost.Syscall.Supplied

namespace SandboxHost

/-- What serves an import. -/
inductive Service where
  | handler (h : Handler)
  | callback (c : Callback)
  | supplied (f : List Value → Supplied (Except Error (Option Value)))

/-- One import: its type and what serves it. -/
structure HostFunction where
  type : FuncType
  service : Service

namespace HostFunction

def ofHandler (h : Handler) : HostFunction :=
  ⟨⟨List.replicate h.arity .i32, [.i32]⟩, .handler h⟩

def ofCallback (c : Callback) : HostFunction := ⟨⟨c.params, []⟩, .callback c⟩

def program (s : HostFunction) (args : List Value) : Action (Option Value) :=
  match s.service with
  | .handler h => do return some (.ofInt32 (← h.program (args.map Value.int32)))
  | .callback c => do
    c.program args
    return none
  | .supplied f => ExceptT.mk (f args).program

def describe (s : HostFunction) : String :=
  "Syscall \x7b params: " ++ ValueType.listName s.type.params ++ ", results: " ++
    ValueType.listName s.type.results ++ ", .. \x7d"

end HostFunction

/-- Entries in order of their names, each name once. -/
structure ImportMap where
  entries : List (String × HostFunction)

namespace ImportMap

def empty : ImportMap := ⟨[]⟩

def put (name : String) (s : HostFunction) :
    List (String × HostFunction) → List (String × HostFunction)
  | [] => [(name, s)]
  | (n, t) :: rest =>
    if name < n then (name, s) :: (n, t) :: rest
    else if name = n then (name, s) :: rest
    else (n, t) :: put name s rest

def get? (m : ImportMap) (name : String) : Option HostFunction := m.entries.lookup name

def contains (m : ImportMap) (name : String) : Bool := (m.get? name).isSome

def insert (m : ImportMap) (name : String) (s : HostFunction) : ImportMap := ⟨put name s m.entries⟩

def insertMissing (m : ImportMap) (name : String) (s : HostFunction) : ImportMap :=
  if m.contains name then m else m.insert name s

def size (m : ImportMap) : Nat := m.entries.length

def names (m : ImportMap) : List String := m.entries.map (·.1)

def fillHandlers (m : ImportMap) : ImportMap :=
  Handler.all.foldl (fun m h => m.insertMissing h.name (.ofHandler h)) m

def fillCallbacks (m : ImportMap) : ImportMap :=
  Callback.all.foldl (fun m c => m.insertMissing c.name (.ofCallback c)) m

/-- All that a guest finds: the entries, and what fills the names they leave free. -/
def complete (m : ImportMap) : ImportMap := m.fillCallbacks.fillHandlers

end ImportMap

end SandboxHost

import SandboxHost.Guest.Call
import SandboxHost.Guest.Access

namespace SandboxHost.Guest

def constantsExport : String := "getConstants"

def fetchConstants : Action Constants := do
  let f ← function constantsExport
  match ← callRaw .constants f [] with
  | some (.i32 address) =>
    if address = 0 then throw .noConstants
    Action.ofExcept (Constants.parse (← readString address))
  | _ => throw .noConstants

/-- Whether system calls reach an instance, and the constants it gave. -/
structure Binding where
  bound : Bool := false
  constants : Option Constants := none

def constantsOrNone : Except Error Constants → Except Error (Option Constants)
  | .ok c => .ok (some c)
  | .error (.notFound _) => .ok none
  | .error (.notAvailable _) => .ok none
  | .error e => .error e

/-- Binds what is not bound yet. It stays bound even if fetching the constants fails. -/
def Binding.bind (b : Binding) : Program (Binding × Except Error Unit) := do
  if b.bound then return (b, .error .alreadyBound)
  match constantsOrNone (← fetchConstants.run) with
  | .ok c => return (⟨true, c⟩, .ok ())
  | .error e => return (⟨true, none⟩, .error e)

/-- Binds the instance itself. Its system calls reach it already while the constants are fetched. -/
def bind : Action Unit := ExceptT.mk do
  let h ← Program.host
  Program.setHost { h with bound := true }
  let (b, outcome) ← Binding.bind ⟨h.bound, h.constants⟩
  Program.modifyHost fun h => { h with bound := b.bound, constants := b.constants }
  return outcome

end SandboxHost.Guest

import SandboxHost.Guest.Binding
import SandboxHost.Syscall.ImportMap

namespace SandboxHost

def boolName (b : Bool) : String := if b then "true" else "false"

namespace Guest.Binding

def describe (b : Binding) : String :=
  let constants := match b.constants with
    | some c => "Some(" ++ toString c.size ++ ")"
    | none => "None"
  "SyscallBridge \x7b handlers: " ++ toString Handler.all.length ++ ", bound: " ++ boolName b.bound ++
    ", constants: " ++ constants ++ " \x7d"

end Guest.Binding

def Setup.describe (s : Setup) : String :=
  "Capabilities \x7b blocking: " ++ boolName s.blocking ++ ", .. \x7d"

end SandboxHost

import SandboxHost.Proofs.Execution

namespace SandboxHost

/-- The same but for the last error number and, unless `told`, the call state. -/
structure HostState.Alike (told : Bool) (h h' : HostState) : Prop where
  pointers : h'.pointers = h.pointers
  bound : h'.bound = h.bound
  constants : h'.constants = h.constants
  kept : h'.kept = h.kept
  result : told = true → h'.result = h.result
  exception : told = true → h'.exception = h.exception

/-- What is worked out from a host's state cannot tell apart what earlier calls left. -/
def HostState.Blind {α : Type} (g : HostState → α) : Prop :=
  ∀ h h' : HostState, h.Alike false h' → g h = g h'

/-- A change that makes no difference between like states, and leaves binding alone. Input is kept
only on a worker. -/
structure HostState.Edit (setup : Setup) (f : HostState → HostState) : Prop where
  alike {told : Bool} {h h' : HostState} : h.Alike told h' → (f h).Alike told (f h')
  bound (h : HostState) : (f h).bound = h.bound
  constants (h : HostState) : (f h).constants = h.constants
  kept (h : HostState) : setup.blocking = false → (f h).kept = h.kept

theorem HostState.Edit.pointers {setup : Setup} (g : Pointers → Pointers) :
    HostState.Edit setup fun h => { h with pointers := g h.pointers } where
  alike hh := ⟨congrArg g hh.pointers, hh.bound, hh.constants, hh.kept, hh.result, hh.exception⟩
  bound _ := rfl
  constants _ := rfl
  kept _ _ := rfl

/-- The same but for what earlier calls left with the host. -/
structure State.Alike (told : Bool) (s s' : State) : Prop where
  memory : s'.memory = s.memory
  table : s'.table = s.table
  globals : s'.globals = s.globals
  descriptors : s'.descriptors = s.descriptors
  fuel : s'.fuel = s.fuel
  host : s.host.Alike told s'.host

namespace HostState.Alike

variable {told told' : Bool} {h h' : HostState}

theorem refl (told : Bool) (h : HostState) : h.Alike told h :=
  ⟨rfl, rfl, rfl, rfl, fun _ => rfl, fun _ => rfl⟩

theorem weaken (hh : h.Alike told h') (htold : told' = true → told = true) : h.Alike told' h' :=
  ⟨hh.pointers, hh.bound, hh.constants, hh.kept, fun ht => hh.result (htold ht),
    fun ht => hh.exception (htold ht)⟩

theorem forget (hh : h.Alike told h') : h.Alike false h' := hh.weaken nofun

end HostState.Alike

namespace State.Alike

variable {told told' : Bool} {s s' : State}

theorem refl (told : Bool) (s : State) : s.Alike told s :=
  ⟨rfl, rfl, rfl, rfl, rfl, .refl told s.host⟩

theorem weaken (h : s.Alike told s') (htold : told' = true → told = true) : s.Alike told' s' :=
  { h with host := h.host.weaken htold }

end State.Alike

/-- What an instance keeps through all that happens on it: its binding, and what it has no means to
change. -/
structure Machine.Frame (m : Machine) (s s' : State) : Prop where
  table : m.setup.module.setsTable = false → s'.table = s.table
  globals : m.setup.module.setsGlobal = false → s'.globals = s.globals
  descriptors : m.closesDescriptors = false → s'.descriptors = s.descriptors
  fuel : s.fuel = none → s'.fuel = none
  bound : s'.host.bound = s.host.bound
  constants : s'.host.constants = s.host.constants
  kept : m.setup.blocking = false → s'.host.kept = s.host.kept

end SandboxHost

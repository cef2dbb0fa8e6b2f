import SandboxHost.Error
import SandboxHost.Posix.Errno

namespace SandboxHost

/-- The questions about a process that take no argument and are answered by a number. -/
inductive Identity where
  | pid
  | parentPid
  | uid
  | effectiveUid
  | gid
  | effectiveGid
  | newSession
  deriving DecidableEq

/-- What a guest reports about the call in flight. -/
inductive Signal where
  | exception
  | result (value : Json)

/-- Standard input on its way to the guest. -/
structure Delivery where
  /-- How many bytes the guest has room for. -/
  room : Nat
  bytes : List UInt8
  /-- What the host keeps for the next read. -/
  kept : List UInt8
  /-- Whether the bytes lie in the guest's memory now. -/
  outcome : Except Error Unit

/-- Something that happened and that nobody answers. -/
inductive Event where
  | signal (s : Signal)
  | runBegan (argv : List String)
  | runEnded
  /-- The host attempted to give a block back to the guest's allocator. -/
  | released (address : UInt32) (outcome : Except Error Unit)
  /-- The host attempted to write input into the guest's memory. -/
  | delivered (d : Delivery)
  | note (message : Json)

/-- What a host read of standard input leaves: the buffer, and how many bytes it claims to have read. -/
structure StdinRead where
  buffer : List UInt8
  count : Nat

/-- The bytes of a read into a buffer of `room` bytes. The buffer starts out as zeros, and a claim
beyond its end counts as its end. -/
def StdinRead.bytes (r : StdinRead) (room : Nat) : List UInt8 :=
  let n := min r.count room
  r.buffer.take n ++ List.replicate (n - r.buffer.length) 0

inductive Request where
  | identity (i : Identity)
  | processGroup (pid : Int32)
  | kill (pid signal : Int32)
  | isTerminal (fd : Int32)
  | terminalPath
  | loginTerminal (fd : Int32)
  | hostName
  | readStdin (room : Nat)
  | sleep (microseconds : Nat)
  | workingDirectory
  /-- On a worker: the owner sleeps this many milliseconds. -/
  | pause (milliseconds : Nat)
  /-- On a worker: the owner reads its standard input and hands over the bytes. -/
  | awaitInput
  /-- The owner of a worker reads at most this much of its standard input. -/
  | readOwner (room : Nat)
  | report (e : Event)

/-- Whether functions of an embedding program may ask this: of what happens in an instance they report
nothing but notes. -/
def Request.isOpen : Request → Bool
  | .report (.note _) => true
  | .report _ => false
  | _ => true

abbrev Request.Answer : Request → Type
  | .identity _ => HostResult Int32
  | .processGroup _ => HostResult Int32
  | .kill _ _ => HostResult Unit
  | .isTerminal _ => HostResult Bool
  | .terminalPath => HostResult String
  | .loginTerminal _ => HostResult Unit
  | .hostName => HostResult String
  | .readStdin _ => HostResult StdinRead
  | .sleep _ => HostResult Unit
  | .workingDirectory => Except IoError String
  | .pause _ => Unit
  | .awaitInput => List UInt8
  | .readOwner _ => Except String (List UInt8)
  | .report _ => Unit

end SandboxHost

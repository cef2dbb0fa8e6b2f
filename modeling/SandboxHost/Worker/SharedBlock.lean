namespace SandboxHost.Worker

structure SharedBlock where
  data : List UInt8
  word : Int32
  deriving DecidableEq

namespace SharedBlock

/-- What the word holds while the owner has not answered. -/
def pending : Int32 := -1

def new (capacity : Nat) : SharedBlock := ⟨List.replicate capacity 0, 0⟩

def capacity (b : SharedBlock) : Nat := b.data.length

def isPending (b : SharedBlock) : Bool := b.word == pending

def arm (b : SharedBlock) : SharedBlock := { b with word := pending }

def complete (b : SharedBlock) (value : Int32) : SharedBlock := { b with word := value }

def resize (b : SharedBlock) (capacity : Nat) : SharedBlock :=
  { b with data := b.data.take capacity ++ List.replicate (capacity - b.data.length) 0 }

def room (b : SharedBlock) (count : Nat) : Nat := min (min count b.capacity) 0x7fffffff

/-- Puts as many bytes as fit at the start of the buffer. -/
def fill (b : SharedBlock) (bytes : List UInt8) : SharedBlock :=
  let n := b.room bytes.length
  { b with data := bytes.take n ++ b.data.drop n }

/-- Fills the buffer, and puts into the word how many bytes it took. -/
def publish (b : SharedBlock) (bytes : List UInt8) : SharedBlock :=
  (b.fill bytes).complete (Int32.ofNat (b.room bytes.length))

/-- The value a wait returns, unless the owner has not answered yet. -/
def wait? (b : SharedBlock) : Option Int32 := if b.isPending then none else some b.word

def take (b : SharedBlock) (count : Nat) : List UInt8 := b.data.take count

end SharedBlock

end SandboxHost.Worker

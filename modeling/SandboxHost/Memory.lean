namespace SandboxHost

def pageSize : Nat := 65536

theorem pageSize_pos : 0 < pageSize := by decide

structure Page where
  bytes : ByteArray
  size_eq : bytes.size = pageSize

namespace Page

def zero : Page := ⟨⟨Array.replicate pageSize 0⟩, by simp [ByteArray.size]⟩

def get (p : Page) (i : Nat) (h : i < pageSize) : UInt8 :=
  p.bytes.get i (by rw [p.size_eq]; exact h)

def set (p : Page) (i : Nat) (h : i < pageSize) (v : UInt8) : Page :=
  ⟨p.bytes.set i v (by rw [p.size_eq]; exact h), by
    have := p.size_eq
    simp only [ByteArray.size] at this ⊢
    simpa [ByteArray.set] using this⟩

end Page

structure Memory where
  pages : Array Page

namespace Memory

def size (m : Memory) : Nat := m.pages.size * pageSize

def zeros (pageCount : Nat) : Memory := ⟨Array.replicate pageCount Page.zero⟩

/-- Reads beyond the end give zero; every caller checks the bounds first. -/
def get (m : Memory) (a : Nat) : UInt8 :=
  if h : a / pageSize < m.pages.size then
    m.pages[a / pageSize].get (a % pageSize) (Nat.mod_lt _ pageSize_pos)
  else 0

def set (m : Memory) (a : Nat) (v : UInt8) : Memory :=
  ⟨m.pages.modify (a / pageSize) (·.set (a % pageSize) (Nat.mod_lt _ pageSize_pos) v)⟩

/-- The `n` bytes below address `a + n`, put before `tail`. -/
def gather (m : Memory) (a : Nat) : Nat → List UInt8 → List UInt8
  | 0, tail => tail
  | n + 1, tail => gather m a n (m.get (a + n) :: tail)

def slice (m : Memory) (a len : Nat) : List UInt8 := m.gather a len []

def read? (m : Memory) (a len : Nat) : Option (List UInt8) :=
  if a + len ≤ m.size then some (m.slice a len) else none

def writeAll (m : Memory) : Nat → List UInt8 → Memory
  | _, [] => m
  | a, b :: rest => (m.set a b).writeAll (a + 1) rest

/-- All bytes are written or none. -/
def write? (m : Memory) (a : Nat) (bytes : List UInt8) : Option Memory :=
  if a + bytes.length ≤ m.size then some (m.writeAll a bytes) else none

def findZero (m : Memory) (a : Nat) : Nat → Nat → Option Nat
  | 0, _ => none
  | limit + 1, n => if m.get (a + n) = 0 then some n else findZero m a limit (n + 1)

def cstring? (m : Memory) (a : Nat) : Option (List UInt8) :=
  (m.findZero a (m.size - a) 0).map (m.slice a)

def word? (m : Memory) (a : Nat) : Option UInt32 :=
  if a + 4 ≤ m.size then
    some ((m.get a).toUInt32 ||| ((m.get (a + 1)).toUInt32 <<< 8) |||
      ((m.get (a + 2)).toUInt32 <<< 16) ||| ((m.get (a + 3)).toUInt32 <<< 24))
  else none

def wordBytes (w : UInt32) : List UInt8 :=
  [w.toUInt8, (w >>> 8).toUInt8, (w >>> 16).toUInt8, (w >>> 24).toUInt8]

def grow (m : Memory) (pageCount : Nat) : Memory :=
  ⟨m.pages ++ Array.replicate pageCount Page.zero⟩

/-- The saved bytes come back, bytes beyond them become zero, and the size stays. -/
def restore (m saved : Memory) : Memory :=
  ⟨saved.pages.take m.pages.size ++
    Array.replicate (m.pages.size - saved.pages.size) Page.zero⟩

def overwrite (m : Memory) (image : List UInt8) : Memory :=
  (zeros m.pages.size).writeAll 0 (image.take m.size)

theorem size_zeros (n : Nat) : (zeros n).size = n * pageSize := by simp [zeros, size]

theorem size_set (m : Memory) (a : Nat) (v : UInt8) : (m.set a v).size = m.size := by
  simp [set, size]

theorem size_writeAll (m : Memory) (a : Nat) (bytes : List UInt8) :
    (m.writeAll a bytes).size = m.size := by
  induction bytes generalizing m a with
  | nil => rfl
  | cons b rest ih => rw [writeAll, ih, size_set]

theorem size_grow (m : Memory) (n : Nat) : (m.grow n).size = m.size + n * pageSize := by
  simp [grow, size, Nat.add_mul]

theorem size_restore (m saved : Memory) : (m.restore saved).size = m.size := by
  simp only [restore, size, Array.size_append, Array.size_replicate]
  congr 1
  simp [Array.take]
  omega

end Memory

end SandboxHost

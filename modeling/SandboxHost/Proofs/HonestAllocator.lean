import SandboxHost.Proofs.Stores

namespace SandboxHost

structure Block where
  address : Nat
  size : Nat

/-- Two blocks have no byte in common. -/
def Block.Apart (b c : Block) : Prop :=
  b.address + b.size ≤ c.address ∨ c.address + c.size ≤ b.address

instance (b c : Block) : Decidable (b.Apart c) := inferInstanceAs (Decidable (_ ∨ _))

theorem Block.Apart.symm {b c : Block} (h : b.Apart c) : c.Apart b := Or.symm h

/-- What a call of the guest's allocator is for, or of the function that tells where it is. -/
def Purpose.isAllocator : Purpose → Bool
  | .allocate => true
  | .accessor symbol => symbol == Guest.allocator
  | _ => false

def Op.isAllocator : Op → Bool
  | .call purpose _ _ => purpose.isAllocator
  | _ => false

namespace Step

def granted? : Step → Option Block
  | ⟨.call .allocate _ [.i32 size], .ok (.i32 address :: _), _, _, _⟩ =>
    if address = 0 then none else some ⟨address.toNat, size.toNat⟩
  | _ => none

/-- The blocks that the host still has for certain: whatever else of the guest runs may give blocks
back. -/
def holds (held : List Block) (x : Step) : List Block :=
  match x.op with
  | .call purpose _ _ => if purpose.isAllocator then x.granted?.toList ++ held else []
  | _ => held

/-- A new block lies within memory and has no byte of a block that is held, and the allocator leaves
those as they are. -/
structure Honest (held : List Block) (x : Step) : Prop where
  inside : ∀ b ∈ x.granted?, b.address + b.size ≤ x.after.memory.size
  apart : ∀ b ∈ x.granted?, ∀ c ∈ held, b.Apart c
  keeps : x.op.isAllocator → ∀ c ∈ held,
    x.after.memory.slice c.address c.size = x.before.memory.slice c.address c.size

instance (held : List Block) (x : Step) : Decidable (x.Honest held) :=
  decidable_of_iff ((∀ b ∈ x.granted?, b.address + b.size ≤ x.after.memory.size) ∧
      (∀ b ∈ x.granted?, ∀ c ∈ held, b.Apart c) ∧ (x.op.isAllocator → ∀ c ∈ held,
        x.after.memory.slice c.address c.size = x.before.memory.slice c.address c.size))
    ⟨fun h => ⟨h.1, h.2.1, h.2.2⟩, fun h => ⟨h.inside, h.apart, h.keeps⟩⟩

end Step

def holding (held : List Block) (steps : List Step) : List Block := steps.foldl Step.holds held

def Honest : List Block → List Step → Prop
  | _, [] => True
  | held, x :: rest => x.Honest held ∧ Honest (x.holds held) rest

instance decidableHonest : (held : List Block) → (steps : List Step) → Decidable (Honest held steps)
  | _, [] => isTrue trivial
  | held, x :: rest =>
    have := decidableHonest (x.holds held) rest
    inferInstanceAs (Decidable (x.Honest held ∧ Honest (x.holds held) rest))

theorem holding_append (held : List Block) (steps steps' : List Step) :
    holding held (steps ++ steps') = holding (holding held steps) steps' := List.foldl_append

theorem honest_append {held : List Block} {steps steps' : List Step} :
    Honest held (steps ++ steps') ↔ Honest held steps ∧ Honest (holding held steps) steps' := by
  induction steps generalizing held with
  | nil => simp [Honest, holding]
  | cons x rest ih => rw [List.cons_append, Honest, ih, Honest, and_assoc]; rfl

/-- Memory has become no less, and these blocks are as they were. -/
structure Steady (held : List Block) (memory memory' : Memory) : Prop where
  size_le : memory.size ≤ memory'.size
  slice_eq : ∀ c ∈ held, memory'.slice c.address c.size = memory.slice c.address c.size

namespace Steady

variable {held : List Block} {memory memory₁ memory' : Memory}

theorem refl (held : List Block) (memory : Memory) : Steady held memory memory :=
  ⟨Nat.le_refl _, fun _ _ => rfl⟩

theorem trans (h : Steady held memory memory₁) (h' : Steady held memory₁ memory') :
    Steady held memory memory' :=
  ⟨Nat.le_trans h.size_le h'.size_le,
    fun c hc => (h'.slice_eq c hc).trans (h.slice_eq c hc)⟩

end Steady

/-- Bytes that the host has put into a block of their size. -/
structure Packet where
  address : UInt32
  bytes : List UInt8

namespace Packet

def block (p : Packet) : Block := ⟨p.address.toNat, p.bytes.length⟩

structure LiesIn (p : Packet) (memory : Memory) : Prop where
  address_ne : p.address ≠ 0
  read?_eq : memory.read? p.address.toNat p.bytes.length = some p.bytes

end Packet

/-- These packets lie in memory, in blocks that are held, and no two of them have a byte in common. -/
structure Delivered (packets : List Packet) (held : List Block) (memory : Memory) : Prop where
  lies : ∀ p ∈ packets, p.LiesIn memory
  held : ∀ p ∈ packets, p.block ∈ held
  apart : (packets.map Packet.block).Pairwise Block.Apart

theorem Memory.read?_eq_some {m : Memory} {a n : Nat} {bytes : List UInt8} :
    m.read? a n = some bytes ↔ a + n ≤ m.size ∧ m.slice a n = bytes := by
  simp [read?]

namespace Delivered

variable {packets : List Packet} {held : List Block} {memory memory' : Memory}

theorem nil (held : List Block) (memory : Memory) : Delivered [] held memory :=
  ⟨by simp, by simp, .nil⟩

theorem steady (h : Delivered packets held memory) (hs : Steady held memory memory') :
    Delivered packets held memory' where
  lies p hp := by
    obtain ⟨hfits, hbytes⟩ := Memory.read?_eq_some.mp (h.lies p hp).read?_eq
    have hslice := hs.slice_eq p.block (h.held p hp)
    exact ⟨(h.lies p hp).address_ne,
      Memory.read?_eq_some.mpr ⟨Nat.le_trans hfits hs.size_le, hslice.trans hbytes⟩⟩
  held := h.held
  apart := h.apart

theorem put (h : Delivered packets held memory) {p : Packet} (hp : p.address ≠ 0)
    (hapart : ∀ c ∈ held, p.block.Apart c)
    (hputs : memory.Puts p.address.toNat p.bytes memory') :
    Delivered (p :: packets) (p.block :: held) memory' where
  lies q hq := by
    rcases List.mem_cons.mp hq with rfl | hq
    · refine ⟨hp, Memory.read?_eq_some.mpr ⟨?_, hputs.slice_eq⟩⟩
      rw [hputs.size_eq]
      exact hputs.fits
    · obtain ⟨hfits, hbytes⟩ := Memory.read?_eq_some.mp (h.lies q hq).read?_eq
      refine ⟨(h.lies q hq).address_ne, Memory.read?_eq_some.mpr ⟨?_, ?_⟩⟩
      · rw [hputs.size_eq]
        exact hfits
      refine (Memory.slice_congr fun i hi => hputs.get_eq _ ?_).trans hbytes
      have hside : p.address.toNat + p.bytes.length ≤ q.address.toNat ∨
          q.address.toNat + q.bytes.length ≤ p.address.toNat := hapart q.block (h.held q hq)
      omega
  held q hq := by
    rcases List.mem_cons.mp hq with rfl | hq
    · exact List.mem_cons_self
    · exact List.mem_cons_of_mem _ (h.held q hq)
  apart := by
    refine List.pairwise_cons.mpr ⟨fun c hc => ?_, h.apart⟩
    obtain ⟨q, hq, rfl⟩ := List.mem_map.mp hc
    exact hapart _ (h.held q hq)

end Delivered

namespace Guest

variable {m : Machine} {call : Callee}

theorem records_write (address : UInt32) (bytes : List UInt8) (s : State) :
    m.Records call (writeMemory address bytes).run s fun steps r s' =>
      (∀ held, holding held steps = held) ∧
        (r = .ok () → s.memory.Puts address.toNat bytes s'.memory) := by
  rw [writeMemory, Action.run_lift_bind]
  refine Machine.records_step.mpr fun t written s₁ hends => ?_
  rw [Machine.performOp] at hends
  split at hends
  · next hfits =>
    cases hends
    exact Machine.records_done.mpr ⟨fun _ => rfl, fun _ => Memory.puts_writeAll hfits⟩
  · cases hends
    exact Machine.records_done.mpr ⟨fun _ => rfl, by rintro ⟨⟩⟩

structure Gives (held : List Block) (address : UInt32) (size : Nat) (s : State) (steps : List Step)
    (s' : State) : Prop where
  address_ne : address ≠ 0
  size_le : size ≤ 0x7fffffff
  inside : address.toNat + size ≤ s'.memory.size
  apart : ∀ c ∈ held, Block.Apart ⟨address.toNat, size⟩ c
  holding_eq : holding held steps = ⟨address.toNat, size⟩ :: held
  steady : Steady held s.memory s'.memory

section

variable (hcall : growth.GovernsCallee call)

include hcall

/-- A call of the allocator, or of its accessor, leaves the blocks that are held as they are. -/
theorem steady_of_honest {purpose : Purpose} (hp : purpose.isAllocator) {f : Nat} {args : List Value}
    {returned : Except Error (List Value)} {s s' : State} {t : Trace} {held : List Block}
    (hends : ((call f args).run.run s).Ends t (returned, s'))
    (h : Step.Honest held ⟨.call purpose f args, returned, s, s', t⟩) :
    Steady held s.memory s'.memory :=
  ⟨(hcall f args s t returned s' hends).1, h.keeps hp⟩

theorem records_accessor (s : State) :
    m.Records call (function? allocator) s fun steps _ s' => ∀ held, Honest held steps →
      holding held steps = held ∧ Steady held s.memory s'.memory := by
  refine Machine.records_op rfl ?_
  dsimp only
  split
  · next accessor _ _ =>
    refine Machine.records_step.mpr fun t returned s₁ hends => ?_
    refine Machine.records_op rfl (Machine.records_done.mpr fun held h => ⟨?_, ?_⟩)
    · simp [holding, Step.holds, Purpose.isAllocator, Step.granted?]
    · exact steady_of_honest hcall rfl hends h.2.1
  · exact Machine.records_done.mpr fun held _ => ⟨rfl, .refl _ _⟩

theorem records_findAllocator (s : State) :
    m.Records call (function allocator).run s fun steps _ s' => ∀ held, Honest held steps →
      holding held steps = held ∧ Steady held s.memory s'.memory := by
  rw [function, Action.run_lift_bind, Machine.records_bind]
  refine (records_accessor hcall s).mono fun steps found s' h => ?_
  cases found <;> exact Machine.records_done.mpr (by rwa [List.append_nil])

theorem records_gives (size : Nat) (s : State) :
    m.Records call (allocate size).run s fun steps r s' => ∀ held, Honest held steps →
      ∀ address, r = .ok address → Gives held address size s steps s' := by
  rw [allocate, Action.records_bind]
  refine (records_findAllocator hcall s).mono fun steps r s₁ hfound => ?_
  cases r with
  | error e => exact nofun
  | ok f =>
    refine Action.records_guard nofun fun hsize => ?_
    rw [Action.records_bind, records_callRaw]
    intro t returned s' hends
    rcases returned with e | (_ | ⟨value, results⟩)
    · exact nofun
    · exact Machine.records_done.mpr nofun
    · cases value with
      | i32 address =>
        dsimp only [Except.map, List.head?]
        split
        · exact Machine.records_done.mpr nofun
        · next haddress =>
          refine Machine.records_done.mpr ?_
          rintro held h _ ⟨⟩
          rw [List.append_nil] at h ⊢
          obtain ⟨hbefore, hgiven, -⟩ := honest_append.mp h
          obtain ⟨hholding, hsteady⟩ := hfound held hbefore
          rw [hholding] at hgiven
          -- The size was found small enough, so the word that is passed is the size itself.
          have hexact : size.toUInt32.toNat = size := by
            rw [Nat.toUInt32, UInt32.toNat_ofNat']
            omega
          have hgranted : Step.granted? ⟨.call .allocate f [.i32 size.toUInt32],
              .ok (.i32 address :: results), s₁, s', t⟩ = some ⟨address.toNat, size⟩ := by
            rw [Step.granted?, if_neg haddress, hexact]
          refine ⟨haddress, Nat.le_of_not_lt hsize, hgiven.inside _ hgranted,
            hgiven.apart _ hgranted, ?_, hsteady.trans (steady_of_honest hcall rfl hends hgiven)⟩
          rw [holding_append, hholding]
          show _ ++ held = _
          rw [hgranted]
          rfl
      | _ => exact Machine.records_done.mpr nofun

/-- A packet is sent, and those that were there before stay. -/
theorem records_deliver (bytes : List UInt8) (s : State) :
    m.Records call (send bytes).run s fun steps r s' => ∀ held packets, Honest held steps →
      Delivered packets held s.memory → ∀ address, r = .ok address →
        bytes.length ≤ 0x7fffffff ∧
          Delivered (⟨address, bytes⟩ :: packets) (holding held steps) s'.memory := by
  rw [send, Action.records_bind]
  refine (records_gives hcall bytes.length s).mono fun steps r s₁ hgives => ?_
  cases r with
  | error e => exact nofun
  | ok address =>
    dsimp only
    rw [Action.run_attempt_bind, Machine.records_bind]
    refine (records_write address bytes s₁).mono fun steps' written s₂ hwritten => ?_
    cases written with
    | ok _ =>
      refine Machine.records_done.mpr ?_
      rintro held packets h hdelivered _ ⟨⟩
      rw [List.append_nil] at h ⊢
      have hgiven := hgives held (honest_append.mp h).1 address rfl
      refine ⟨hgiven.size_le, ?_⟩
      rw [holding_append, hwritten.1, hgiven.holding_eq]
      exact (hdelivered.steady hgiven.steady).put hgiven.address_ne hgiven.apart (hwritten.2 rfl)
    | error e =>
      dsimp only
      rw [Action.run_attempt_bind, Machine.records_bind]
      intro steps'' released s₃ _
      exact Machine.records_done.mpr nofun

end

end Guest

end SandboxHost

import SandboxHost.Proofs.Stores
import SandboxHost.Proofs.TextBytes

namespace SandboxHost

def Op.IsWrite : Op → Prop
  | .write _ _ => True
  | _ => False

namespace Guest

variable {m : Machine} {call : Callee}

theorem perform_writeMemory (address : UInt32) (bytes : List UInt8) (s : State) :
    m.perform call (writeMemory address bytes).run s = .done (
      if address.toNat + bytes.length ≤ s.memory.size then
        (.ok (), { s with memory := s.memory.writeAll address.toNat bytes })
      else (.error (.outOfBounds address.toNat bytes.length), s)) := by
  rw [writeMemory, Action.run_lift_bind, Machine.perform_bind, Program.write, Machine.perform_ofOp,
    Machine.performOp]
  split <;> rfl

section

variable {address : UInt32} {t : String} {s : State}

theorem perform_writeCString (h : address.toNat + (Utf8.encode t).length ≤ s.memory.size) :
    m.perform call (writeCString address t).run s =
      m.perform call (writeMemory (address + (Utf8.encode t).length.toUInt32) [0]).run
        { s with memory := s.memory.writeAll address.toNat (Utf8.encode t) } := by
  rw [writeCString, Action.perform_bind, perform_writeMemory, if_pos h, Dialogue.bind]

theorem toNat_add_length (address : UInt32) (n : Nat) :
    (address + n.toUInt32).toNat = (address.toNat + n) % 0x100000000 := by
  rw [UInt32.toNat_add, Nat.toUInt32, UInt32.toNat_ofNat']
  exact Nat.add_mod_mod _ _ _

/-- A text that ends before the end of memory has its zero byte right after it. -/
theorem writeCString_inside (hsize : s.memory.size ≤ 0x100000000)
    (h : address.toNat + (Utf8.encode t).length < s.memory.size) :
    m.perform call (writeCString address t).run s = .done (.ok (),
      { s with memory := s.memory.writeAll address.toNat (Utf8.encode t ++ [0]) }) := by
  have hstop : (address + (Utf8.encode t).length.toUInt32).toNat =
      address.toNat + (Utf8.encode t).length := by
    rw [toNat_add_length]
    omega
  rw [perform_writeCString (Nat.le_of_lt h), perform_writeMemory, hstop,
    if_pos (by rw [Memory.size_writeAll]; exact h), Memory.writeAll_append]

/-- A text that ends beyond the end of memory is not written. -/
theorem writeCString_beyond (h : s.memory.size < address.toNat + (Utf8.encode t).length) :
    m.perform call (writeCString address t).run s =
      .done (.error (.outOfBounds address.toNat (Utf8.encode t).length), s) := by
  rw [writeCString, Action.perform_bind, perform_writeMemory, if_neg (Nat.not_le.mpr h),
    Dialogue.bind]

/-- A text that ends at the end of memory is written, and then its zero byte finds no place. -/
theorem writeCString_flush (hsize : s.memory.size < 0x100000000)
    (h : address.toNat + (Utf8.encode t).length = s.memory.size) :
    m.perform call (writeCString address t).run s =
      .done (.error (.outOfBounds s.memory.size 1),
        { s with memory := s.memory.writeAll address.toNat (Utf8.encode t) }) := by
  have hstop : (address + (Utf8.encode t).length.toUInt32).toNat = s.memory.size := by
    rw [toNat_add_length]
    omega
  rw [perform_writeCString (Nat.le_of_eq h), perform_writeMemory, hstop,
    if_neg (by rw [Memory.size_writeAll]; exact Nat.not_succ_le_self _)]
  rfl

/-- Where memory ends with the address space, that zero byte goes to the first address. -/
theorem writeCString_wrapped (hsize : s.memory.size = 0x100000000)
    (h : address.toNat + (Utf8.encode t).length = s.memory.size) :
    m.perform call (writeCString address t).run s = .done (.ok (),
      { s with memory := (s.memory.writeAll address.toNat (Utf8.encode t)).writeAll 0 [0] }) := by
  have hstop : (address + (Utf8.encode t).length.toUInt32).toNat = 0 := by
    rw [toNat_add_length, h, hsize]
  rw [perform_writeCString (Nat.le_of_eq h), perform_writeMemory, hstop,
    if_pos (by rw [Memory.size_writeAll, hsize]; decide)]

end

section

variable {text : String} {slot : Slot} {s : State}

theorem sendString_noRoom (h : slot.capacity = 0) :
    m.perform call (sendString text (some slot)).run s =
      .done (.error (.invalidArgument .noRoom), s) := by
  rw [sendString, if_pos h]
  exact Action.perform_bind ..

theorem perform_sendString (h : 1 ≤ slot.capacity) :
    m.perform call (sendString text (some slot)).run s =
      (m.perform call (writeCString slot.address (Utf8.truncate (slot.capacity - 1) text)).run s).bind
        fun x => .done (x.1.map fun () => slot.address, x.2) := by
  rw [sendString, if_neg (Nat.ne_of_gt h)]
  refine (Action.perform_bind ..).trans ?_
  congr 1
  funext x
  rcases x with ⟨_ | _, s⟩ <;> rfl

/-- What comes of a text that is to go into a slot, by where its bytes end. -/
structure SlotOutcome (slot : Slot) (t : String) (s : State) (r : Except Error UInt32)
    (s' : State) : Prop where
  inside : slot.address.toNat + (Utf8.encode t).length < s.memory.size →
    r = .ok slot.address ∧ s.memory.Puts slot.address.toNat (Utf8.encode t ++ [0]) s'.memory
  beyond : s.memory.size < slot.address.toNat + (Utf8.encode t).length →
    r = .error (.outOfBounds slot.address.toNat (Utf8.encode t).length) ∧ s' = s
  flush : slot.address.toNat + (Utf8.encode t).length = s.memory.size →
    s.memory.size < 0x100000000 →
    r = .error (.outOfBounds s.memory.size 1) ∧
      s.memory.Puts slot.address.toNat (Utf8.encode t) s'.memory
  /-- The zero byte is put at the other end of the address space. -/
  wrapped : slot.address.toNat + (Utf8.encode t).length = s.memory.size →
    s.memory.size = 0x100000000 →
    r = .ok slot.address ∧ ∃ filled,
      s.memory.Puts slot.address.toNat (Utf8.encode t) filled ∧ filled.Puts 0 [0] s'.memory
  others : s' = { s with memory := s'.memory }

theorem slotOutcome_truncate (m : Machine) (call : Callee) (text : String) (slot : Slot) (s : State)
    (hsize : s.memory.size ≤ 0x100000000) (h : 1 ≤ slot.capacity) : ∃ r s',
    m.perform call (sendString text (some slot)).run s = .done (r, s') ∧
      SlotOutcome slot (Utf8.truncate (slot.capacity - 1) text) s r s' := by
  rw [perform_sendString h]
  generalize Utf8.truncate (slot.capacity - 1) text = t
  rcases Nat.lt_trichotomy (slot.address.toNat + (Utf8.encode t).length) s.memory.size with
    hinside | hflush | hbeyond
  · rw [writeCString_inside hsize hinside]
    have hfits : slot.address.toNat + (Utf8.encode t ++ [0]).length ≤ s.memory.size := by
      rwa [List.length_append]
    exact ⟨_, _, rfl, fun _ => ⟨rfl, Memory.puts_writeAll hfits⟩, by omega, by omega, by omega, rfl⟩
  · have hputs := Memory.puts_writeAll (Nat.le_of_eq hflush)
    rcases Nat.lt_or_eq_of_le hsize with hlt | heq
    · rw [writeCString_flush hlt hflush]
      exact ⟨_, _, rfl, by omega, by omega, fun _ _ => ⟨rfl, hputs⟩, by omega, rfl⟩
    · rw [writeCString_wrapped heq hflush]
      have hend : 0 + [(0 : UInt8)].length ≤
          (s.memory.writeAll slot.address.toNat (Utf8.encode t)).size := by
        rw [Memory.size_writeAll, heq]
        decide
      exact ⟨_, _, rfl, by omega, by omega, by omega,
        fun _ _ => ⟨rfl, _, hputs, Memory.puts_writeAll hend⟩, rfl⟩
  · rw [writeCString_beyond hbeyond]
    exact ⟨_, _, rfl, by omega, fun _ => ⟨rfl, rfl⟩, by omega, by omega, rfl⟩

theorem records_sendString_slot (text : String) (slot : Slot) (s : State) :
    m.Records call (sendString text (some slot)).run s fun steps _ _ =>
      ∀ x ∈ steps, x.op.IsWrite := by
  have hmade : Action.MadeOf (StepsOf Op.IsWrite fun _ => True) (fun _ => True)
      (sendString text (some slot)) := by
    unfold sendString
    refine Action.madeOf_guard trivial fun _ => ?_
    refine Action.madeOf_bind ?_ fun _ => Action.madeOf_pure _
    exact Action.madeOf_bind (madeOf_write trivial) fun _ => madeOf_write trivial
  exact hmade.sorted m call s

theorem readString_of_puts {address : UInt32} {t : String} {s s' : State}
    (h : s.memory.Puts address.toNat (Utf8.encode t ++ [0]) s'.memory) :
    m.perform call (readString address).run s' =
      .done (.ok (.ofList (t.toList.takeWhile (· ≠ '\x00'))), s') := by
  obtain ⟨rest, hrest⟩ := Utf8.exists_encodeChars_zero t.toList
  have hbytes : 0 ∉ Utf8.encodeChars (t.toList.takeWhile (· ≠ '\x00')) := by
    refine Utf8.zero_notMem_encodeChars fun hmem => ?_
    have hother := List.all_eq_true.mp List.all_takeWhile _ hmem
    exact of_decide_eq_true hother rfl
  have hfits : address.toNat + (Utf8.encode t ++ [0]).length ≤ s'.memory.size := by
    rw [h.size_eq]
    exact h.fits
  have hread : s'.memory.cstring? address.toNat =
      some (Utf8.encodeChars (t.toList.takeWhile (· ≠ '\x00'))) :=
    Memory.cstring?_of_slice hfits (h.slice_eq.trans hrest) hbytes
  rw [Syscall.perform_guestReadString, Syscall.textAt_of_cstring? hread,
    Utf8.decodeLossy_encodeChars]

end

/-- A slot that has been filled with a text. -/
structure SlotHolds (m : Machine) (call : Callee) (slot : Slot) (t : String) (s s' : State) :
    Prop where
  room : (Utf8.encode t).length + 1 ≤ slot.capacity
  puts : s.memory.Puts slot.address.toNat (Utf8.encode t ++ [0]) s'.memory
  others : s' = { s with memory := s'.memory }
  /-- It is read back up to its first null character. -/
  read : m.perform call (readString slot.address).run s' =
    .done (.ok (.ofList (t.toList.takeWhile (· ≠ '\x00'))), s')

def memoryMachine (pages : Nat) : Machine :=
  Instantiation.machine .standard { directoryExists := fun _ => true }
    { memory := some ⟨pages, none, some Module.memoryExport, none⟩
      table := none
      globals := []
      data := []
      imports := #[]
      funcs := #[]
      exports := []
      start := none } #[]

def stateWith (memory : Memory) : State :=
  { memory, globals := #[], fuel := none, host := { bound := true } }

/-- In a memory that ends before the address space does, a slot takes as much of a text as it has
room for, in whole characters, and a zero byte. No guest code runs for it. -/
theorem slot_holds_text (m : Machine) (call : Callee) (text : String) (slot : Slot) (s : State)
    (hsize : s.memory.size < 0x100000000) :
    m.Records call (sendString text (some slot)).run s (fun steps _ _ =>
      ∀ x ∈ steps, x.op.IsWrite) ∧
    (slot.capacity = 0 → m.perform call (sendString text (some slot)).run s =
      .done (.error (.invalidArgument .noRoom), s)) ∧
    (1 ≤ slot.capacity → ∃ t r s', Utf8.IsLongestFit (slot.capacity - 1) text t ∧
      m.perform call (sendString text (some slot)).run s = .done (r, s') ∧
      (slot.address.toNat + slot.capacity ≤ s.memory.size → r = .ok slot.address) ∧
      ∀ p, r = .ok p → p = slot.address ∧ SlotHolds m call slot t s s') := by
  refine ⟨records_sendString_slot text slot s, sendString_noRoom, fun hroom => ?_⟩
  have hfit := Utf8.truncate_isLongestFit (slot.capacity - 1) text
  obtain ⟨r, s', hperform, houtcome⟩ :=
    slotOutcome_truncate m call text slot s (Nat.le_of_lt hsize) hroom
  generalize Utf8.truncate (slot.capacity - 1) text = t at hfit houtcome
  have hlength := hfit.fits
  refine ⟨t, r, s', hfit, hperform, fun hslot => (houtcome.inside (by omega)).1, fun p hp => ?_⟩
  rcases Nat.lt_trichotomy (slot.address.toNat + (Utf8.encode t).length) s.memory.size with
    hinside | hflush | hbeyond
  · obtain ⟨hr, hputs⟩ := houtcome.inside hinside
    exact ⟨Except.ok.inj (hp.symm.trans hr), by omega, hputs, houtcome.others,
      readString_of_puts hputs⟩
  · cases hp.symm.trans (houtcome.flush hflush hsize).1
  · cases hp.symm.trans (houtcome.beyond hbeyond).1

/-- The slot ends where memory ends, and the third character would take the place of the zero byte. -/
theorem slot_holds_text_cut : (stateWith (.zeros 1)).memory.size < 0x100000000 ∧ ∃ t s',
    Utf8.IsLongestFit 4 "héé" t ∧
    (memoryMachine 1).start (sendString "héé" (some ⟨65531, 5⟩)).run (stateWith (.zeros 1)) =
      .done (.ok 65531, s') ∧
    SlotHolds (memoryMachine 1) (memoryMachine 1).callFromOutside ⟨65531, 5⟩ t (stateWith (.zeros 1))
      s' := by
  have hpage : (stateWith (.zeros 1)).memory.size = 65536 := Memory.size_zeros 1
  have hsize : (stateWith (.zeros 1)).memory.size < 0x100000000 := by
    rw [hpage]
    decide
  obtain ⟨-, -, hfilled⟩ := slot_holds_text (memoryMachine 1) (memoryMachine 1).callFromOutside
    "héé" ⟨65531, 5⟩ (stateWith (.zeros 1)) hsize
  obtain ⟨t, r, s', hfit, hperform, hfits, hholds⟩ := hfilled (by decide)
  have hr : r = .ok 65531 := hfits (Nat.le_of_eq hpage.symm)
  subst hr
  exact ⟨hsize, t, s', hfit, hperform, (hholds 65531 rfl).2⟩

/-- Wherever the text ends but at the end of memory, either it is put there with its zero byte or
nothing is changed. -/
theorem slot_write_outcome (m : Machine) (call : Callee) (text : String) (slot : Slot) (s : State)
    (hsize : s.memory.size ≤ 0x100000000) :
    (slot.capacity = 0 → m.perform call (sendString text (some slot)).run s =
      .done (.error (.invalidArgument .noRoom), s)) ∧
    (1 ≤ slot.capacity → ∃ t r s', Utf8.IsLongestFit (slot.capacity - 1) text t ∧
      m.perform call (sendString text (some slot)).run s = .done (r, s') ∧
      SlotOutcome slot t s r s') := by
  refine ⟨sendString_noRoom, fun hroom => ?_⟩
  obtain ⟨r, s', hperform, houtcome⟩ :=
    slotOutcome_truncate m call text slot s hsize hroom
  exact ⟨_, r, s', Utf8.truncate_isLongestFit _ _, hperform, houtcome⟩

/-- A text that is cut to end within memory. -/
theorem slot_write_outcome_cut : (stateWith (.zeros 1)).memory.size ≤ 0x100000000 ∧ ∃ t s',
    Utf8.IsLongestFit 4 "héé" t ∧
    (memoryMachine 1).start (sendString "héé" (some ⟨65531, 5⟩)).run (stateWith (.zeros 1)) =
      .done (.ok 65531, s') ∧
    (Memory.zeros 1).Puts 65531 (Utf8.encode t ++ [0]) s'.memory := by
  have hpage : (stateWith (.zeros 1)).memory.size = 65536 := Memory.size_zeros 1
  have hsize : (stateWith (.zeros 1)).memory.size ≤ 0x100000000 := by
    rw [hpage]
    decide
  obtain ⟨-, hwritten⟩ := slot_write_outcome (memoryMachine 1) (memoryMachine 1).callFromOutside
    "héé" ⟨65531, 5⟩ (stateWith (.zeros 1)) hsize
  obtain ⟨t, r, s', hfit, hperform, houtcome⟩ := hwritten (by decide)
  have hlength : (Utf8.encode t).length ≤ 4 := hfit.fits
  obtain ⟨rfl, hputs⟩ := houtcome.inside (by
    rw [hpage]
    exact Nat.lt_of_le_of_lt (Nat.add_le_add_left hlength _) (by decide))
  exact ⟨hsize, t, s', hfit, hperform, hputs⟩

/-- A text that ends where memory ends is written although that fails; and where the address space
ends there too, the byte at its other end is cleared although that succeeds. -/
theorem exists_unended_text :
    (∃ e s', (memoryMachine 2).start (sendString "abc" (some ⟨131069, 10⟩)).run
        (stateWith (.zeros 2)) = .done (.error e, s') ∧
      (Memory.zeros 2).get 131069 = 0 ∧ s'.memory.get 131069 = 97) ∧
    ∃ s', (memoryMachine 65536).start (sendString "abc" (some ⟨0xfffffffd, 10⟩)).run
        (stateWith ((Memory.zeros 65536).set 0 1)) = .done (.ok 0xfffffffd, s') ∧
      ((Memory.zeros 65536).set 0 1).get 0 = 1 ∧ s'.memory.get 0 = 0 := by
  have htext : Utf8.truncate (10 - 1) "abc" = "abc" := by decide
  have hbytes : Utf8.encode "abc" = [97, 98, 99] := by decide
  constructor
  · have hsize : (stateWith (.zeros 2)).memory.size = 131072 := Memory.size_zeros 2
    have hless : (stateWith (.zeros 2)).memory.size < 0x100000000 := by
      rw [hsize]
      decide
    obtain ⟨r, s', hperform, houtcome⟩ := slotOutcome_truncate (memoryMachine 2)
      (memoryMachine 2).callFromOutside "abc" ⟨131069, 10⟩ _ (Nat.le_of_lt hless) (by decide)
    rw [htext] at houtcome
    obtain ⟨rfl, hputs⟩ := houtcome.flush (by rw [hbytes, hsize]; rfl) hless
    refine ⟨_, s', hperform, Memory.get_zeros 2 131069, ?_⟩
    rw [hbytes] at hputs
    exact Memory.get_of_slice (i := 0) hputs.slice_eq (by decide)
  · have hzeros : (Memory.zeros 65536).size = 0x100000000 := Memory.size_zeros 65536
    have hsize : (stateWith ((Memory.zeros 65536).set 0 1)).memory.size = 0x100000000 :=
      (Memory.size_set ..).trans hzeros
    obtain ⟨r, s', hperform, houtcome⟩ := slotOutcome_truncate (memoryMachine 65536)
      (memoryMachine 65536).callFromOutside "abc" ⟨0xfffffffd, 10⟩ _ (Nat.le_of_eq hsize) (by decide)
    rw [htext] at houtcome
    obtain ⟨rfl, filled, -, hputs⟩ := houtcome.wrapped (by rw [hbytes, hsize]; rfl) hsize
    refine ⟨s', hperform, Memory.get_set_self (by rw [hzeros]; decide) 1, ?_⟩
    exact Memory.get_of_slice (i := 0) hputs.slice_eq (by decide)

end Guest

end SandboxHost

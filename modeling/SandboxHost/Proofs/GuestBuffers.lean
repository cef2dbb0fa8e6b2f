import SandboxHost.Proofs.ErrorReports
import SandboxHost.Proofs.Reading

namespace SandboxHost

def Exchange.text? : Exchange → Option String
  | ⟨.hostName, .ok name⟩ => some name
  | ⟨.workingDirectory, .ok path⟩ => some path
  | _ => none

def Obtained (text : String) (steps : List Step) : Prop :=
  ∃ x ∈ steps, x.question?.bind Exchange.text? = some text

variable {m : Machine} {call : Callee}

/-- A call that fails writes nothing itself, and gives nothing but its value for a failure. -/
theorem Syscall.records_failing (e : HostError) (returned : Int32) (s : State) :
    m.Records call (fail e returned).run s fun steps r _ =>
      (∀ x ∈ steps, x.op.LeavesMemory) ∧ ∀ w, r = .ok w → w = returned := by
  intro steps r s' htakes
  have htells := (madeOf_fail e returned).sorted m call s steps r s' htakes
  exact ⟨fun x hx => (htells x hx).leavesMemory,
    Handler.records_fail e returned s steps r s' htakes⟩

namespace Handler

section

variable {text : String} {buffer : UInt32} {size : Int32} {tooLong : Errno}
  {failure success : Int32} {s : State}

theorem giveText_of_misfit {e : Errno} (h : misfit? text size tooLong = some e) :
    giveText text buffer size tooLong failure success = Syscall.fail (.os e) failure := by
  have hfollows := follows_giveText text buffer size tooLong failure success
  rwa [h] at hfollows

/-- A text that has room, with its zero byte, goes into the slot whole. -/
theorem perform_sendWhole (m : Machine) (call : Callee) (slot : Guest.Slot)
    (hsize : s.memory.size < 0x100000000)
    (hroom : text.utf8ByteSize + 1 ≤ slot.capacity) : ∃ r s',
      m.perform call (Syscall.sendString text (some slot)).run s = .done (r, s') ∧
      s' = { s with memory := s'.memory } ∧
      (∀ p, r = .ok p → s.memory.Puts slot.address.toNat (Utf8.encode text ++ [0]) s'.memory) ∧
      (s.host.bound → slot.address.toNat + (text.utf8ByteSize + 1) ≤ s.memory.size →
        r = .ok slot.address) := by
  have hwhole : Utf8.truncate (slot.capacity - 1) text = text := if_pos (Nat.le_sub_one_of_lt hroom)
  have hlength := Utf8.length_encode text
  obtain ⟨r, s', hperform, houtcome⟩ := Guest.slotOutcome_truncate m call text slot s
    (Nat.le_of_lt hsize) (Nat.le_of_add_left_le hroom)
  rw [hwhole] at houtcome
  rw [Syscall.sendString, Action.perform_bind, Syscall.perform_requireBound]
  split
  · refine ⟨r, s', hperform, houtcome.others, fun p hp => ?_, fun _ hfits => ?_⟩
    · rcases Nat.lt_trichotomy (slot.address.toNat + (Utf8.encode text).length) s.memory.size with
        hinside | hflush | hbeyond
      · exact (houtcome.inside hinside).2
      · cases hp.symm.trans (houtcome.flush hflush hsize).1
      · cases hp.symm.trans (houtcome.beyond hbeyond).1
    · exact (houtcome.inside (by omega)).1
  · next hunbound => exact ⟨_, s, rfl, rfl, nofun, fun hb => absurd hb hunbound⟩

theorem perform_giveText (hsize : s.memory.size < 0x100000000)
    (hfits : text.utf8ByteSize + 1 ≤ size.toInt) : ∃ r s',
      m.perform call (giveText text buffer size tooLong failure success).run s = .done (r, s') ∧
      s' = { s with memory := s'.memory } ∧
      (∀ w, r = .ok w → w = success ∧
        s.memory.Puts buffer.toNat (Utf8.encode text ++ [0]) s'.memory) ∧
      (s.host.bound → buffer.toNat + (text.utf8ByteSize + 1) ≤ s.memory.size →
        r = .ok success) := by
  have hpositive : ¬ size ≤ 0 := by
    rw [Int32.le_iff_toInt_le, Int32.toInt_zero]
    omega
  have hroom : text.utf8ByteSize + 1 ≤ size.toNatClampNeg := by
    change _ ≤ size.toInt.toNat
    omega
  obtain ⟨r, s', hperform, hothers, hputs, hsent⟩ :=
    perform_sendWhole m call ⟨buffer, size.toNatClampNeg⟩ hsize hroom
  rw [giveText, if_neg hpositive, if_neg (Int.not_lt.mpr hfits), Action.perform_bind, hperform]
  cases r with
  | error e => exact ⟨.error e, s', rfl, hothers, nofun, fun hb hin => nomatch hsent hb hin⟩
  | ok p =>
    refine ⟨.ok success, s', rfl, hothers, ?_, fun _ _ => rfl⟩
    rintro w ⟨⟩
    exact ⟨rfl, hputs p rfl⟩

end

/-- What is done with a text that the host gave for a buffer of the guest. It is refused for one of
two reasons, or it is put into the buffer if that lies in memory, and nothing else is changed. -/
structure GivesText (m : Machine) (call : Callee) (text : String) (buffer : UInt32) (size : Int32)
    (tooLong : Errno) (failure success : Int32) (s : State) (a : Action Int32) : Prop where
  noSize : size.toInt ≤ 0 → a = Syscall.fail (.os .einval) failure
  misfit : 0 < size.toInt → size.toInt < text.utf8ByteSize + 1 →
    a = Syscall.fail (.os tooLong) failure
  fit : text.utf8ByteSize + 1 ≤ size.toInt → ∃ r s', m.perform call a.run s = .done (r, s') ∧
    s' = { s with memory := s'.memory } ∧
    (∀ w, r = .ok w → w = success ∧
      s.memory.Puts buffer.toNat (Utf8.encode text ++ [0]) s'.memory) ∧
    (s.host.bound → buffer.toNat + (text.utf8ByteSize + 1) ≤ s.memory.size → r = .ok success)

theorem givesText (m : Machine) (call : Callee) (text : String) (buffer : UInt32) (size : Int32)
    (tooLong : Errno) (failure success : Int32) {s : State} (hsize : s.memory.size < 0x100000000) :
    GivesText m call text buffer size tooLong failure success s
      (giveText text buffer size tooLong failure success) where
  noSize h := giveText_of_misfit (if_pos (Int32.le_iff_toInt_le.mpr h))
  misfit hpositive hlong := by
    have hnot : ¬ size ≤ 0 := by
      rw [Int32.le_iff_toInt_le, Int32.toInt_zero]
      omega
    refine giveText_of_misfit ?_
    rw [misfit?, if_neg hnot, if_pos hlong]
  fit h := perform_giveText hsize h

theorem GivesText.filled {text : String} {buffer : UInt32} {size : Int32} {tooLong : Errno}
    {failure success : Int32} {s : State} {a : Action Int32}
    (h : GivesText m call text buffer size tooLong failure success s a) :
    m.Records call a.run s fun _ r s' => ∀ w, r = .ok w → w ≠ failure →
      text.utf8ByteSize + 1 ≤ size.toInt ∧
        s.memory.Puts buffer.toNat (Utf8.encode text ++ [0]) s'.memory := by
  rintro steps r s' htakes w rfl hw
  rcases Int.lt_or_le size.toInt (text.utf8ByteSize + 1) with hlong | hfits
  · have hfails (e : HostError) (ha : a = Syscall.fail e failure) : w = failure :=
      (Syscall.records_failing e failure s steps _ s' (ha ▸ htakes)).2 w rfl
    rcases Int.lt_or_le 0 size.toInt with hpositive | hnone
    · exact absurd (hfails _ (h.misfit hpositive hlong)) hw
    · exact absurd (hfails _ (h.noSize hnone)) hw
  · obtain ⟨r, s₁, hperform, -, hputs, -⟩ := h.fit hfits
    obtain ⟨rfl, rfl⟩ := Machine.eq_of_perform hperform htakes
    exact ⟨hfits, (hputs w rfl).2⟩

/-- How a handler fills a buffer of the guest with a text that it asks the host for. -/
structure FillsWithText (m : Machine) (call : Callee) (r : Request) (buffer : UInt32) (size : Int32)
    (tooLong : Errno) (failure success : Int32) (s : State) (a : Action Int32) : Prop where
  asks : ∃ f : r.Answer → Action Int32, a = (do f (← Program.ask r)) ∧ ∀ answer,
    match Exchange.text? ⟨r, answer⟩ with
    | some text => GivesText m call text buffer size tooLong failure success s (f answer)
    | none => ∃ e, f answer = Syscall.fail e failure
  filled : m.Records call a.run s fun steps r s' => ∀ w, r = .ok w → w ≠ failure →
    ∃ text, Obtained text steps ∧ text.utf8ByteSize + 1 ≤ size.toInt ∧
      s.memory.Puts buffer.toNat (Utf8.encode text ++ [0]) s'.memory
  refused : m.Records call a.run s fun steps _ _ =>
    (∀ text, Obtained text steps → size.toInt < text.utf8ByteSize + 1) →
      ∀ x ∈ steps, x.op.LeavesMemory

theorem fillsWithText {r : Request} {f : r.Answer → Action Int32} {buffer : UInt32} {size : Int32}
    {tooLong : Errno} {failure success : Int32} {s : State}
    (h : ∀ answer, match Exchange.text? ⟨r, answer⟩ with
      | some text => GivesText m call text buffer size tooLong failure success s (f answer)
      | none => ∃ e, f answer = Syscall.fail e failure) :
    FillsWithText m call r buffer size tooLong failure success s (do f (← Program.ask r)) where
  asks := ⟨f, rfl, h⟩
  filled := by
    rw [Action.run_lift_bind]
    refine Machine.records_step.mpr fun t answer s₁ hends => ?_
    obtain ⟨_, _, hdone, -⟩ := Dialogue.ends_ask.mp hends
    cases hdone
    have hnext := h answer
    split at hnext
    · next text htext =>
      refine hnext.filled.mono fun steps r s' hfilled w hr hw => ?_
      exact ⟨text, ⟨_, List.mem_cons_self, htext⟩, hfilled w hr hw⟩
    · obtain ⟨e, he⟩ := hnext
      have hfails : m.Records call (f answer).run s fun _ r _ => ∀ w, r = .ok w → w = failure :=
        he ▸ (Syscall.records_failing e failure s).mono fun _ _ _ hvalue => hvalue.2
      exact hfails.mono fun steps r s' hvalue w hr hw => absurd (hvalue w hr) hw
  refused := by
    rw [Action.run_lift_bind]
    refine Machine.records_step.mpr fun t answer s₁ _ => ?_
    have hfails (e : HostError) (he : f answer = Syscall.fail e failure) :
        m.Records call (f answer).run s₁ fun steps _ _ => ∀ x ∈ steps, x.op.LeavesMemory :=
      he ▸ (Syscall.records_failing e failure s₁).mono fun _ _ _ hsteps => hsteps.1
    intro steps r s' htakes hlong
    refine List.forall_mem_cons.mpr ⟨trivial, ?_⟩
    have hnext := h answer
    split at hnext
    · next text htext =>
      have hmisfit := hlong text ⟨_, List.mem_cons_self, htext⟩
      rcases Int.lt_or_le 0 size.toInt with hpositive | hnone
      · exact hfails _ (hnext.misfit hpositive hmisfit) steps r s' htakes
      · exact hfails _ (hnext.noSize hnone) steps r s' htakes
    · obtain ⟨e, he⟩ := hnext
      exact hfails e he steps r s' htakes

theorem length_bytes (read : StdinRead) (room : Nat) : (read.bytes room).length ≤ room := by
  simp [StdinRead.bytes]
  omega

theorem records_delivered (buffer : UInt32) (room : Nat) (bytes : List UInt8) (s : State) :
    m.Records call (deliver buffer room bytes).run s fun _ r s' => ∀ w, r = .ok w →
      w = Int32.ofNat bytes.length ∧ s.memory.Puts buffer.toNat bytes s'.memory := by
  rintro steps r s' htakes w rfl
  have hends := Machine.ends_perform.mpr ⟨steps, htakes, rfl⟩
  rw [Machine.perform_deliver, Machine.perform_writeMemory] at hends
  obtain ⟨⟨⟩, _, hdone, -⟩ := Dialogue.ends_ask.mp hends
  have heq := (Dialogue.ends_done.mp hdone).2
  split at heq
  · split at heq
    · next hfits =>
      cases heq
      exact ⟨rfl, Memory.puts_writeAll hfits⟩
    · cases heq
  · cases heq

theorem records_readInput (buffer : UInt32) (room : Nat) (s : State) :
    m.Records call (readInput buffer room).run s fun _ r s' => ∀ w, r = .ok w → w ≠ -1 →
      ∃ bytes, w = Int32.ofNat bytes.length ∧ bytes.length ≤ room ∧
        s.memory.Puts buffer.toNat bytes s'.memory := by
  rw [readInput, Action.run_lift_bind]
  refine Machine.records_op rfl ?_
  split
  · rw [Action.run_lift_bind, Machine.records_bind]
    intro steps bytes s₁ htakes
    have hends := Machine.ends_perform.mpr ⟨steps, htakes, rfl⟩
    obtain ⟨-, hlength, hmemory⟩ := Machine.ends_ownerInput hends
    refine (records_delivered buffer room bytes s₁).mono fun _ r s' hput w hr _ => ?_
    obtain ⟨hw, hputs⟩ := hput w hr
    exact ⟨bytes, hw, hlength, hmemory ▸ hputs⟩
  · rw [Action.run_lift_bind]
    refine Machine.records_step.mpr fun t answer s₁ hends => ?_
    obtain ⟨_, _, hdone, -⟩ := Dialogue.ends_ask.mp hends
    cases hdone
    cases answer with
    | error e =>
      refine (Syscall.records_failing e (-1) s).mono fun steps r s' hvalue w hr hw => ?_
      exact absurd (hvalue.2 w hr) hw
    | ok read =>
      refine (records_delivered buffer room (read.bytes room) s).mono fun _ r s' hput w hr _ => ?_
      obtain ⟨hw, hputs⟩ := hput w hr
      exact ⟨read.bytes room, hw, length_bytes read room, hputs⟩

/-- In a memory that ends before the address space does, on a worker or not, whatever the arguments
and the answers of the host are: a system call that fills a buffer writes nowhere else. -/
theorem stays_in_buffer (m : Machine) (call : Callee) (args : List Int32) (s : State)
    (hsize : s.memory.size < 0x100000000) :
    let buffer := (args.getD 0 0).toUInt32
    let size := args.getD 1 0
    FillsWithText m call .hostName buffer size .enametoolong (-1) 0 s (gethostname.program args) ∧
    (buffer ≠ 0 → FillsWithText m call .workingDirectory buffer size .erange 0 buffer.toInt32 s
      (getcwd.program args)) ∧
    m.Records call (readStdin.program args).run s fun _ r s' => ∀ w, r = .ok w → w ≠ -1 →
      ∃ bytes, w.toInt = bytes.length ∧ bytes.length ≤ max size.toInt 0 ∧
        s.memory.Puts buffer.toNat bytes s'.memory := by
  intro buffer size
  refine ⟨fillsWithText fun answer => ?_, fun hbuffer => fillsWithText fun answer => ?_, ?_⟩
  · cases answer with
    | error e => exact ⟨e, rfl⟩
    | ok name => exact givesText m call name buffer size _ _ _ hsize
  · cases answer with
    | error e => exact ⟨.ofIo e, rfl⟩
    | ok path =>
      change GivesText m call path buffer size .erange 0 buffer.toInt32 s (if buffer = 0 then _ else _)
      rw [if_neg hbuffer]
      exact givesText m call path buffer size _ _ _ hsize
  · refine (records_readInput buffer size.toNatClampNeg s).mono fun steps r s' hput w hr hw => ?_
    obtain ⟨bytes, rfl, hlength, hputs⟩ := hput w hr hw
    have hroom : bytes.length ≤ size.toInt.toNat := hlength
    have hbelow := size.toInt_lt
    exact ⟨bytes, Int32.toInt_ofNat_of_lt (by omega), by omega, hputs⟩

/-- A host that claims to have read more than it was given room for. -/
def boastfulHost : (r : Request) → r.Answer
  | .workingDirectory => .ok "/wrk"
  | .readStdin _ => .ok ⟨[104, 105, 33], 100⟩
  | r => r.unsupported

/-- A buffer at the end of memory that takes a path to its last byte, and one for two bytes of input. -/
theorem stays_in_buffer_filled :
    let call := (Guest.memoryMachine 1).callFromOutside
    let s := Guest.stateWith (.zeros 1)
    s.memory.size < 0x100000000 ∧ (65531 : Int32).toUInt32 ≠ 0 ∧
    (∃ steps s' text, (Guest.memoryMachine 1).Takes call (getcwd.program [65531, 5]).run s steps
        (.ok 65531) s' ∧ Obtained text steps ∧
      s.memory.Puts 65531 (Utf8.encode text ++ [0]) s'.memory) ∧
    ∃ steps s' bytes, (Guest.memoryMachine 1).Takes call (readStdin.program [65531, 2]).run s steps
        (.ok 2) s' ∧ bytes.length = 2 ∧ s.memory.Puts 65531 bytes s'.memory := by
  intro call s
  have hsize : s.memory.size < 0x100000000 := by
    change (Memory.zeros 1).size < _
    rw [Memory.size_zeros]
    decide
  have hbuffer : (65531 : Int32).toUInt32 ≠ 0 := by decide
  have hruns {a : Action Int32} {w : Int32} (h : (((Guest.memoryMachine 1).traced call boastfulHost
      a.run s).any fun x => x.2.1.toOption == some w) = true) :
      ∃ steps s', (Guest.memoryMachine 1).Takes call a.run s steps (.ok w) s' := by
    obtain ⟨⟨steps, r, s'⟩, htraced, hchecked⟩ := (Option.any_eq_true _ _).mp h
    cases r with
    | error e => cases hchecked
    | ok w' =>
      obtain rfl := Option.some.inj (beq_iff_eq.mp hchecked)
      exact ⟨steps, s', Machine.takes_of_traced htraced⟩
  obtain ⟨steps, s', htakes⟩ :=
    hruns (a := getcwd.program [65531, 5]) (w := 65531) (by decide +kernel)
  obtain ⟨steps₁, s₁, htakes₁⟩ :=
    hruns (a := readStdin.program [65531, 2]) (w := 2) (by decide +kernel)
  obtain ⟨-, hpath, -⟩ := stays_in_buffer (Guest.memoryMachine 1) call [65531, 5] s hsize
  obtain ⟨-, -, hinput⟩ := stays_in_buffer (Guest.memoryMachine 1) call [65531, 2] s hsize
  obtain ⟨text, hgiven, -, hputs⟩ :=
    (hpath hbuffer).filled steps _ s' htakes 65531 rfl (by decide)
  obtain ⟨bytes, hlength, -, hputs₁⟩ := hinput steps₁ _ s₁ htakes₁ 2 rfl (by decide)
  refine ⟨hsize, hbuffer, ⟨steps, s', text, htakes, hgiven, hputs⟩, steps₁, s₁, bytes, htakes₁, ?_,
    hputs₁⟩
  have htwo : (2 : Int32).toInt = 2 := by decide
  omega

end Handler

end SandboxHost

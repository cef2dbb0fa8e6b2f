import SandboxHost.Proofs.Rollback
import SandboxHost.Proofs.SystemCalls

namespace SandboxHost

namespace Memory

theorem lt_of_cstring? {m : Memory} {a : Nat} {bytes : List UInt8} (h : m.cstring? a = some bytes) :
    a < m.size := by
  apply Nat.lt_of_not_le
  intro hle
  rw [cstring?, Nat.sub_eq_zero_of_le hle] at h
  cases h

/-- Bytes that agree below the end of the first memory, with no less memory after it. -/
structure Extends (m m' : Memory) : Prop where
  size_le : m.size ≤ m'.size
  get_eq (a : Nat) : a < m.size → m'.get a = m.get a

namespace Extends

variable {m m' : Memory} (h : Extends m m')

include h

theorem gather_eq (a n : Nat) (tail : List UInt8) (ha : a + n ≤ m.size) :
    m'.gather a n tail = m.gather a n tail := by
  induction n generalizing tail with
  | zero => rfl
  | succ n ih => rw [gather, gather, h.get_eq (a + n) (by omega), ih _ (by omega)]

theorem slice_eq {a n : Nat} (ha : a + n ≤ m.size) : m'.slice a n = m.slice a n :=
  h.gather_eq a n [] ha

theorem findZero_eq {a limit limit' n k : Nat} (hlimit : a + n + limit ≤ m.size)
    (hle : limit ≤ limit') (hk : m.findZero a limit n = some k) :
    m'.findZero a limit' n = some k ∧ a + k < m.size := by
  -- The old search ends before the old memory does, so the new one sees the same bytes until then.
  induction limit generalizing limit' n with
  | zero => cases hk
  | succ limit ih =>
    obtain ⟨limit', rfl⟩ := Nat.exists_eq_add_of_le' (Nat.le_trans (Nat.succ_pos limit) hle)
    rw [findZero] at hk ⊢
    rw [h.get_eq (a + n) (by omega)]
    split at hk
    · next hzero =>
      cases hk
      exact ⟨if_pos hzero, by omega⟩
    · next hzero =>
      rw [if_neg hzero]
      exact ih (by omega) (by omega) hk

theorem cstring?_eq {a : Nat} {bytes : List UInt8} (hm : m.cstring? a = some bytes) :
    m'.cstring? a = some bytes := by
  have ha := lt_of_cstring? hm
  obtain ⟨k, hk, hbytes⟩ := Option.map_eq_some_iff.mp hm
  have hsize := h.size_le
  obtain ⟨hk', hin⟩ := h.findZero_eq (by omega) (Nat.sub_le_sub_right hsize a) hk
  rw [cstring?, hk', Option.map_some, h.slice_eq (Nat.le_of_lt hin), hbytes]

end Extends

end Memory

theorem RolledBack.extends {s s' : State} (h : RolledBack s s') : s.memory.Extends s'.memory :=
  ⟨h.size_le, h.get_below⟩

/-- What a call in flight finds when it goes on: all that it may depend on is as it was. -/
structure Undisturbed (s s' : State) : Prop extends RolledBack s s' where
  result : s'.host.result = s.host.result
  exception : s'.host.exception = s.host.exception
  cstring (a : Nat) (bytes : List UInt8) :
    s.memory.cstring? a = some bytes → s'.memory.cstring? a = some bytes

namespace Undisturbed

theorem of_rolledBack {s s' : State} (h : RolledBack s s') (hr : s'.host.result = s.host.result)
    (he : s'.host.exception = s.host.exception) : Undisturbed s s' :=
  ⟨h, hr, he, fun _ _ => h.extends.cstring?_eq⟩

theorem refl (s : State) : Undisturbed s s := of_rolledBack (.refl s) rfl rfl

end Undisturbed

theorem RolledBack.resumed {s s' : State} (h : RolledBack s.fresh s') :
    Undisturbed s (s'.resumed s) :=
  .of_rolledBack ⟨h.size_le, h.get_below, h.get_beyond, h.pointers⟩ rfl rfl

section

variable {fails : Error → Prop} {trap : ∀ t, fails (.trap t)} {m : Machine} {call : Callee}

theorem Serving.nests (hf : CoversHost fails) (hcall : (nesting fails trap).GovernsCallee call)
    (β : Type) (p : Program β) (R : β → Prop) (h : Serving m.setup fails β p R) :
    (nesting fails trap).GovernsProgram m call p R := by
  cases h with
  | op op h => exact Machine.governs_inner hcall h.isPlain.isInner
  | setup => exact Machine.governs_setup
  | look _ => exact Machine.governs_look
  | edit _ _ =>
    rintro s t _ s' ⟨⟩
    exact ⟨.nil, trivial⟩
  | signal signal =>
    intro s t a s' h
    obtain ⟨⟨⟩, t₁, hdone, rfl⟩ := Dialogue.ends_ask.mp h
    obtain ⟨rfl, -⟩ := Dialogue.ends_done.mp hdone
    exact ⟨.signal signal, trivial⟩
  | run hargv =>
    intro s t r s' h
    obtain ⟨rfl, rfl, rfl⟩ | ⟨s₁, hrun, rfl⟩ := Syscall.ends_run h
    · exact ⟨.nil, hf _ nofun⟩
    · exact Machine.governs_run hf hcall hargv _ t r s₁ hrun

/-- Calls nest their runs, and where no supplied function can fail otherwise, they fail as the host
does. -/
theorem Machine.callFunction_nests (hf : CoversHost fails)
    (hs : ∀ (i : Nat) (f : HostFunction), m.targets[i]? = some (.function f) → f.IsSupplied →
      ∀ e, fails e) (depth hostDepth : Nat) (caller : Caller) :
    (nesting fails trap).GovernsCallee (m.callFunction depth hostDepth caller) :=
  governs_calls hf hs (fun _ => Serving.nests hf) depth hostDepth caller

end

def nested : Law := nesting (fun _ => True) fun _ => trivial

theorem Machine.callFunction_nested (m : Machine) (depth hostDepth : Nat) (caller : Caller) :
    nested.GovernsCallee (m.callFunction depth hostDepth caller) :=
  callFunction_nests coversHost_true (fun _ _ _ _ _ => trivial) depth hostDepth caller

variable {m : Machine} {call : Callee}

namespace Syscall

/-- The text at an address, or why there is none. -/
def textAt (memory : Memory) (address : UInt32) : Except Error String :=
  if memory.size < address.toNat then .error (.outOfBounds address.toNat 1)
  else match memory.cstring? address.toNat with
    | some bytes => .ok (Utf8.decodeLossy bytes)
    | none => .error (.outOfBounds address.toNat (memory.size - address.toNat))

theorem perform_guestReadString (address : UInt32) (s : State) :
    m.perform call (Guest.readString address).run s = .done (textAt s.memory address, s) := by
  rw [Guest.readString, Action.run_lift_bind, Machine.perform_bind, Program.memory,
    Machine.perform_ofOp, Machine.performOp, Dialogue.bind]
  dsimp only
  unfold textAt
  split
  · rw [Action.perform_bind, Action.perform_throw, Dialogue.bind]
  · cases s.memory.cstring? address.toNat with
    | none => exact Action.perform_throw m call _ s
    | some bytes => exact Action.perform_pure m call _ s

theorem perform_readString (address : UInt32) (s : State) :
    m.perform call (readString address).run s =
      .done (if s.host.bound then textAt s.memory address else .error .notBound, s) := by
  rw [readString, Action.perform_bind, perform_requireBound, Dialogue.bind]
  by_cases hb : s.host.bound
  · rw [if_pos hb, if_pos hb, perform_guestReadString]
  · rw [if_neg hb, if_neg hb]

theorem textAt_of_cstring? {memory : Memory} {address : UInt32} {bytes : List UInt8}
    (h : memory.cstring? address.toNat = some bytes) :
    textAt memory address = .ok (Utf8.decodeLossy bytes) := by
  have hlt : address.toNat < memory.size := Memory.lt_of_cstring? h
  have hle : ¬ memory.size < address.toNat := Nat.not_lt.mpr (Nat.le_of_lt hlt)
  rw [textAt, if_neg hle, h]

end Syscall

/-- The handler of `system`, as a guest at a depth of calls finds it. -/
def Machine.system (m : Machine) (depth hostDepth : Nat) (args : List Int32) (s : State) :
    Dialogue (Except Error Int32 × State) :=
  m.perform (m.callFunction depth hostDepth .host) (Handler.system.program args).run s

namespace Handler

/-- The command is read, and a run is all that comes of it. -/
theorem perform_command {address : UInt32} (ha : address ≠ 0) (s : State) :
    m.perform call (command address).run s =
      match if s.host.bound then Syscall.textAt s.memory address else .error .notBound with
      | .ok text =>
        if (words text).isEmpty then .done (.ok 0, s)
        else m.perform call (Syscall.run (words text)).run s
      | .error e => .done (.error e, s) := by
  rw [command, if_neg ha, Action.perform_bind, Syscall.perform_readString, Dialogue.bind]
  cases if s.host.bound then Syscall.textAt s.memory address else .error .notBound with
  | error e => rfl
  | ok text =>
    dsimp only
    split
    · exact Action.perform_pure m call _ s
    · rfl

theorem command_undisturbing (hcall : growth.GovernsCallee call) (address : UInt32) {s s' : State}
    {t : Trace} {r : Except Error Int32}
    (h : (m.perform call (command address).run s).Ends t (r, s')) : Undisturbed s s' := by
  by_cases ha : address = 0
  · rw [command, if_pos ha, Action.perform_pure] at h
    cases h
    exact .refl s
  · rw [perform_command ha] at h
    split at h
    · split at h
      · cases h
        exact .refl s
      · obtain ⟨-, -, rfl⟩ | ⟨s₁, hrun, rfl⟩ := Syscall.ends_run h
        · exact .refl s'
        · exact (Guest.run_restores hcall _ hrun).resumed
    · cases h
      exact .refl s

theorem command_notBound {address : UInt32} (ha : address ≠ 0) {s : State} (hb : ¬ s.host.bound) :
    m.perform call (command address).run s = .done (.error .notBound, s) := by
  rw [perform_command ha, if_neg hb]

theorem command_runs {address : UInt32} (ha : address ≠ 0) {s : State} (hb : s.host.bound)
    {bytes : List UInt8} (hbytes : s.memory.cstring? address.toNat = some bytes)
    (hwords : words (Utf8.decodeLossy bytes) ≠ []) :
    m.perform call (command address).run s =
      (m.perform call (Guest.run (words (Utf8.decodeLossy bytes))).run s.fresh).bind
        fun (outcome, s') => .done (outcome, s'.resumed s) := by
  rw [perform_command ha, if_pos hb, Syscall.textAt_of_cstring? hbytes]
  dsimp only
  rw [if_neg (by rwa [List.isEmpty_iff]), Syscall.perform_run hb]

/-- Calls that never blame an empty argument list, also not by way of a system call. -/
def sparing : Law := nesting (· ≠ .invalidArgument .emptyArgv) nofun

theorem command_sparing (hcall : sparing.GovernsCallee call) (args : List Int32) (s : State) :
    (m.perform call (system.program args).run s).Always
      fun (r, _) => r ≠ .error (.invalidArgument .emptyArgv) := by
  refine Dialogue.always_iff_ends.mpr ?_
  rintro t ⟨r, s'⟩ h
  have hserving : Attends (Serving m.setup (· ≠ .invalidArgument .emptyArgv)) _ :=
    Serving.attends fun _ => id
  have hserves := (hserving.actions fun _ => id).serves fun _ => id
  have hmade := hserves.handler (fun _ => id) system args
  obtain ⟨-, hr⟩ := hmade.governed (Serving.nests (fun _ => id) hcall) s t r s' h
  rintro rfl
  exact hr rfl

/-- What the call in flight has set, and all memory it knows, are the same when `system` returns as
when it was called, at any depth and whatever the run does. With a command, the outcome is that of
running its words, unless the instance is not bound yet and no command can be read; and it never
comes from `system` that an argument list is empty. -/
theorem system_undisturbing (m : Machine) (depth hostDepth : Nat) (args : List Int32) (s : State) :
    (m.system depth hostDepth args s).Always (fun (_, s') => Undisturbed s s') ∧
    (∀ bytes, s.host.bound → (args.getD 0 0).toUInt32 ≠ 0 →
      s.memory.cstring? (args.getD 0 0).toUInt32.toNat = some bytes →
      words (Utf8.decodeLossy bytes) ≠ [] →
      m.system depth hostDepth args s =
        (m.perform (m.callFunction depth hostDepth .host)
          (Guest.run (words (Utf8.decodeLossy bytes))).run s.fresh).bind
            fun (outcome, s') => .done (outcome, s'.resumed s)) ∧
    (¬ s.host.bound → (args.getD 0 0).toUInt32 ≠ 0 →
      m.system depth hostDepth args s = .done (.error .notBound, s)) ∧
    ((∀ f given s₁, ((m.callFunction depth hostDepth .host f given).run.run s₁).Always
        fun (r, _) => r ≠ .error (.invalidArgument .emptyArgv)) →
      (m.system depth hostDepth args s).Always
        fun (r, _) => r ≠ .error (.invalidArgument .emptyArgv)) ∧
    ((∀ (i : Nat) (f : HostFunction), m.targets[i]? = some (.function f) → ¬ f.IsSupplied) →
      (m.system depth hostDepth args s).Always
        fun (r, _) => r ≠ .error (.invalidArgument .emptyArgv)) := by
  refine ⟨?_, fun _ hb ha hbytes hwords => command_runs ha hb hbytes hwords,
    fun hb ha => command_notBound ha hb, fun hcalls => ?_, fun hs => ?_⟩
  · exact Dialogue.always_iff_ends.mpr fun _ _ h =>
      command_undisturbing (m.callFunction_grows depth hostDepth .host) _ h
  · -- The calls nest their runs in any case; that they spare the argument list is what is assumed.
    refine command_sparing (fun f given s₁ t r s' h => ?_) args s
    refine ⟨(m.callFunction_nested depth hostDepth .host f given s₁ t r s' h).1, ?_⟩
    have hr := Dialogue.always_iff_ends.mp (hcalls f given s₁) t (r, s') h
    cases r with
    | ok _ => trivial
    | error e => exact fun he => hr (he ▸ rfl)
  · have hnests : sparing.GovernsCallee (m.callFunction depth hostDepth .host) :=
      m.callFunction_nests (fun _ => id) (fun i f hi h => absurd h (hs i f hi)) depth hostDepth
        .host
    exact command_sparing hnests args s

end Handler

end SandboxHost

import SandboxHost.Proofs.ArgumentLists
import SandboxHost.Proofs.FixedSlots
import SandboxHost.Proofs.Sequences

namespace SandboxHost

namespace Op

def LeavesMemory : Op → Prop
  | .write _ _ | .restore _ => False
  | _ => True

/-- Steps by which the host itself changes no memory outside of a block. -/
def WritesWithin (b : Block) : Op → Prop
  | .write address bytes => b.address ≤ address ∧ address + bytes.length ≤ b.address + b.size
  | op => op.LeavesMemory

theorem LeavesMemory.writesWithin {op : Op} (h : op.LeavesMemory) (b : Block) :
    op.WritesWithin b := by
  unfold WritesWithin
  split
  · exact h.elim
  · exact h

theorem IsLookup.leavesMemory {op : Op} (h : op.IsLookup) : op.LeavesMemory := by
  unfold LeavesMemory
  split
  · exact h.elim
  · exact h.elim
  · trivial

theorem IsReturn.leavesMemory {op : Op} (h : op.IsReturn) : op.LeavesMemory := by
  unfold LeavesMemory
  split
  · exact h.elim
  · exact h.elim
  · trivial

theorem IsFetch.leavesMemory {op : Op} {size : Nat} (h : op.IsFetch size) : op.LeavesMemory := by
  unfold LeavesMemory
  split
  · exact h.elim
  · exact h.elim
  · trivial

end Op

/-- In these steps the guest's allocator was asked for a block of this size, and gave one at this
address. -/
structure Requested (size : Nat) (p : UInt32) (steps : List Step) : Prop where
  size_le : size ≤ 0x7fffffff
  given : ∃ x ∈ steps, x.Allocates size p

theorem Requested.mono {size : Nat} {p : UInt32} {steps steps' : List Step}
    (h : Requested size p steps) (hsteps : steps ⊆ steps') : Requested size p steps' := by
  obtain ⟨hsize, x, hx, hgiven⟩ := h
  exact ⟨hsize, x, hsteps hx, hgiven⟩

theorem Requested.address_ne {size : Nat} {p : UInt32} {steps : List Step}
    (h : Requested size p steps) : p ≠ 0 := by
  obtain ⟨-, -, -, ⟨hp⟩⟩ := h
  exact hp

/-- The scratch block, if there is one, was asked for in these steps. -/
def Sourced (size : Nat) (past : List Step) (s : State) : Prop :=
  ∀ p, s.scratch = some p → Requested size p past

namespace Sourced

variable {size : Nat} {past steps : List Step} {s s' : State}

theorem of_none (hs : s.scratch = none) : Sourced size past s := by
  intro p hp
  rw [hs] at hp
  cases hp

theorem later (h : Sourced size past s) (hs : s'.scratch = s.scratch) (steps : List Step) :
    Sourced size (past ++ steps) s' :=
  fun p hp => (h p (hs.symm.trans hp)).mono (List.subset_append_left _ _)

end Sourced

/-- How large the block is through which a text goes to a function. -/
def blockSize (small : Nat) (text : String) : Nat :=
  if text.utf8ByteSize < small then small else text.utf8ByteSize + 1

/-- A text has been put at an address, whole and with a zero byte after it, and nothing elsewhere. -/
structure TextPut (text : String) (steps : List Step) (p : UInt32) (memory : Memory) : Prop where
  lies : Packet.LiesIn ⟨p, Utf8.encode text ++ [0]⟩ memory
  within : ∀ x ∈ steps, x.op.WritesWithin ⟨p.toNat, text.utf8ByteSize + 1⟩

/-- The block there was asked for, now or before, and has room for the text. -/
structure TextPassed (small : Nat) (text : String) (past steps : List Step) (p : UInt32)
    (memory : Memory) : Prop extends TextPut text steps p memory where
  fits : text.utf8ByteSize + 1 ≤ blockSize small text
  requested : Requested (blockSize small text) p (past ++ steps)

theorem TextPassed.append {small : Nat} {text : String} {past steps steps' : List Step} {p : UInt32}
    {memory : Memory} (h : TextPassed small text past steps p memory)
    (hsteps : ∀ x ∈ steps', x.op.LeavesMemory) :
    TextPassed small text past (steps ++ steps') p memory where
  lies := h.lies
  within := List.forall_mem_append.mpr ⟨h.within, fun x hx => (hsteps x hx).writesWithin _⟩
  fits := h.fits
  requested := by
    rw [← List.append_assoc]
    exact h.requested.mono (List.subset_append_left _ _)

theorem TextPassed.after {small : Nat} {text : String} {past steps steps' : List Step} {p : UInt32}
    {memory : Memory} (h : TextPassed small text past steps' p memory)
    (hsteps : ∀ x ∈ steps, x.op.LeavesMemory) :
    TextPassed small text past (steps ++ steps') p memory where
  lies := h.lies
  within := List.forall_mem_append.mpr ⟨fun x hx => (hsteps x hx).writesWithin _, h.within⟩
  fits := h.fits
  requested := h.requested.mono fun _ hx =>
    (List.mem_append.mp hx).elim (List.mem_append_left _)
      fun hx => List.mem_append_right _ (List.mem_append_right _ hx)

theorem le_blockSize (small : Nat) (text : String) :
    text.utf8ByteSize + 1 ≤ blockSize small text := by
  unfold blockSize
  split <;> omega

/-- What can be computed of an execution without a question is what it comes to. -/
theorem Machine.eq_of_perform {m : Machine} {call : Callee} {α : Type} {p : Program α}
    {s s₁ s' : State} {a a' : α} {steps : List Step} (h : m.perform call p s = .done (a, s₁))
    (ht : m.Takes call p s steps a' s') : a' = a ∧ s' = s₁ := by
  have hends := Machine.ends_perform.mpr ⟨steps, ht, rfl⟩
  rw [h, Dialogue.ends_done] at hends
  exact Prod.mk.inj hends.2

namespace Guest

variable {m : Machine} {call : Callee}

theorem records_requested (size : Nat) (s : State) :
    m.Records call (allocate size).run s fun steps r _ =>
      (∀ x ∈ steps, x.op.LeavesMemory) ∧ ∀ p, r = .ok p → Requested size p steps := by
  have hlookup : Action.MadeOf (StepsOf Op.LeavesMemory fun _ => True) (fun _ => True)
      (function allocator) :=
    madeOf_function (StepsOf.allows Op.IsLookup.leavesMemory trivial) coversHost_true allocator
  rw [allocate, Action.records_bind]
  refine (hlookup.sorted m call s).mono fun steps r s₁ hfound => ?_
  cases r with
  | error e => exact ⟨hfound, by rintro p ⟨⟩⟩
  | ok f =>
    refine Action.records_guard (fun _ => ⟨by rwa [List.append_nil], by rintro p ⟨⟩⟩) fun hsize => ?_
    rw [Action.records_bind, records_callRaw]
    intro t returned s' _
    have hsteps : ∀ x ∈ steps ++ [⟨.call .allocate f [.i32 size.toUInt32], returned, s₁, s', t⟩],
        x.op.LeavesMemory :=
      List.forall_mem_append.mpr ⟨hfound, List.forall_mem_singleton.mpr trivial⟩
    rcases returned with e | (_ | ⟨value, rest⟩)
    · exact ⟨hsteps, by rintro p ⟨⟩⟩
    · exact Machine.records_done.mpr ⟨hsteps, by rintro p ⟨⟩⟩
    · cases value with
      | i32 address =>
        dsimp only [Except.map, List.head?]
        split
        · exact Machine.records_done.mpr ⟨hsteps, by rintro p ⟨⟩⟩
        · next haddress =>
          refine Machine.records_done.mpr ⟨hsteps, ?_⟩
          rintro p ⟨⟩
          exact ⟨Nat.le_of_not_lt hsize, _, List.mem_append_right _ List.mem_cons_self,
            .intro haddress⟩
      | _ => exact Machine.records_done.mpr ⟨hsteps, by rintro p ⟨⟩⟩

/-- What is sent lies in a block of its size, and nothing else has been written. -/
theorem records_sent (bytes : List UInt8) (s : State) :
    m.Records call (send bytes).run s fun steps r s' => ∀ p, r = .ok p →
      Requested bytes.length p steps ∧ Packet.LiesIn ⟨p, bytes⟩ s'.memory ∧
        ∀ x ∈ steps, x.op.WritesWithin ⟨p.toNat, bytes.length⟩ := by
  rw [send, Action.records_bind]
  refine (records_requested bytes.length s).mono fun steps r s₁ hgiven => ?_
  cases r with
  | error e => rintro p ⟨⟩
  | ok address =>
    dsimp only
    have hwithin : Action.MadeOf (StepsOf (Op.WritesWithin ⟨address.toNat, bytes.length⟩)
        fun _ => True) (fun _ => True) (writeMemory address bytes) :=
      madeOf_write ⟨Nat.le_refl _, Nat.le_refl _⟩
    rw [Action.run_attempt_bind, Machine.records_bind]
    intro steps' written s₂ htakes
    cases written with
    | ok _ =>
      refine Machine.records_done.mpr ?_
      rintro p ⟨⟩
      rw [List.append_nil]
      have hasked := hgiven.2 address rfl
      have hputs := (records_write address bytes s₁ steps' _ s₂ htakes).2 rfl
      have hfits : address.toNat + bytes.length ≤ s₂.memory.size := by
        rw [hputs.size_eq]
        exact hputs.fits
      refine ⟨hasked.mono (List.subset_append_left _ _), ⟨hasked.address_ne,
        Memory.read?_eq_some.mpr ⟨hfits, hputs.slice_eq⟩⟩, List.forall_mem_append.mpr ⟨?_, ?_⟩⟩
      · exact fun x hx => (hgiven.1 x hx).writesWithin _
      · exact hwithin.sorted m call s₁ steps' _ s₂ htakes
    | error e =>
      dsimp only
      rw [Action.run_attempt_bind, Machine.records_bind]
      intro steps'' released s₃ _
      exact Machine.records_done.mpr (by rintro p ⟨⟩)

theorem records_textPut (hgrow : growth.GovernsCallee call) {p : UInt32} (hp : p ≠ 0)
    (text : String) (s : State) :
    m.Records call (writeCString p text).run s fun steps r s' => r = .ok () →
      s'.memory.size < 0x100000000 → TextPut text steps p s'.memory := by
  rintro steps r s' htakes rfl hafter
  have hends := Machine.ends_perform.mpr ⟨steps, htakes, rfl⟩
  have hsize : s.memory.size < 0x100000000 :=
    Nat.lt_of_le_of_lt (Machine.perform_grows hgrow _ s _ _ s' hends).1 hafter
  have hlength := Utf8.length_encode text
  rcases Nat.lt_trichotomy (p.toNat + (Utf8.encode text).length) s.memory.size with
    hinside | hflush | hbeyond
  · obtain ⟨-, rfl⟩ := Machine.eq_of_perform (writeCString_inside (Nat.le_of_lt hsize) hinside) htakes
    have hroom : p.toNat + (Utf8.encode text ++ [0]).length ≤ s.memory.size := by
      rwa [List.length_append]
    have hputs := Memory.puts_writeAll hroom
    refine ⟨⟨hp, Memory.read?_eq_some.mpr ⟨?_, hputs.slice_eq⟩⟩, fun x hx => ?_⟩
    · rw [hputs.size_eq]
      exact hroom
    · have hmade : Action.MadeOf (StepsOf (Op.Passes p text []) fun _ => True) (fun _ => True)
          (writeCString p text) :=
        Action.madeOf_bind (madeOf_write .text) fun _ => madeOf_write .zero
      have hstop : (p + (Utf8.encode text).length.toUInt32).toNat =
          p.toNat + (Utf8.encode text).length := by
        rw [toNat_add_length]
        omega
      generalize hop : x.op = op
      cases hop ▸ hmade.sorted m call s steps _ _ htakes x hx with
      | text => exact ⟨Nat.le_refl _, by dsimp only; omega⟩
      | zero => exact ⟨by dsimp only; omega, by rw [hstop, hlength]; exact Nat.le_refl _⟩
      | call _ => trivial
  · cases (Machine.eq_of_perform (writeCString_flush hsize hflush) htakes).1
  · cases (Machine.eq_of_perform (writeCString_beyond hbeyond) htakes).1

def Sourcing (m : Machine) (call : Callee) : BlockKind := fun _ p R =>
  (∀ past s, Sourced m.setup.smallStringSize past s → m.Records call p s fun steps _ s' =>
    Sourced m.setup.smallStringSize (past ++ steps) s') ∧ ∀ b, R b

theorem records_sourced {α : Type} {R : α → Prop} {p : Program α}
    (hp : p.MadeOf (Sourcing m call) R) {past : List Step} {s : State}
    (hs : Sourced m.setup.smallStringSize past s) : m.Records call p s fun steps _ s' =>
      Sourced m.setup.smallStringSize (past ++ steps) s' := by
  intro steps a s' h
  refine (hp.takes (K := fun s steps s' => ∀ past, Sourced m.setup.smallStringSize past s →
    Sourced m.setup.smallStringSize (past ++ steps) s') ?_ ?_ ?_ h).1 past hs
  · exact fun s past hs => hs.later rfl []
  · intro s steps s₁ steps' s' h h' past hs
    rw [← List.append_assoc]
    exact h' _ (h past hs)
  · exact fun β q R hq s steps b s' h => ⟨fun past hs => hq.1 past s hs steps b s' h, hq.2 b⟩

section

variable (hcall : scratchKept.GovernsCallee call)

include hcall

theorem sourcing_plain : BlockKind.Allows (Sourcing m call) (fun _ => True) Op.IsPlain := by
  refine .of_ops (fun op hop => ⟨fun past s hs steps answer s' h => ?_, op.answers_true⟩) trivial
  have hmade : (Program.ofOp op).MadeOf (StepsOf Op.IsPlain fun _ => True) _ :=
    Program.madeOf_block (.op op hop)
  exact hs.later (records_scratchKept hcall hmade s steps answer s' h) steps

theorem sourcing_marshal : BlockKind.Allows (Sourcing m call) (fun _ => True) Op.IsMarshal :=
  (sourcing_plain hcall).mono Op.IsMarshal.isPlain

theorem sourcing_scratch : Action.MadeOf (Sourcing m call) (fun _ => True) scratch := by
  refine Program.madeOf_block ⟨fun past s hs => ?_, failsWithin_true⟩
  rw [scratch, Action.run_lift_bind]
  refine Machine.records_op rfl ?_
  dsimp only
  split
  · exact Machine.records_done.mpr (hs.later rfl _)
  · rw [Action.run_lift_bind]
    refine Machine.records_op rfl (Action.records_bind.mpr ?_)
    have hmade := madeOf_allocateBlock (StepsOf.allows Op.IsMarshal.isPlain trivial) coversHost_true
      m.setup.smallStringSize
    intro steps r s₁ htakes
    cases r with
    | error e => exact hs.later (records_scratchKept hcall hmade s steps _ s₁ htakes) _
    | ok address =>
      dsimp only
      rw [Action.run_lift_bind, Machine.records_bind]
      refine Machine.records_modifyHost (Machine.records_done.mpr ?_)
      rintro p ⟨⟩
      refine ((records_requested _ s steps _ s₁ htakes).2 address rfl).mono fun x hx => ?_
      simp [hx]

theorem loads_sourcing : Loads (Sourcing m call) fun _ => True where
  quiet := (sourcing_plain hcall).mono fun h => h.isIdle.isPlain
  invoke := by
    refine madeOf_invoke ((sourcing_plain hcall).mono Op.IsIdle.isPlain) coversHost_true ?_
    refine Program.madeOf_block ⟨fun past s hs => ?_, fun _ => trivial⟩
    exact Machine.records_modifyHost (hs.later rfl _)
  locate := madeOf_tableFunction? (sourcing_plain hcall) trivial
  scratch := sourcing_scratch hcall
  inScope h := madeOf_inScope (sourcing_marshal hcall) coversHost_true
    (h.madeOf (sourcing_marshal hcall) coversHost_true)

theorem records_operation_sourced (op : Operation) (hrun : ∀ argv, op ≠ .run argv)
    {past : List Step} {s : State} (hs : Sourced m.setup.smallStringSize past s) :
    m.Records call op.action.run s fun steps _ s' =>
      Sourced m.setup.smallStringSize (past ++ steps) s' := by
  have hmade : Action.MadeOf (Sourcing m call) (fun _ => True) op.action :=
    madeOf_operation (loads_sourcing hcall) (sourcing_marshal hcall) coversHost_true op
      fun argv h => absurd h (hrun argv)
  exact records_sourced hmade hs

end

/-- A function that is entered and that takes a word first is told of the text by it. -/
def TellsText (m : Machine) (text : String) (past steps : List Step) (op : Op) (memory : Memory) :
    Prop :=
  ∀ entered f args type rest, op = .call (.entry entered) f args →
    m.setup.module.funcType? f = some type → type.params = .i32 :: rest →
    memory.size < 0x100000000 →
    ∃ p more, args = .i32 p :: more ∧
      TextPassed m.setup.smallStringSize text past steps p memory

theorem tellsText_of_not_isEntry {text : String} {past steps : List Step} {op : Op}
    (h : ¬ op.IsEntry) (memory : Memory) : TellsText m text past steps op memory := by
  rintro entered f args type rest rfl
  exact absurd trivial h

theorem TellsText.after {text : String} {past steps steps' : List Step} {op : Op} {memory : Memory}
    (h : TellsText m text past steps' op memory) (hsteps : ∀ x ∈ steps, x.op.LeavesMemory) :
    TellsText m text past (steps ++ steps') op memory := by
  intro entered f args type rest hop htype hparams hsize
  obtain ⟨p, more, hargs, hpassed⟩ := h entered f args type rest hop htype hparams hsize
  exact ⟨p, more, hargs, hpassed.after hsteps⟩

namespace Scope

variable {α β : Type} {tracked : List UInt32} {s : State} {P : List Step → Op → State → Prop}

/-- What is sent is noted before the rest goes on. -/
theorem meets_track_bind {a : Action UInt32} {f : UInt32 → Scope β} :
    m.Meets call ((do f (← track (← a)) : Scope β).run.run tracked) s P ↔
      m.Meets call a.run s P ∧ m.Records call a.run s fun steps r s₁ => ∀ address, r = .ok address →
        m.Meets call ((f address).run.run (address :: tracked)) s₁ fun steps' op s' =>
          P (steps ++ steps') op s' := by
  have hnoted : m.Meets call ((do track (← a) : Scope UInt32).run.run tracked) s P ↔
      m.Meets call a.run s P := by
    rw [run_bind]
    show m.Meets call (Program.bind (a.run.bind fun r => .done (r, tracked)) _) s P ↔ _
    rw [Program.bind_assoc, Machine.meets_bind]
    refine and_iff_left fun steps r s₁ _ => ?_
    cases r <;> exact Machine.meets_done _
  rw [← bind_assoc, meets_bind, hnoted, records_track]
  refine and_congr_right fun _ => Machine.records_congr fun steps r s₁ => ?_
  cases r with
  | error e => exact ⟨nofun, nofun⟩
  | ok address =>
    constructor
    · rintro h _ ⟨⟩
      exact h address rfl
    · rintro h _ ⟨⟩
      exact h address rfl

theorem run_lift_bind (a : Action α) (f : α → Action β) (tracked : List UInt32) :
    (do f (← a) : Scope β).run.run tracked =
      (liftM (a >>= f : Action β) : Scope β).run.run tracked := by
  rw [run_bind]
  show (a.run.bind fun r => .done (r, tracked)).bind _ =
    (a >>= f).run.bind fun r => .done (r, tracked)
  rw [Program.bind_assoc, Action.run_bind, Program.bind_assoc]
  congr 1
  funext r
  cases r <;> rfl

end Scope

theorem meets_tell {text : String} {past steps₀ : List Step} {p : UInt32} {s : State}
    (hput : s.memory.size < 0x100000000 →
      TextPassed m.setup.smallStringSize text past steps₀ p s.memory)
    (name : String) (f : Nat) (extra : List Int64) :
    m.Meets call (do invoke name f (← argumentsFor f [p] extra) : Action Json).run s
      fun steps op s' => TellsText m text past (steps₀ ++ steps) op s'.memory := by
  have haside (steps : List Step) (op : Op) (s' : State) (hop : ¬ op.IsEntry) :
      TellsText m text past (steps₀ ++ steps) op s'.memory := tellsText_of_not_isEntry hop _
  refine Action.meets_bind.mpr ⟨?_, ?_⟩
  · exact meets_aside haside (madeOf_argumentsFor Aside.access.lookup coversHost_true f [p] extra)
  · rw [argumentsFor, Action.run_lift_bind]
    refine Machine.records_op rfl (Machine.records_done.mpr fun args hargs => ?_)
    refine meets_invoke (fun _ _ _ hop => tellsText_of_not_isEntry hop _) ?_
    rintro entered g args' type rest ⟨⟩ htype hparams hsize
    rw [htype, Option.elim_some, hparams] at hargs
    obtain ⟨more, hmore⟩ := arguments_pointers [p] hargs
    refine ⟨p, more, hmore, (hput hsize).append ?_⟩
    simp [Op.LeavesMemory]

theorem meets_tellLong {text : String} {past steps₀ : List Step} {s : State}
    (hsteps₀ : ∀ x ∈ steps₀, x.op.LeavesMemory)
    (hlong : ¬ text.utf8ByteSize < m.setup.smallStringSize) (name : String) (f : Nat)
    (extra : List Int64) :
    m.Meets call (inScope do
      let address ← Scope.track (← sendString text none)
      invoke name f (← argumentsFor f [address] extra)).run s fun steps op s' =>
        TellsText m text past (steps₀ ++ steps) op s'.memory := by
  have haside (steps : List Step) (op : Op) (s' : State) (hop : ¬ op.IsEntry) :
      TellsText m text past (steps₀ ++ steps) op s'.memory := tellsText_of_not_isEntry hop _
  refine meets_inScope haside (Scope.meets_track_bind.mpr ⟨?_, fun steps r s₁ hsent p hr => ?_⟩)
  · exact meets_aside haside (madeOf_sendString Aside.marshals coversHost_true text none)
  · obtain ⟨hasked, hlies, hwithin⟩ := records_sent _ s steps r s₁ hsent p hr
    have hlength : (Utf8.encode text ++ [0]).length = text.utf8ByteSize + 1 := by
      rw [List.length_append, Utf8.length_encode]
      rfl
    rw [hlength] at hasked hwithin
    have hput : TextPassed m.setup.smallStringSize text past (steps₀ ++ steps) p s₁.memory := by
      refine ⟨⟨hlies, List.forall_mem_append.mpr ⟨fun x hx => ?_, hwithin⟩⟩, le_blockSize _ text, ?_⟩
      · exact (hsteps₀ x hx).writesWithin _
      · rw [blockSize, if_neg hlong]
        exact hasked.mono fun x hx => List.mem_append_right _ (List.mem_append_right _ hx)
    rw [Scope.run_lift_bind]
    refine Scope.meets_lift ((meets_tell (fun _ => hput) name f extra).mono ?_)
    intro steps' op s' htold
    rwa [← List.append_assoc]

section

variable (hgrow : growth.GovernsCallee call) (hcall : scratchKept.GovernsCallee call)

include hgrow

theorem meets_tellShort {text : String} {past steps₀ : List Step} {p : UInt32} {s : State}
    (hsteps₀ : ∀ x ∈ steps₀, x.op.LeavesMemory)
    (hasked : Requested m.setup.smallStringSize p (past ++ steps₀))
    (hshort : text.utf8ByteSize < m.setup.smallStringSize) (name : String) (f : Nat)
    (extra : List Int64) :
    m.Meets call (do
      writeCString p text
      invoke name f (← argumentsFor f [p] extra) : Action Json).run s fun steps op s' =>
        TellsText m text past (steps₀ ++ steps) op s'.memory := by
  refine Action.meets_bind.mpr ⟨?_, fun steps r s₁ hwritten u hr => ?_⟩
  · exact meets_aside (fun _ _ _ hop => tellsText_of_not_isEntry hop _)
      (madeOf_writeCString Aside.access coversHost_true p text)
  · have hput := records_textPut hgrow hasked.address_ne text s steps r s₁ hwritten hr
    have hpassed (hsize : s₁.memory.size < 0x100000000) :
        TextPassed m.setup.smallStringSize text past (steps₀ ++ steps) p s₁.memory := by
      have hwithin := (hput hsize).within
      refine ⟨⟨(hput hsize).lies, List.forall_mem_append.mpr ⟨fun x hx => ?_, hwithin⟩⟩,
        le_blockSize _ text, ?_⟩
      · exact (hsteps₀ x hx).writesWithin _
      · rw [blockSize, if_pos hshort, ← List.append_assoc]
        exact hasked.mono (List.subset_append_left _ _)
    refine (meets_tell hpassed name f extra).mono fun steps' op s' htold => ?_
    rwa [← List.append_assoc]

include hcall

theorem meets_passText {text : String} {past steps₀ : List Step} {s : State}
    (hsteps₀ : ∀ x ∈ steps₀, x.op.LeavesMemory)
    (hs : Sourced m.setup.smallStringSize (past ++ steps₀) s) (name : String) (f : Nat)
    (extra : List Int64) :
    m.Meets call (if text.utf8ByteSize < m.setup.smallStringSize then do
        let address ← scratch
        writeCString address text
        invoke name f (← argumentsFor f [address] extra)
      else inScope do
        let address ← Scope.track (← sendString text none)
        invoke name f (← argumentsFor f [address] extra) : Action Json).run s fun steps op s' =>
          TellsText m text past (steps₀ ++ steps) op s'.memory := by
  split
  · next hshort =>
    refine Action.meets_bind.mpr ⟨?_, fun steps r s₁ hscratch p hr => ?_⟩
    · exact meets_aside (fun _ _ _ hop => tellsText_of_not_isEntry hop _) Aside.passes.scratch
    · obtain ⟨hfetched, hs₁⟩ := records_scratch s steps r s₁ hscratch
      have hsourced := records_sourced (sourcing_scratch hcall) hs steps r s₁ hscratch
      have hbefore : ∀ x ∈ steps₀ ++ steps, x.op.LeavesMemory :=
        List.forall_mem_append.mpr ⟨hsteps₀, fun x hx => (hfetched x hx).leavesMemory⟩
      have hasked : Requested m.setup.smallStringSize p (past ++ (steps₀ ++ steps)) := by
        rw [← List.append_assoc]
        exact hsourced p (hs₁ p hr)
      refine (meets_tellShort hgrow hbefore hasked hshort name f extra).mono ?_
      intro steps' op s' htold
      rwa [← List.append_assoc]
  · next hlong => exact meets_tellLong hsteps₀ hlong name f extra

theorem meets_callText (name text : String) (extra : List Int64) {past : List Step} {s : State}
    (hs : Sourced m.setup.smallStringSize past s) :
    m.Meets call (callWithString name (.one text) extra).run s fun steps op s' =>
      TellsText m text past steps op s'.memory := by
  have hquiet : Action.MadeOf (StepsOf Op.LeavesMemory fun _ => True) (fun _ => True)
      (function name) :=
    madeOf_function (StepsOf.allows Op.IsLookup.leavesMemory trivial) coversHost_true name
  have hsourcing : Action.MadeOf (Sourcing m call) (fun _ => True) (function name) :=
    madeOf_function ((sourcing_marshal hcall).mono Op.IsAccess.isMarshal).lookup coversHost_true name
  rw [callWithString]
  refine Action.meets_bind.mpr ⟨?_, fun steps r s₁ hfound f _ => ?_⟩
  · exact meets_aside (fun _ _ _ hop => tellsText_of_not_isEntry hop _)
      (madeOf_function Aside.access.lookup coversHost_true name)
  · rw [Action.run_lift_bind]
    have hlooks : ¬ Op.setup.IsEntry := by rintro ⟨⟩
    refine Machine.meets_step.mpr ⟨tellsText_of_not_isEntry hlooks _, fun t setup s₂ hlook => ?_⟩
    cases hlook
    have hbefore : ∀ x ∈ steps ++ [⟨.setup, m.setup, s₁, s₁, []⟩], x.op.LeavesMemory :=
      List.forall_mem_append.mpr ⟨hquiet.sorted m call s steps r s₁ hfound,
        List.forall_mem_singleton.mpr trivial⟩
    have hs₁ := (records_sourced hsourcing hs steps r s₁ hfound).later rfl
      [⟨.setup, m.setup, s₁, s₁, []⟩]
    rw [List.append_assoc] at hs₁
    refine (meets_passText hgrow hcall hbefore hs₁ name f extra).mono ?_
    intro steps' op s' htold
    rwa [List.append_assoc] at htold

end

/-- Where a function has been entered, the host changes no memory itself any more. -/
def Settled (steps : List Step) (op : Op) : Prop := (∃ x ∈ steps, x.op.IsEntry) → op.LeavesMemory

theorem Settled.after {steps steps' : List Step} {op : Op} (h : Settled steps' op)
    (hsteps : ∀ x ∈ steps, ¬ x.op.IsEntry) : Settled (steps ++ steps') op := by
  rintro ⟨x, hx, hentry⟩
  rcases List.mem_append.mp hx with hx | hx
  · exact absurd hentry (hsteps x hx)
  · exact h ⟨x, hx, hentry⟩

theorem meets_settled_aside {α : Type} {R : α → Prop} {p : Program α} (hp : p.MadeOf Aside R)
    (s : State) : m.Meets call p s fun steps op _ => Settled steps op :=
  (Machine.meets_sorted_steps hp s).mono fun _ _ _ hsteps hentered => by
    obtain ⟨x, hx, hentry⟩ := hentered
    exact absurd hentry (hsteps x hx)

theorem meets_settled_bind {α β : Type} {a : Action α} {f : α → Action β} {s : State}
    (ha : Action.MadeOf Aside (fun _ => True) a)
    (hf : ∀ x s, m.Meets call (f x).run s fun steps op _ => Settled steps op) :
    m.Meets call (a >>= f).run s fun steps op _ => Settled steps op := by
  refine Action.meets_bind.mpr ⟨meets_settled_aside ha s, fun steps r s₁ htakes x _ => ?_⟩
  exact (hf x s₁).mono fun steps' op s' hsettled =>
    hsettled.after (ha.sorted m call s steps r s₁ htakes)

theorem madeOf_tell (name : String) (f : Nat) (address : UInt32) (extra : List Int64) :
    Action.MadeOf (StepsOf Op.LeavesMemory fun _ => True) (fun _ => True)
      (do invoke name f (← argumentsFor f [address] extra)) := by
  have hlookup : BlockKind.Allows (StepsOf Op.LeavesMemory fun _ => True) (fun _ => True)
      Op.IsLookup := StepsOf.allows Op.IsLookup.leavesMemory trivial
  refine Action.madeOf_bind (madeOf_argumentsFor hlookup coversHost_true f [address] extra) ?_
  refine fun args => madeOf_enter coversHost_true ?_ (.op .getHost trivial) (.op _ trivial)
  exact Program.madeOf_bind (Program.madeOf_block (.op .getHost trivial)) fun _ _ =>
    Program.madeOf_block (.op (.setHost _) trivial)

theorem meets_settled_text (name text : String) (extra : List Int64) (s : State) :
    m.Meets call (callWithString name (.one text) extra).run s fun steps op _ =>
      Settled steps op := by
  have htell (f : Nat) (address : UInt32) (s : State) :
      m.Meets call (do invoke name f (← argumentsFor f [address] extra) : Action Json).run s
        fun _ op _ => op.LeavesMemory := Machine.meets_sorted (madeOf_tell name f address extra) s
  have hlooks : ¬ Op.setup.IsEntry := by rintro ⟨⟩
  rw [callWithString]
  refine meets_settled_bind (madeOf_function Aside.access.lookup coversHost_true name)
    fun f s => meets_settled_bind (Action.madeOf_lift (Program.madeOf_block (.op .setup hlooks)))
      fun setup s => ?_
  dsimp only
  split
  · refine meets_settled_bind Aside.passes.scratch fun address s => ?_
    refine meets_settled_bind (madeOf_writeCString Aside.access coversHost_true address text)
      fun _ s => ?_
    exact (htell f address s).mono fun _ _ _ h _ => h
  · refine meets_scope (fun _ _ _ hop _ => hop.leavesMemory) ?_
    refine Scope.meets_track_bind.mpr ⟨?_, fun steps r s₁ _ address _ => ?_⟩
    · exact meets_settled_aside (madeOf_sendString Aside.marshals coversHost_true text none) s
    · rw [Scope.run_lift_bind]
      exact Scope.meets_lift ((htell f address s₁).mono fun _ _ _ h _ => h)

end Guest

section

variable {m : Machine} {call : Callee} (hcall : scratchKept.GovernsCallee call)

include hcall

theorem Performed.Of.sourced {x : Performed} (h : x.Of m call) {past : List Step}
    (hs : Sourced m.setup.smallStringSize past x.before) :
    Sourced m.setup.smallStringSize (past ++ x.lasting) x.after := by
  obtain ⟨op, before, steps, result, after⟩ := x
  cases op with
  | run argv =>
    have hpointers := Guest.run_pointers (Machine.ends_perform.mpr ⟨steps, h, rfl⟩)
    exact hs.later (congrArg Pointers.scratch hpointers) []
  | _ => exact Guest.records_operation_sourced hcall _ (by simp) hs steps result after h

/-- Whatever operations are performed, the scratch block is one that was asked for. -/
theorem Machine.Performs.sourced {s s' : State} {xs : List Performed} (h : m.Performs call s xs s')
    {past : List Step} (hs : Sourced m.setup.smallStringSize past s) :
    Sourced m.setup.smallStringSize (past ++ xs.flatMap Performed.lasting) s' := by
  induction h generalizing past with
  | nil hsame => exact hs.later hsame []
  | cons hsame hx _ ih =>
    rw [List.flatMap_cons, ← List.append_assoc]
    refine ih (hx.sourced hcall ?_)
    have hbefore := hs.later hsame []
    rwa [List.append_nil] at hbefore

end

namespace Guest

/-- At every depth of calls, in whatever memory, and however small or large the scratch block is: a
function that is entered with a text finds it, and the host writes nothing afterwards. And whatever
is performed, the scratch block stays one that was asked for. -/
theorem text_arrives (m : Machine) (depth hostDepth : Nat) :
    (∀ past s, Sourced m.setup.smallStringSize past s → ∀ name text extra,
      m.Meets (m.callFunction depth hostDepth .host) (callWithString name (.one text) extra).run s
        fun steps op s' => TellsText m text past steps op s'.memory ∧ Settled steps op) ∧
    ∀ past s xs s', Sourced m.setup.smallStringSize past s →
      m.Performs (m.callFunction depth hostDepth .host) s xs s' →
      Sourced m.setup.smallStringSize (past ++ xs.flatMap Performed.lasting) s' := by
  have hgrow := m.callFunction_grows depth hostDepth .host
  have hcall := m.callFunction_keepsScratch depth hostDepth .host
  refine ⟨fun past s hs name text extra steps op s' hnears => ⟨?_, ?_⟩, ?_⟩
  · exact meets_callText hgrow hcall name text extra hs steps op s' hnears
  · exact meets_settled_text name text extra s steps op s' hnears
  · exact fun past s xs s' hs h => h.sourced hcall hs

/-- A short string is passed through the scratch block after a longer one, which is there still. -/
theorem text_arrives_again :
    let call := listMachine.callFunction 20 10 .host
    ∃ x s steps p more s', listState.scratch = none ∧
      x.op = .callWithString "count" (.one "longer than that") [1] ∧
      listMachine.Performs call listState [x] s ∧
      listMachine.Nears call (callWithString "count" (.one "ab") [7]).run s steps
        (.call (.entry "count") 4 (.i32 p :: more)) s' ∧ s'.memory.size < 0x100000000 ∧
      TextPassed 64 "ab" x.steps steps p s'.memory := by
  intro call
  have hboth : ((listMachine.perform call
      (callWithString "count" (.one "longer than that") [1]).run listState).answered
        Request.unsupported).any (fun x =>
          (listMachine.approach call Request.unsupported "count"
            (callWithString "count" (.one "ab") [7]).run x.2).any fun y =>
              y.2.1.1 == 4 && decide (y.2.2.memory.size < 0x100000000)) = true := by
    decide +kernel
  obtain ⟨t, ⟨r, s⟩, hends, hsecond⟩ := Dialogue.exists_ends_of_any_answered hboth
  obtain ⟨first, htakes, -⟩ := Machine.ends_perform.mp hends
  obtain ⟨⟨steps, ⟨f, args⟩, s'⟩, hreached, hchecked⟩ := (Option.any_eq_true _ _).mp hsecond
  simp only [Bool.and_eq_true, decide_eq_true_eq, beq_iff_eq] at hchecked
  obtain ⟨rfl, hsize⟩ := hchecked
  let x : Performed :=
    ⟨.callWithString "count" (.one "longer than that") [1], listState, first, r, s⟩
  have hperforms : listMachine.Performs call listState [x] s := .cons rfl htakes (.nil rfl)
  obtain ⟨hcalls, hhistory⟩ := text_arrives listMachine 20 10
  have hsourced := hhistory [] listState [x] s (.of_none rfl) hperforms
  have hnears := Machine.nears_of_approach hreached
  obtain ⟨htells, -⟩ := hcalls _ s hsourced "count" "ab" [7] steps _ s' hnears
  obtain ⟨p, more, rfl, hpassed⟩ := htells _ _ _ _ _ rfl rfl rfl hsize
  have hlasting : [] ++ [x].flatMap Performed.lasting = x.steps := by simp [x, Performed.lasting]
  rw [hlasting] at hpassed
  exact ⟨x, s, steps, p, more, s', rfl, rfl, hperforms, hnears, hsize, hpassed⟩

end Guest

end SandboxHost

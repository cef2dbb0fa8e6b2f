import SandboxHost.Host.Native
import SandboxHost.Proofs.KeptPointers

namespace SandboxHost

/-- The blocks that became the scratch block in these steps. -/
def kept (steps : List Step) : List UInt32 := (blocks steps).filterMap BlockEvent.kept?

/-- The blocks that the guest's allocator gave in these steps. -/
def obtained (steps : List Step) : List UInt32 := (blocks steps).filterMap BlockEvent.obtained?

@[simp] theorem kept_append (steps steps' : List Step) :
    kept (steps ++ steps') = kept steps ++ kept steps' := by
  simp [kept]

@[simp] theorem obtained_append (steps steps' : List Step) :
    obtained (steps ++ steps') = obtained steps ++ obtained steps' := by
  simp [obtained]

/-- The guest's allocator was asked for so many bytes, and gave this block. -/
inductive Step.Allocates (size : Nat) (p : UInt32) : Step → Prop where
  | intro {f : Nat} {rest : List Value} {s s' : State} {t : Trace} : p ≠ 0 →
    Allocates size p ⟨.call .allocate f [.i32 size.toUInt32], .ok (.i32 p :: rest), s, s', t⟩

def Op.IsFetch (size : Nat) : Op → Prop
  | .getHost | .setHost _ => True
  | .call .allocate _ args => args = [.i32 size.toUInt32]
  | op => op.IsLookup

/-- Steps by which a text goes through the block at an address, with numbers after it. -/
inductive Op.Passes (p : UInt32) (text : String) (extra : List Int64) : Op → Prop where
  | text : Passes p text extra (.write p.toNat (Utf8.encode text))
  | zero : Passes p text extra (.write (p + (Utf8.encode text).length.toUInt32).toNat [0])
  | call {name : String} {f : Nat} {types : List ValueType} {args : List Value} :
    Guest.arguments types [p] extra = .ok args → Passes p text extra (.call (.entry name) f args)

theorem Op.IsLookup.isFetch {op : Op} (h : op.IsLookup) (size : Nat) : op.IsFetch size := by
  unfold IsFetch
  split
  · trivial
  · trivial
  · exact h.elim
  · exact h

theorem Op.IsFetch.attempt?_eq_none {op : Op} {size : Nat} (h : op.IsFetch size) :
    op.attempt? = none := by
  unfold attempt?
  split
  · exact h.elim
  · rfl

theorem Op.Passes.attempt?_eq_none {op : Op} {p : UInt32} {text : String} {extra : List Int64}
    (h : op.Passes p text extra) : op.attempt? = none := by
  cases h <;> rfl

theorem Step.allocates_of_block? {x : Step} {size : Nat} {p : UInt32}
    (h : x.block? = some (.obtained p)) (hx : x.op.IsFetch size) : x.Allocates size p := by
  unfold block? at h
  split at h
  · next f args address rest s s' t =>
    split at h
    · cases h
    · next hblock =>
      cases h
      cases hx
      exact .intro hblock
  · split at h <;> cases h
  · cases hattempt : x.op.attempt? with
    | none =>
      rw [hattempt] at h
      cases h
    | some _ =>
      rw [hattempt] at h
      cases h

theorem Step.kept?_eq_none {x : Step} (h : x.op.IsPlain) :
    x.block?.bind BlockEvent.kept? = none := by
  unfold block?
  split
  · split <;> rfl
  · exact h.elim
  · cases x.op.attempt? <;> rfl

theorem kept_eq_nil {steps : List Step} (h : ∀ x ∈ steps, x.op.IsPlain) : kept steps = [] := by
  rw [kept, blocks, List.filterMap_filterMap]
  exact List.filterMap_eq_nil_iff.mpr fun x hx => Step.kept?_eq_none (h x hx)

/-- A block becomes the scratch block only where there is none, and it is one that the allocator
gave for this size. -/
structure Adopts (size : Nat) (s : State) (steps : List Step) (s' : State) : Prop where
  once : kept steps = [] ∧ s'.scratch = s.scratch ∨
    ∃ p, kept steps = [p] ∧ s.scratch = none ∧ s'.scratch = some p
  allocated (p : UInt32) : p ∈ kept steps → ∃ x ∈ steps, x.Allocates size p

namespace Adopts

variable {size : Nat} {s s₁ s' : State} {steps steps' : List Step}

theorem still (hkept : kept steps = []) (hs : s'.scratch = s.scratch) : Adopts size s steps s' where
  once := .inl ⟨hkept, hs⟩
  allocated p hp := by
    rw [hkept] at hp
    cases hp

theorem trans (h : Adopts size s steps s₁) (h' : Adopts size s₁ steps' s') :
    Adopts size s (steps ++ steps') s' where
  once := by
    rw [kept_append]
    rcases h.once with ⟨hnone, hs₁⟩ | ⟨p, hkept, hs, hs₁⟩
    · rw [hnone, List.nil_append, ← hs₁]
      exact h'.once
    · rcases h'.once with ⟨hnone', hs'⟩ | ⟨_, _, hs₁', _⟩
      · rw [hkept, hnone']
        exact .inr ⟨p, rfl, hs, hs'.trans hs₁⟩
      · rw [hs₁] at hs₁'
        cases hs₁'
  allocated p hp := by
    rw [kept_append] at hp
    rcases List.mem_append.mp hp with hp | hp
    · obtain ⟨x, hx, halloc⟩ := h.allocated p hp
      exact ⟨x, List.mem_append_left _ hx, halloc⟩
    · obtain ⟨x, hx, halloc⟩ := h'.allocated p hp
      exact ⟨x, List.mem_append_right _ hx, halloc⟩

theorem stays (h : Adopts size s steps s') (p : UInt32) (hp : s.scratch = some p) :
    s'.scratch = some p := by
  rcases h.once with ⟨-, hs⟩ | ⟨_, -, hs, -⟩
  · exact hs.trans hp
  · rw [hp] at hs
    cases hs

theorem length_kept (h : Adopts size s steps s') : (kept steps).length ≤ 1 := by
  rcases h.once with ⟨hnone, -⟩ | ⟨p, hkept, -⟩
  · simp [hnone]
  · simp [hkept]

end Adopts

namespace Ledger

variable {m : Module} {size : Nat} {s s' : State} {steps : List Step}

/-- Where nothing is to be given back, what is kept is what was obtained. -/
theorem obtained_perm (h : Ledger m [] [] s steps s') (hattempts : attempts steps = []) :
    (obtained steps).Perm (kept steps) := by
  have hperm := h.balanced.perm
  rwa [hattempts, List.map_nil, List.append_nil] at hperm

theorem adopts (h : Ledger m [] [] s steps s') (hsteps : ∀ x ∈ steps, x.op.IsFetch size) :
    Adopts size s steps s' where
  once := h.keeps
  allocated p hp := by
    have hattempts := attempts_eq_nil fun x hx => (hsteps x hx).attempt?_eq_none
    obtain ⟨event, hevent, hobtained⟩ :=
      List.mem_filterMap.mp ((h.obtained_perm hattempts).mem_iff.mpr hp)
    obtain ⟨x, hx, hblock⟩ := List.mem_filterMap.mp hevent
    cases event <;> cases hobtained
    exact ⟨x, hx, Step.allocates_of_block? hblock (hsteps x hx)⟩

end Ledger

namespace Guest

variable {m : Machine} {call : Callee}

theorem records_scratch (s : State) : m.Records call scratch.run s fun steps r s' =>
    (∀ x ∈ steps, x.op.IsFetch m.setup.smallStringSize) ∧ ∀ p, r = .ok p → s'.scratch = some p := by
  rw [scratch, Action.run_lift_bind]
  refine Machine.records_op rfl ?_
  simp only [List.forall_mem_cons]
  split
  · next address hs =>
    refine Machine.records_done.mpr ⟨⟨trivial, List.forall_mem_nil _⟩, ?_⟩
    rintro p ⟨⟩
    exact hs
  · have hallocate : Action.MadeOf (StepsOf (Op.IsFetch m.setup.smallStringSize) fun _ => True)
        (fun _ => True) (allocate m.setup.smallStringSize) :=
      madeOf_allocate (StepsOf.allows (fun h => h.isFetch _) trivial) coversHost_true _ fun _ =>
        .op _ rfl
    rw [Action.run_lift_bind]
    refine Machine.records_op rfl (Action.records_bind.mpr ?_)
    refine (hallocate.sorted m call s).mono fun steps r s₁ hsteps => ?_
    simp only [List.forall_mem_cons]
    cases r with
    | error e => exact ⟨⟨trivial, trivial, hsteps⟩, by rintro p ⟨⟩⟩
    | ok address =>
      dsimp only
      rw [Action.run_lift_bind, Machine.records_bind]
      refine Machine.records_modifyHost (Machine.records_done.mpr ⟨⟨trivial, trivial, ?_⟩, ?_⟩)
      · simp only [List.forall_mem_append, List.forall_mem_cons]
        exact ⟨hsteps, ⟨trivial, trivial, List.forall_mem_nil _⟩, List.forall_mem_nil _⟩
      · rintro p ⟨⟩
        rfl

/-- What goes on while the scratch block is this one: the text is passed through it. -/
structure Through (m : Machine) (p : UInt32) (text : String) (extra : List Int64)
    (steps : List Step) (s' : State) : Prop where
  scratch : s'.scratch = some p
  passes : ∀ x ∈ steps, x.op.IsFetch m.setup.smallStringSize ∨
    x.before.scratch = some p ∧ x.op.Passes p text extra

section

variable {p : UInt32} {s : State} (text : String) (extra : List Int64)

variable {text extra} in
theorem Through.append {steps steps' : List Step} {s₁ s' : State}
    (h : Through m p text extra steps s₁) (h' : Through m p text extra steps' s') :
    Through m p text extra (steps ++ steps') s' :=
  ⟨h'.scratch, List.forall_mem_append.mpr ⟨h.passes, h'.passes⟩⟩

variable {text extra} in
theorem records_write_through (hs : s.scratch = some p) {address : UInt32} {bytes : List UInt8}
    (hpasses : (Op.write address.toNat bytes).Passes p text extra) :
    m.Records call (writeMemory address bytes).run s fun steps _ s' =>
      Through m p text extra steps s' := by
  rw [writeMemory, Action.run_lift_bind]
  refine Machine.records_step.mpr fun t written s₁ h => ?_
  have hs₁ : s₁.scratch = some p := by
    rw [Machine.performOp] at h
    split at h <;> cases h <;> exact hs
  have hthrough : Through m p text extra [⟨.write address.toNat bytes, written, s, s₁, t⟩] s₁ :=
    ⟨hs₁, List.forall_mem_singleton.mpr (.inr ⟨hs, hpasses⟩)⟩
  cases written <;> exact Machine.records_done.mpr hthrough

theorem records_writeCString_through (hs : s.scratch = some p) :
    m.Records call (writeCString p text).run s fun steps _ s' =>
      Through m p text extra steps s' := by
  rw [writeCString, Action.records_bind]
  have htext : m.Records call (writeMemory p (Utf8.encode text)).run s fun steps _ s₁ =>
      Through m p text extra steps s₁ := records_write_through hs .text
  refine htext.mono fun steps r s₁ h => ?_
  cases r with
  | error e => exact h
  | ok _ =>
    exact (records_write_through h.scratch .zero).mono fun steps' r s' h' => h.append h'

theorem records_argumentsFor_through (hs : s.scratch = some p) (f : Nat) :
    m.Records call (argumentsFor f [p] extra).run s fun steps r s' =>
      Through m p text extra steps s' ∧
        ∀ args, r = .ok args → ∃ types, arguments types [p] extra = .ok args := by
  rw [argumentsFor, Action.run_lift_bind]
  refine Machine.records_op rfl (Machine.records_done.mpr ⟨⟨hs, ?_⟩, fun args h => ⟨_, h⟩⟩)
  exact List.forall_mem_singleton.mpr (.inl trivial)

variable (hcall : scratchKept.GovernsCallee call)

include hcall

theorem records_invoke_through (hs : s.scratch = some p) (name : String) (f : Nat)
    {args : List Value} (hargs : ∃ types, arguments types [p] extra = .ok args) :
    m.Records call (invoke name f args).run s fun steps _ s' =>
      Through m p text extra steps s' := by
  obtain ⟨types, hargs⟩ := hargs
  rw [invoke, Action.run_lift_bind, Machine.records_bind]
  refine Machine.records_modifyHost ?_
  rw [Action.records_bind, records_callRaw]
  intro t returned s' hreturned
  have hs' : s'.scratch = some p := (hcall f args _ t returned s' hreturned).1.trans hs
  have hreset : Through m p text extra [⟨.getHost, s.host, s, s, []⟩,
      ⟨.setHost s.host.fresh, (), s, s.fresh, []⟩] s.fresh :=
    ⟨hs, List.forall_mem_cons.mpr ⟨.inl trivial, List.forall_mem_singleton.mpr (.inl trivial)⟩⟩
  have hentered : Through m p text extra
      [⟨.call (.entry name) f args, returned, s.fresh, s', t⟩] s' :=
    ⟨hs', List.forall_mem_singleton.mpr (.inr ⟨hs, .call hargs⟩)⟩
  have hcalled := hreset.append hentered
  cases returned with
  | error e => exact hcalled
  | ok results =>
    dsimp only [Except.map]
    rw [Action.run_lift_bind]
    refine Machine.records_op rfl ?_
    have hlook : Through m p text extra [⟨.getHost, s'.host, s', s', []⟩] s' :=
      ⟨hs', List.forall_mem_singleton.mpr (.inl trivial)⟩
    split <;> exact Machine.records_done.mpr (hcalled.append hlook)

theorem records_enter_through (hs : s.scratch = some p) (name : String) (f : Nat) :
    m.Records call (do
      writeCString p text
      invoke name f (← argumentsFor f [p] extra) : Action Json).run s fun steps _ s' =>
        Through m p text extra steps s' := by
  rw [Action.records_bind]
  refine (records_writeCString_through text extra hs).mono fun steps r s₁ hwritten => ?_
  cases r with
  | error e => exact hwritten
  | ok _ =>
    dsimp only
    rw [Action.records_bind]
    refine (records_argumentsFor_through text extra hwritten.scratch f).mono fun steps₁ r s₂ h => ?_
    obtain ⟨hconverted, hargs⟩ := h
    cases r with
    | error e => exact hwritten.append hconverted
    | ok args =>
      have hinvoked : m.Records call (invoke name f args).run s₂ fun steps _ s' =>
          Through m p text extra steps s' :=
        records_invoke_through text extra hcall hconverted.scratch name f (hargs args rfl)
      refine hinvoked.mono fun steps₂ r s' hentered => ?_
      exact hwritten.append (hconverted.append hentered)

end

/-- What is done for a short string: its block is found, and it is passed through it. -/
structure ShortSteps (m : Machine) (text : String) (extra : List Int64) (steps : List Step)
    (s' : State) : Prop where
  passes : ∀ x ∈ steps, x.op.IsFetch m.setup.smallStringSize ∨
    ∃ p, s'.scratch = some p ∧ x.before.scratch = some p ∧ x.op.Passes p text extra
  obtained : (obtained steps).Perm (kept steps)

variable (hcall : scratchKept.GovernsCallee call)

include hcall

theorem records_shortCall_passes (name : String) {text : String} {extra : List Int64}
    (h : text.utf8ByteSize < m.setup.smallStringSize) (s : State) :
    m.Records call (callWithString name (.one text) extra).run s fun steps _ s' =>
      ∀ x ∈ steps, x.op.IsFetch m.setup.smallStringSize ∨
        ∃ p, s'.scratch = some p ∧ x.before.scratch = some p ∧ x.op.Passes p text extra := by
  have hfunction : Action.MadeOf (StepsOf (Op.IsFetch m.setup.smallStringSize) fun _ => True)
      (fun _ => True) (function name) :=
    madeOf_function (StepsOf.allows (fun h => h.isFetch _) trivial) coversHost_true name
  rw [callWithString, Action.records_bind]
  refine (hfunction.sorted m call s).mono fun steps r s₁ hfound => ?_
  cases r with
  | error e => exact fun x hx => .inl (hfound x hx)
  | ok f =>
    dsimp only
    rw [Action.run_lift_bind]
    refine Machine.records_op rfl ?_
    rw [if_pos h, Action.records_bind]
    refine (records_scratch s₁).mono fun steps₁ r s₂ hscratch => ?_
    obtain ⟨hfetched, hs₂⟩ := hscratch
    have hbefore : ∀ x ∈ steps ++ ⟨.setup, m.setup, s₁, s₁, []⟩ :: steps₁,
        x.op.IsFetch m.setup.smallStringSize :=
      List.forall_mem_append.mpr ⟨hfound, List.forall_mem_cons.mpr ⟨trivial, hfetched⟩⟩
    cases r with
    | error e => exact fun x hx => .inl (hbefore x hx)
    | ok p =>
      refine (records_enter_through text extra hcall (hs₂ p rfl) name f).mono
        fun steps₂ r s' hthrough x hx => ?_
      rw [← List.cons_append, ← List.append_assoc] at hx
      rcases List.mem_append.mp hx with hx | hx
      · exact .inl (hbefore x hx)
      · exact (hthrough.passes x hx).imp id fun hpasses => ⟨p, hthrough.scratch, hpasses⟩

/-- All that a call with a short string does itself is to find the scratch block and to pass the
text through it. -/
theorem records_shortCall (name : String) {text : String} {extra : List Int64}
    (h : text.utf8ByteSize < m.setup.smallStringSize) (s : State) :
    m.Records call (callWithString name (.one text) extra).run s fun steps _ s' =>
      ShortSteps m text extra steps s' := by
  have hmade :
      Action.MadeOf (Even m call) (fun _ => True) (callWithString name (.one text) extra) :=
    madeOf_callWithString (loads_even hcall) coversHost_true name (.one text) extra
  intro steps r s' ht
  have hpasses := records_shortCall_passes hcall name h s steps r s' ht
  refine ⟨hpasses, (records_of_madeOf hmade s steps r s' ht).obtained_perm ?_⟩
  refine attempts_eq_nil fun x hx => ?_
  rcases hpasses x hx with hfetch | ⟨p, -, -, hpass⟩
  · exact hfetch.attempt?_eq_none
  · exact hpass.attempt?_eq_none

/-- The short string that an operation passes to the guest, with the numbers after it. -/
def Operation.shortText? (size : Nat) : Operation → Option (String × List Int64)
  | .callWithString _ (.one text) extra =>
    if text.utf8ByteSize < size then some (text, extra) else none
  | .define name => if name.utf8ByteSize < size then some (name, []) else none
  | _ => none

theorem records_shortOperation {op : Operation} {text : String} {extra : List Int64}
    (h : op.shortText? m.setup.smallStringSize = some (text, extra)) (s : State) :
    m.Records call op.action.run s fun steps _ s' => ShortSteps m text extra steps s' := by
  unfold Operation.shortText? at h
  split at h
  · split at h
    · next hshort =>
      cases h
      exact records_shortCall hcall _ hshort s
    · cases h
  · next name =>
    split at h
    · next hshort =>
      cases h
      -- What is made of the output takes no steps.
      change m.Records call (define text).run s _
      rw [define, Action.records_bind]
      refine (records_shortCall hcall "cDefine" hshort s).mono fun steps r s' hsteps => ?_
      cases r with
      | error e => exact hsteps
      | ok output =>
        have hended : ShortSteps m text [] (steps ++ []) s' := by rwa [List.append_nil]
        dsimp only
        split <;> exact Machine.records_done.mpr hended
    · cases h
  · cases h

def Adopting (m : Machine) (call : Callee) : BlockKind := fun _ p R =>
  (∀ s, m.Records call p s fun steps _ s' => Adopts m.setup.smallStringSize s steps s') ∧ ∀ b, R b

theorem adopting_plain : BlockKind.Allows (Adopting m call) (fun _ => True) Op.IsPlain := by
  refine .of_ops (fun op hop => ⟨fun s steps answer s' h => ?_, op.answers_true⟩) trivial
  obtain ⟨t, answer, s₁, rest, hstep, hdone, rfl⟩ := Machine.takes_step.mp h
  obtain ⟨rfl, rfl, rfl⟩ := Machine.takes_done.mp hdone
  rw [← Machine.perform_ofOp] at hstep
  have hkept : scratchKept.GovernsProgram m call (.ofOp op) _ :=
    Machine.governs_plain (fun _ _ _ _ => rfl) hcall hop
  exact .still (kept_eq_nil (List.forall_mem_singleton.mpr hop)) (hkept s t answer s' hstep).1

theorem adopting_marshal : BlockKind.Allows (Adopting m call) (fun _ => True) Op.IsMarshal :=
  (adopting_plain hcall).mono Op.IsMarshal.isPlain

theorem loads_adopting : Loads (Adopting m call) fun _ => True where
  quiet := (adopting_plain hcall).mono fun h => h.isIdle.isPlain
  invoke := by
    refine madeOf_invoke ((adopting_plain hcall).mono Op.IsIdle.isPlain) coversHost_true ?_
    refine Program.madeOf_block ⟨fun s => ?_, fun _ => trivial⟩
    refine Machine.records_modifyHost (.still ?_ rfl)
    rw [kept, blocks_edit, HostState.fresh]
    cases s.host.pointers.scratch <;> rfl
  locate := madeOf_tableFunction? (adopting_plain hcall) trivial
  scratch := by
    refine Program.madeOf_block ⟨fun s steps r s' ht => ?_, failsWithin_true⟩
    have heven := records_of_madeOf (even_scratch hcall) s steps r s' ht
    exact heven.adopts (records_scratch s steps r s' ht).1
  inScope h := madeOf_inScope (adopting_marshal hcall) coversHost_true
    (h.madeOf (adopting_marshal hcall) coversHost_true)

theorem records_operation_adopts (op : Operation) (hrun : ∀ argv, op ≠ .run argv) (s : State) :
    m.Records call op.action.run s fun steps _ s' =>
      Adopts m.setup.smallStringSize s steps s' := by
  have hmade : Action.MadeOf (Adopting m call) (fun _ => True) op.action :=
    madeOf_operation (loads_adopting hcall) (adopting_marshal hcall) coversHost_true op
      fun argv h => absurd h (hrun argv)
  intro steps r s' ht
  refine (hmade.takes (K := Adopts m.setup.smallStringSize) (fun _ => .still rfl rfl)
    (fun _ _ _ _ _ => .trans) ?_ ht).1
  exact fun β q R hq s steps b s' hsteps => ⟨hq.1 s steps b s' hsteps, hq.2 b⟩

end Guest

end SandboxHost

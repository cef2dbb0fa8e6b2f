import SandboxHost.Proofs.Resolution
import SandboxHost.Proofs.Scopes
import SandboxHost.Proofs.TextBytes

namespace SandboxHost

/-- Reasons that do not go away when more steps are taken. -/
def Lasting (why : List Step → Error → Prop) : Prop :=
  ∀ steps steps' e, why steps e → steps <:+: steps' → why steps' e

/-- Why nothing could be sent to the guest, where blocks of these sizes were wanted: there is no
allocator, it failed or gave no block, or what was to be written did not fit into memory. -/
inductive Unsent (m : Module) (sizes : List Nat) (steps : List Step) : Error → Prop where
  | noAllocator : Missed m Guest.allocator steps → Unsent m sizes steps (.notFound Guest.allocator)
  | tooLarge (size : Nat) : size ∈ sizes → 0x7fffffff < size →
    Unsent m sizes steps (.outOfMemory size)
  | allocation (f : Nat) (args : List Value) (e : Error) (s s' : State) (t : Trace) :
    ⟨.call .allocate f args, .error e, s, s', t⟩ ∈ steps → Unsent m sizes steps e
  | noBlock (size f : Nat) (results : List Value) (s s' : State) (t : Trace) : size ∈ sizes →
    ⟨.call .allocate f [.i32 size.toUInt32], .ok results, s, s', t⟩ ∈ steps →
    (∀ address, results.head? = some (.i32 address) → address = 0) →
    Unsent m sizes steps (.outOfMemory size)
  | noRoom (address : Nat) (bytes : List UInt8) (s s' : State) (t : Trace) :
    ⟨.write address bytes, false, s, s', t⟩ ∈ steps →
    Unsent m sizes steps (.outOfBounds address bytes.length)

theorem Unsent.lasting (m : Module) (sizes : List Nat) : Lasting (Unsent m sizes) := by
  intro steps steps' e h hsteps
  have hsubset := hsteps.subset
  cases h with
  | noAllocator hmissed => exact .noAllocator (hmissed.mono hsteps)
  | tooLarge size hsize hlarge => exact .tooLarge size hsize hlarge
  | allocation f args e s s' t hmem => exact .allocation f args e s s' t (hsubset hmem)
  | noBlock size f results s s' t hsize hmem hnone =>
    exact .noBlock size f results s s' t hsize (hsubset hmem) hnone
  | noRoom address bytes s s' t hmem => exact .noRoom address bytes s s' t (hsubset hmem)

theorem Unsent.mono {m : Module} {sizes sizes' : List Nat} {steps : List Step} {e : Error}
    (h : Unsent m sizes steps e) (hsizes : sizes ⊆ sizes') : Unsent m sizes' steps e := by
  cases h with
  | noAllocator hmissed => exact .noAllocator hmissed
  | tooLarge size hsize hlarge => exact .tooLarge size (hsizes hsize) hlarge
  | allocation f args e s s' t hmem => exact .allocation f args e s s' t hmem
  | noBlock size f results s s' t hsize hmem hnone =>
    exact .noBlock size f results s s' t (hsizes hsize) hmem hnone
  | noRoom address bytes s s' t hmem => exact .noRoom address bytes s s' t hmem

namespace Guest

theorem length_row (addresses : List UInt32) :
    (addresses.flatMap Memory.wordBytes).length = 4 * addresses.length := by
  induction addresses with
  | nil => rfl
  | cons address rest ih =>
    rw [List.flatMap_cons, List.length_append, ih, List.length_cons]
    show 4 + _ = _
    omega

/-- How large the blocks are that a text, a list or neither takes. -/
def blockSizes (small : Nat) : Option StringArg → List Nat
  | none => []
  | some (.one text) =>
    [if text.utf8ByteSize < small then small else text.utf8ByteSize + 1]
  | some (.many texts) => texts.map (·.utf8ByteSize + 1) ++ [4 * texts.length]

/-- How many words stand for a text, a list or neither. -/
def pointerCount : Option StringArg → Nat
  | none => 0
  | some (.one _) => 1
  | some (.many _) => 2

/-- Why a function is not entered although it was found: what goes before the numbers could not be
sent, or the arguments are not what the function takes. -/
inductive Unready (setup : Setup) (f : Nat) (arg : Option StringArg) (extra : List Int64)
    (steps : List Step) (e : Error) : Prop where
  | unsent : Unsent setup.module (blockSizes setup.smallStringSize arg) steps e →
    Unready setup f arg extra steps e
  | misfit (pointers : List UInt32) : pointers.length = pointerCount arg →
    arguments ((setup.module.funcType? f).elim [] (·.params)) pointers extra = .error e →
    Unready setup f arg extra steps e

theorem Unready.lasting (setup : Setup) (f : Nat) (arg : Option StringArg) (extra : List Int64) :
    Lasting (Unready setup f arg extra) := by
  intro steps steps' e h hsteps
  cases h with
  | unsent h => exact .unsent (Unsent.lasting _ _ _ _ e h hsteps)
  | misfit pointers hcount hmisfit => exact .misfit pointers hcount hmisfit

/-- Why a call fails before it enters a function. -/
inductive Refusal (setup : Setup) (name : String) (arg : Option StringArg) (extra : List Int64)
    (steps : List Step) : Error → Prop where
  | missed : Missed setup.module name steps → Refusal setup name arg extra steps (.notFound name)
  | unready (f : Nat) {e : Error} : Found setup.module name steps f →
    Unready setup f arg extra steps e → Refusal setup name arg extra steps e

theorem Refusal.lasting (setup : Setup) (name : String) (arg : Option StringArg)
    (extra : List Int64) : Lasting (Refusal setup name arg extra) := by
  intro steps steps' e h hsteps
  cases h with
  | missed hmissed => exact .missed (hmissed.mono hsteps)
  | unready f hfound hunready =>
    exact .unready f (hfound.mono hsteps) (Unready.lasting _ _ _ _ _ _ e hunready hsteps)

/-- Whenever the action fails, its steps show one of these reasons. -/
def Shows (m : Machine) (call : Callee) (why : List Step → Error → Prop) {α : Type}
    (a : Action α) : Prop :=
  ∀ s, m.Records call a.run s fun steps r _ => ∀ e, r = .error e → why steps e

section

variable {m : Machine} {call : Callee} {why : List Step → Error → Prop} {α β : Type}

theorem shows_pure (x : α) : Shows m call why (pure x) := fun _ => Machine.records_done.mpr nofun

theorem shows_bind (hwhy : Lasting why) {a : Action α} {f : α → Action β}
    (ha : Shows m call why a) (hf : ∀ x, Shows m call why (f x)) : Shows m call why (a >>= f) := by
  intro s
  refine Action.records_bind.mpr ((ha s).mono fun steps r s₁ hr => ?_)
  cases r with
  | error e =>
    rintro _ ⟨⟩
    exact hr e rfl
  | ok x =>
    exact (hf x s₁).mono fun _ _ _ h e he => hwhy _ _ e (h e he) (List.suffix_append _ _).isInfix

theorem shows_lift_bind (hwhy : Lasting why) {p : Program α} {f : α → Action β}
    (hf : ∀ x, Shows m call why (f x)) : Shows m call why (liftM p >>= f) := by
  intro s
  rw [Action.run_lift_bind, Machine.records_bind]
  intro steps x s₁ _
  exact (hf x s₁).mono fun _ _ _ h e he => hwhy _ _ e (h e he) (List.suffix_append _ _).isInfix

theorem shows_setup_bind (hwhy : Lasting why) {f : Setup → Action β}
    (hf : Shows m call why (f m.setup)) : Shows m call why (liftM Program.setup >>= f) := by
  intro s
  rw [Action.run_lift_bind]
  refine Machine.records_op rfl ((hf s).mono fun _ _ _ h e he => ?_)
  exact hwhy _ _ e (h e he) (List.suffix_cons _ _).isInfix

theorem Shows.mono {why' : List Step → Error → Prop} {a : Action α} (ha : Shows m call why a)
    (h : ∀ steps e, why steps e → why' steps e) : Shows m call why' a :=
  fun s => (ha s).mono fun steps _ _ hr e he => h steps e (hr e he)

theorem shows_allocate (size : Nat) :
    Shows m call (Unsent m.setup.module [size]) (allocate size) := by
  refine shows_bind (Unsent.lasting _ _) (fun s => ?_) fun f => ?_
  · refine (records_function allocator s).mono fun steps r _ hsought e he => ?_
    subst he
    cases hsought with
    | missed _ _ hmissed => exact .noAllocator hmissed
  · refine fun s => Action.records_guard (fun hlarge => ?_) fun _ => ?_
    · rintro _ ⟨⟩
      exact .tooLarge size (.head _) hlarge
    · rw [Action.records_bind, records_callRaw]
      intro t returned s' _
      cases returned with
      | error e =>
        rintro _ ⟨⟩
        exact .allocation f _ e s s' t (.head _)
      | ok results =>
        -- The call went well, but what it gave is no address, or the null one.
        have hnone (h : ∀ address, results.head? = some (.i32 address) → address = 0) :
            Unsent m.setup.module [size]
              [⟨.call .allocate f [.i32 size.toUInt32], .ok results, s, s', t⟩]
              (.outOfMemory size) :=
          .noBlock size f results s s' t (.head _) (.head _) h
        dsimp only [Except.map]
        split
        · next address hhead =>
          split
          · next hnull =>
            refine Machine.records_done.mpr ?_
            rintro _ ⟨⟩
            refine hnone fun address' haddress' => ?_
            cases hhead.symm.trans haddress'
            exact hnull
          · exact Machine.records_done.mpr nofun
        · next hother =>
          refine Machine.records_done.mpr ?_
          rintro _ ⟨⟩
          exact hnone fun address haddress => (hother address haddress).elim

theorem shows_writeMemory (sizes : List Nat) (address : UInt32) (bytes : List UInt8) :
    Shows m call (Unsent m.setup.module sizes) (writeMemory address bytes) := by
  intro s
  rw [writeMemory, Action.run_lift_bind]
  refine Machine.records_step.mpr fun t done s₁ _ => ?_
  cases done with
  | true => exact Machine.records_done.mpr nofun
  | false =>
    refine Machine.records_done.mpr ?_
    rintro _ ⟨⟩
    exact .noRoom address.toNat bytes s s₁ t (.head _)

theorem shows_writeCString (sizes : List Nat) (address : UInt32) (text : String) :
    Shows m call (Unsent m.setup.module sizes) (writeCString address text) :=
  shows_bind (Unsent.lasting _ _) (shows_writeMemory _ _ _) fun _ => shows_writeMemory _ _ _

/-- The reason is not lost when the block is given back. -/
theorem shows_send (bytes : List UInt8) :
    Shows m call (Unsent m.setup.module [bytes.length]) (send bytes) := by
  refine shows_bind (Unsent.lasting _ _) (shows_allocate _) fun address s => ?_
  rw [Action.run_attempt_bind, Machine.records_bind]
  refine (shows_writeMemory [bytes.length] address bytes s).mono fun steps written s₁ hwritten => ?_
  cases written with
  | ok _ => exact Machine.records_done.mpr nofun
  | error e =>
    dsimp only
    rw [Action.run_attempt_bind, Machine.records_bind]
    intro steps' released s₂ _
    refine Machine.records_done.mpr ?_
    rintro _ ⟨⟩
    exact Unsent.lasting _ _ _ _ e (hwritten e rfl) (List.prefix_append _ _).isInfix

theorem shows_sendText (text : String) :
    Shows m call (Unsent m.setup.module [text.utf8ByteSize + 1]) (sendString text none) := by
  have h : Shows m call _ _ := shows_send (Utf8.encode text ++ [0])
  rwa [List.length_append, Utf8.length_encode] at h

theorem shows_scratch :
    Shows m call (Unsent m.setup.module [m.setup.smallStringSize]) scratch := by
  refine shows_lift_bind (Unsent.lasting _ _) fun host => ?_
  split
  · exact shows_pure _
  · refine shows_setup_bind (Unsent.lasting _ _) ?_
    refine shows_bind (Unsent.lasting _ _) (shows_allocate _) fun address => ?_
    exact shows_lift_bind (Unsent.lasting _ _) fun _ => shows_pure _

theorem shows_argumentsFor {arg : Option StringArg} {pointers : List UInt32}
    (hcount : pointers.length = pointerCount arg) (f : Nat) (extra : List Int64) :
    Shows m call (Unready m.setup f arg extra) (argumentsFor f pointers extra) :=
  shows_setup_bind (Unready.lasting _ _ _ _) fun _ =>
    Machine.records_done.mpr fun _ => .misfit pointers hcount

end

namespace Scope

def Shows (m : Machine) (call : Callee) (why : List Step → Error → Prop) {α : Type}
    (body : Scope α) : Prop :=
  ∀ tracked s, m.Records call (body.run.run tracked) s fun steps x _ =>
    ∀ e, x.1 = .error e → why steps e

variable {m : Machine} {call : Callee} {why : List Step → Error → Prop} {α β : Type}

theorem shows_pure (x : α) : Shows m call why (pure x) :=
  fun _ _ => Machine.records_done.mpr nofun

theorem shows_bind (hwhy : Lasting why) {body : Scope α} {f : α → Scope β}
    (hbody : Shows m call why body) (hf : ∀ x, Shows m call why (f x)) :
    Shows m call why (body >>= f) := by
  intro tracked s
  rw [run_bind, Machine.records_bind]
  refine (hbody tracked s).mono fun steps x s₁ hx => ?_
  rcases x with ⟨e | a, tracked'⟩
  · refine Machine.records_done.mpr ?_
    rintro _ ⟨⟩
    rw [List.append_nil]
    exact hx e rfl
  · exact (hf a tracked' s₁).mono fun _ _ _ h e he =>
      hwhy _ _ e (h e he) (List.suffix_append _ _).isInfix

theorem shows_lift {a : Action α} (ha : Guest.Shows m call why a) :
    Shows m call why (liftM a) := by
  intro tracked s
  refine Machine.records_bind.mpr ((ha s).mono fun steps r s₁ hr => Machine.records_done.mpr ?_)
  rw [List.append_nil]
  exact hr

theorem shows_track (address : UInt32) : Shows m call why (track address) :=
  fun _ _ => Machine.records_done.mpr nofun

theorem Shows.mono {why' : List Step → Error → Prop} {body : Scope α}
    (hbody : Shows m call why body) (h : ∀ steps e, why steps e → why' steps e) :
    Shows m call why' body :=
  fun tracked s => (hbody tracked s).mono fun steps _ _ hx e he => h steps e (hx e he)

theorem shows_sendEach (texts : List String) :
    Shows m call (Unsent m.setup.module (texts.map (·.utf8ByteSize + 1))) (sendEach texts) := by
  induction texts with
  | nil => exact shows_pure _
  | cons text rest ih =>
    have hwhy := Unsent.lasting m.setup.module ((text :: rest).map (·.utf8ByteSize + 1))
    refine shows_bind hwhy (shows_lift ((shows_sendText text).mono fun _ _ h => ?_)) fun _ => ?_
    · exact h.mono (List.cons_subset_cons _ (List.nil_subset _))
    · refine shows_bind hwhy (shows_track _) fun address => ?_
      refine shows_bind hwhy (ih.mono fun _ _ h => ?_) fun _ => shows_pure _
      exact h.mono (List.subset_cons_self _ _)

theorem shows_sendStrings (small : Nat) (texts : List String) :
    Shows m call (Unsent m.setup.module (blockSizes small (some (.many texts))))
      (sendStrings texts) := by
  have hwhy := Unsent.lasting m.setup.module (blockSizes small (some (.many texts)))
  unfold sendStrings
  split
  · exact shows_pure _
  · intro tracked s
    rw [run_bind, Machine.records_bind]
    intro steps x s₁ htakes
    have hsent := shows_sendEach texts tracked s steps x s₁ htakes
    have hnoted := records_sendEach_noted texts tracked s steps x s₁ htakes
    rcases x with ⟨e | addresses, tracked₁⟩
    · refine Machine.records_done.mpr ?_
      rintro _ ⟨⟩
      rw [List.append_nil]
      exact (hsent e rfl).mono (List.subset_append_left _ _)
    · have hrow : Shows m call (Unsent m.setup.module (blockSizes small (some (.many texts))))
          (do track (← (liftM (send (addresses.flatMap Memory.wordBytes)) : Scope UInt32))) := by
        refine shows_bind hwhy (shows_lift ((shows_send _).mono fun _ _ h => ?_)) fun _ =>
          shows_track _
        rw [length_row, (hnoted addresses rfl).2] at h
        exact h.mono (List.subset_append_right _ _)
      exact (hrow tracked₁ s₁).mono fun _ _ _ h e he =>
        hwhy _ _ e (h e he) (List.suffix_append _ _).isInfix

end Scope

end Guest

end SandboxHost

import SandboxHost.Proofs.Entering
import SandboxHost.Proofs.Instances
import SandboxHost.Proofs.Resolution
import SandboxHost.Proofs.StaleState

namespace SandboxHost

theorem Machine.frame_of_call {m : Machine} {depth hostDepth : Nat} {caller : Caller} {f : Nat}
    {args : List Value} {s s' : State} {t : Trace} {r : Except Error (List Value)}
    (h : ((m.callFunction depth hostDepth caller f args).run.run s).Ends t (r, s')) :
    m.Frame s s' := by
  -- What a call keeps is known of it beside another, so it is put beside itself.
  obtain ⟨_, -, htwin⟩ := (m.callFunction_pairs depth hostDepth caller f args true s s
    (.refl true s)).ends h
  exact htwin.frame

/-- How the guest's function for its constants came out in the step, and the state that it left. -/
def Step.fetched? : Step → Option (Except Error (List Value) × State)
  | ⟨.call .constants _ _, outcome, _, after, _⟩ => some (outcome, after)
  | _ => none

def fetched? (steps : List Step) : Option (Except Error (List Value) × State) :=
  steps.findSome? Step.fetched?

/-- The kinds of errors that are taken to say that there is no table. -/
def Error.DeniesTable : Error → Prop
  | .notFound _ | .notAvailable _ => True
  | _ => False

/-- The name that was looked for in vain, if that is how it came out. -/
def vainName? {α : Type} : Except Error α → Option String
  | .ok _ => none
  | .error (.notFound name) => some name
  | .error _ => none

theorem eq_of_vainName? {α : Type} {r : Except Error α} {name : String}
    (h : vainName? r = some name) : r = .error (.notFound name) := by
  unfold vainName? at h
  split at h
  · cases h
  · cases h
    rfl
  · cases h

namespace Guest

def tableAt (memory : Memory) (address : UInt32) : Except Error Constants :=
  Syscall.textAt memory address >>= Constants.parse

/-- The address that a function returned, or zero if its first result is none. -/
def returnedAddress (results : List Value) : UInt32 :=
  match results.head? with
  | some (.i32 address) => address
  | _ => 0

/-- The guest has no table: it has no function for it, or one that returns no address. -/
def LacksTable : Option (Except Error (List Value) × State) → Prop
  | none => True
  | some (.ok results, _) => returnedAddress results = 0
  | some (.error _, _) => False

def tableFrom (memory : Memory) (address : UInt32) : Except Error Constants :=
  if address = 0 then .error .noConstants else tableAt memory address

def fetchedTable : Option (Except Error (List Value) × State) → Except Error Constants
  | none => .error (.notFound constantsExport)
  | some (.error e, _) => .error e
  | some (.ok results, s) => tableFrom s.memory (returnedAddress results)

/-- What binding makes of the function for the constants. -/
structure JudgesTable (module : Module) (steps : List Step) (outcome : Except Error Unit)
    (constants : Option Constants) : Prop where
  entered : fetched? steps = none ↔ resolved? module constantsExport steps = none
  /-- An error may deny that there is a table, whether or not the function had to do with it. -/
  without : outcome = .ok () ∧ constants = none ↔
    LacksTable (fetched? steps) ∨ ∃ e s, fetched? steps = some (.error e, s) ∧ e.DeniesTable
  fails (e : Error) (s : State) :
    fetched? steps = some (.error e, s) → ¬ e.DeniesTable → outcome = .error e
  table (results : List Value) (s : State) :
    fetched? steps = some (.ok results, s) → returnedAddress results ≠ 0 →
      outcome.map (fun _ => constants) = (tableAt s.memory (returnedAddress results)).map some

section

variable {m : Machine} {call : Callee}

theorem fetched?_eq_none {steps : List Step} (h : ∀ x ∈ steps, x.fetched? = none) :
    fetched? steps = none := List.findSome?_eq_none_iff.mpr h

theorem fetched?_append_left {steps steps' : List Step} (h : ∀ x ∈ steps, x.fetched? = none) :
    fetched? (steps ++ steps') = fetched? steps' := by
  have hnone : steps.findSome? Step.fetched? = none := fetched?_eq_none h
  rw [fetched?, List.findSome?_append, hnone, Option.none_or]
  rfl

theorem fetched?_of_seeks {x : Step} {name : String} (h : x.op.Seeks name) :
    x.fetched? = none := by
  unfold Step.fetched?
  split
  · exact h.elim
  · rfl

theorem records_tableAt (address : UInt32) (s : State) :
    m.Records call (do
        let text ← readString address
        Action.ofExcept (Constants.parse text) : Action Constants).run s fun steps r _ =>
      (∀ x ∈ steps, x.op = .memory) ∧ r = tableAt s.memory address := by
  have hsteps : ∀ x ∈ [(⟨.memory, s.memory, s, s, []⟩ : Step)], x.op = .memory :=
    List.forall_mem_singleton.mpr rfl
  rw [readString, bind_assoc, Action.run_lift_bind]
  refine Machine.records_op rfl ?_
  unfold tableAt Syscall.textAt
  dsimp only
  split
  · exact Machine.records_done.mpr ⟨hsteps, rfl⟩
  · cases s.memory.cstring? address.toNat with
    | none => exact Machine.records_done.mpr ⟨hsteps, rfl⟩
    | some bytes => exact Machine.records_done.mpr ⟨hsteps, rfl⟩

theorem records_tableFrom (results : List Value) (s : State) :
    m.Records call (match results.head? with
      | some (.i32 address) => do
        if address = 0 then throw .noConstants
        Action.ofExcept (Constants.parse (← readString address))
      | _ => throw .noConstants : Action Constants).run s fun steps r _ =>
      (∀ x ∈ steps, x.op = .memory) ∧ r = tableFrom s.memory (returnedAddress results) := by
  have hnone {r : Except Error Constants} {address : UInt32} (haddress : address = 0)
      (hr : r = .error .noConstants) :
      (∀ x ∈ ([] : List Step), x.op = .memory) ∧ r = tableFrom s.memory address :=
    ⟨List.forall_mem_nil _, by rw [tableFrom, if_pos haddress, hr]⟩
  unfold returnedAddress
  split
  · next address _ =>
    refine Action.records_guard (fun hzero => hnone hzero rfl) fun hzero => ?_
    rw [tableFrom, if_neg hzero]
    exact records_tableAt address s
  · exact Machine.records_done.mpr (hnone rfl rfl)

theorem records_fetchConstants (s : State) :
    m.Records call fetchConstants.run s fun steps r _ => r = fetchedTable (fetched? steps) ∧
      (fetched? steps = none ↔ resolved? m.setup.module constantsExport steps = none) := by
  rw [fetchConstants, Action.records_bind]
  refine (records_function constantsExport s).mono fun steps r s₁ hsought => ?_
  cases hsought with
  | missed hseeks hnone _ =>
    have hunfetched := fetched?_eq_none fun x hx => fetched?_of_seeks (hseeks x hx)
    rw [hunfetched, hnone]
    exact ⟨rfl, iff_of_true rfl rfl⟩
  | found f hseeks hfound =>
    dsimp only
    rw [Action.records_bind, records_callRaw]
    intro t returned s₂ _
    generalize hx : (⟨.call .constants f [], returned, s₁, s₂, t⟩ : Step) = x
    -- Whatever comes after the call has no part in what is read off.
    have hlater (rest : List Step) (hrest : ∀ y ∈ rest, y.op = .memory) :
        fetched? (steps ++ (x :: rest)) = some (returned, s₂) ∧
          resolved? m.setup.module constantsExport (steps ++ (x :: rest)) = some f := by
      subst hx
      refine ⟨fetched?_append_left fun y hy => fetched?_of_seeks (hseeks y hy), ?_⟩
      rw [resolved?_append_right (List.forall_mem_cons.mpr ⟨id, fun y hy => ?_⟩), hfound]
      rw [hrest y hy]
      exact id
    have hresult (rest : List Step) (hrest : ∀ y ∈ rest, y.op = .memory)
        {r : Except Error Constants} (hr : r = fetchedTable (some (returned, s₂))) :
        r = fetchedTable (fetched? (steps ++ (x :: rest))) ∧
          (fetched? (steps ++ (x :: rest)) = none ↔
            resolved? m.setup.module constantsExport (steps ++ (x :: rest)) = none) := by
      obtain ⟨hfetched, hresolved⟩ := hlater rest hrest
      rw [hfetched, hresolved]
      exact ⟨hr, iff_of_false (by rintro ⟨⟩) (by rintro ⟨⟩)⟩
    cases returned with
    | error e => exact hresult [] (List.forall_mem_nil _) rfl
    | ok results =>
      exact (records_tableFrom results s₂).mono fun rest r _ hrest => hresult rest hrest.1 hrest.2

/-- Nothing but a table of its own denies that there is a table. -/
theorem not_deniesTable_tableAt {memory : Memory} {address : UInt32} {e : Error}
    (h : tableAt memory address = .error e) : ¬ e.DeniesTable := by
  have hparse {text : String} (hparse : Constants.parse text = .error e) : ¬ e.DeniesTable := by
    unfold Constants.parse Constants.ofLists at hparse
    split at hparse
    · split at hparse <;> cases hparse
      exact id
    · cases hparse
      exact id
  unfold tableAt Syscall.textAt at h
  split at h
  · cases h
    exact id
  · split at h
    · exact hparse h
    · cases h
      exact id

theorem Binding.records_bind_fetched (constants : Option Constants) (s : State) :
    m.Records call (Binding.bind ⟨false, constants⟩) s fun steps x _ =>
      (fetched? steps = none ↔ resolved? m.setup.module constantsExport steps = none) ∧
        x.2.map (fun _ => x.1.constants) = constantsOrNone (fetchedTable (fetched? steps)) ∧
        x.1.bound = true := by
  change m.Records call (fetchConstants.run.bind _) s _
  rw [Machine.records_bind]
  refine (records_fetchConstants s).mono ?_
  rintro steps r s₁ ⟨rfl, hentered⟩
  cases hmade : constantsOrNone (fetchedTable (fetched? steps)) with
  | ok c =>
    refine Machine.records_done.mpr ?_
    rw [List.append_nil]
    exact ⟨hentered, hmade.symm, rfl⟩
  | error e =>
    refine Machine.records_done.mpr ?_
    rw [List.append_nil]
    exact ⟨hentered, hmade.symm, rfl⟩

theorem fetched?_notes (steps : List Step) {before after : List Step}
    (hbefore : ∀ x ∈ before, x.op.IsNote) (hafter : ∀ x ∈ after, x.op.IsNote) :
    fetched? (before ++ (steps ++ after)) = fetched? steps ∧
      ∀ module name, resolved? module name (before ++ (steps ++ after)) =
        resolved? module name steps := by
  have hnote {x : Step} (h : x.op.IsNote) : x.fetched? = none := by
    unfold Step.fetched?
    split
    · exact h.elim
    · rfl
  refine ⟨?_, fun module name => ?_⟩
  · have hnone : after.findSome? Step.fetched? = none :=
      fetched?_eq_none fun x hx => hnote (hafter x hx)
    rw [fetched?_append_left fun x hx => hnote (hbefore x hx), fetched?, List.findSome?_append, hnone,
      Option.or_none]
    rfl
  · rw [resolved?_append_left fun x hx => (hbefore x hx).not_locates name,
      resolved?_append_right fun x hx => (hafter x hx).not_locates name]

theorem records_announce (s : State) : m.Records call announce s fun steps b _ =>
    (∀ x ∈ steps, x.op.IsNote) ∧ b = ⟨s.host.bound, s.host.constants⟩ := by
  refine Machine.records_op rfl (Machine.records_op rfl (Machine.records_done.mpr ⟨?_, rfl⟩))
  exact List.forall_mem_cons.mpr ⟨trivial, List.forall_mem_singleton.mpr trivial⟩

theorem Binding.records_keep (b : Binding) (s : State) : m.Records call b.keep s fun steps _ s' =>
    (∀ x ∈ steps, x.op.IsNote) ∧ s'.host.bound = b.bound ∧ s'.host.constants = b.constants := by
  refine Machine.records_modifyHost ⟨?_, rfl, rfl⟩
  exact List.forall_mem_cons.mpr ⟨trivial, List.forall_mem_singleton.mpr trivial⟩

theorem records_bind_fetched {s : State} (hb : s.host.bound = false) :
    m.Records call bind.run s fun steps outcome s' =>
      (fetched? steps = none ↔ resolved? m.setup.module constantsExport steps = none) ∧
        outcome.map (fun _ => s'.host.constants) =
          constantsOrNone (fetchedTable (fetched? steps)) ∧ s'.host.bound = true := by
  rw [run_bind, Machine.records_bind]
  refine (records_announce s).mono ?_
  rintro before b s₁ ⟨hbefore, rfl⟩
  rw [hb, Machine.records_bind]
  refine (Binding.records_bind_fetched _ s₁).mono ?_
  rintro steps x s₂ ⟨hentered, hgiven, hbound⟩
  rw [Machine.records_bind]
  refine (x.1.records_keep s₂).mono ?_
  rintro after _ s' ⟨hafter, hkept, hconstants⟩
  refine Machine.records_done.mpr ?_
  obtain ⟨hfetched, hresolved⟩ := fetched?_notes steps hbefore hafter
  rw [List.append_nil, hfetched, hresolved, hconstants]
  exact ⟨hentered, hgiven, hkept.trans hbound⟩

theorem constantsOrNone_eq_none {r : Except Error Constants} :
    constantsOrNone r = .ok none ↔ ∃ e, r = .error e ∧ e.DeniesTable := by
  constructor
  · intro h
    unfold constantsOrNone at h
    split at h
    · cases h
    · exact ⟨_, rfl, trivial⟩
    · exact ⟨_, rfl, trivial⟩
    · cases h
  · rintro ⟨e, rfl, hdenies⟩
    cases e with
    | notFound _ | notAvailable _ => rfl
    | _ => exact hdenies.elim

theorem constantsOrNone_of_not {r : Except Error Constants}
    (h : ∀ e, r = .error e → ¬ e.DeniesTable) : constantsOrNone r = r.map some := by
  cases r with
  | ok c => rfl
  | error e =>
    have hdenies := h e rfl
    cases e with
    | notFound _ | notAvailable _ => exact (hdenies trivial).elim
    | _ => rfl

/-- What is fetched denies that there is a table where the guest has none, and where an error does. -/
theorem fetchedTable_denies {fetched : Option (Except Error (List Value) × State)} :
    (∃ e, fetchedTable fetched = .error e ∧ e.DeniesTable) ↔
      LacksTable fetched ∨ ∃ e s, fetched = some (.error e, s) ∧ e.DeniesTable := by
  match fetched with
  | none => exact iff_of_true ⟨_, rfl, trivial⟩ (.inl trivial)
  | some (.error e, s) =>
    constructor
    · rintro ⟨_, ⟨⟩, hdenies⟩
      exact .inr ⟨e, s, rfl, hdenies⟩
    · rintro (hlacks | ⟨_, _, ⟨⟩, hdenies⟩)
      · exact hlacks.elim
      · exact ⟨e, rfl, hdenies⟩
  | some (.ok results, s) =>
    by_cases hzero : returnedAddress results = 0
    · exact iff_of_true ⟨.noConstants, if_pos hzero, trivial⟩ (.inl hzero)
    · refine iff_of_false ?_ ?_
      · rintro ⟨e, htable, hdenies⟩
        rw [fetchedTable, tableFrom, if_neg hzero] at htable
        exact not_deniesTable_tableAt htable hdenies
      · rintro (hlacks | ⟨_, _, ⟨⟩, _⟩)
        exact hzero hlacks

/-- What binding makes of how the function came out. -/
theorem records_bind_judges {s : State} (hb : s.host.bound = false) :
    m.Records call bind.run s fun steps outcome s' =>
      JudgesTable m.setup.module steps outcome s'.host.constants := by
  refine (records_bind_fetched hb).mono ?_
  rintro steps outcome s' ⟨hentered, hgiven, -⟩
  refine ⟨hentered, ?_, fun e s₁ hfetched hdenies => ?_, fun results s₁ hfetched hreturned => ?_⟩
  · rw [← fetchedTable_denies, ← constantsOrNone_eq_none, ← hgiven]
    cases outcome with
    | ok _ => simp [Except.map]
    | error e => exact iff_of_false (by rintro ⟨⟨⟩, -⟩) (by rintro ⟨⟩)
  · rw [hfetched, fetchedTable, constantsOrNone_of_not (by rintro _ ⟨⟩; exact hdenies)] at hgiven
    cases outcome with
    | ok _ => cases hgiven
    | error e' =>
      cases hgiven
      rfl
  · rw [hgiven, hfetched, fetchedTable, tableFrom, if_neg hreturned]
    exact constantsOrNone_of_not fun e => not_deniesTable_tableAt

end

end Guest

namespace Instantiation

variable {c : Config} {e : Embedding} {loaded : LoadedModule} {machine : Machine} {state : State}

theorem bound_of_started (hprepare : prepare c e loaded.module = .ok (machine, state)) {t : Trace}
    {s : State} (h : (started machine state loaded.module.start).Ends t (.ok s)) :
    s.host.bound = false := by
  obtain ⟨_, -, -, hhost⟩ := exists_targets_of_prepare hprepare
  have hbound : state.host.bound = false := by rw [hhost]
  unfold started runStart at h
  split at h
  · obtain ⟨t₁, ⟨r, s₁⟩, t₂, hcall, hrest, rfl⟩ := Dialogue.ends_bind.mp h
    have hframe : machine.Frame state s₁ := Machine.frame_of_call hcall
    cases r with
    | error e => cases hrest
    | ok results =>
      cases hrest
      exact hframe.bound.trans hbound
  · cases h
    exact hbound

/-- Once the start function has returned, instantiation comes out as binding does. -/
theorem ends_bound (hmemory : hasMemory loaded.module = true) {s : State} {t : Trace}
    {r : Except Error Instance} : (bound loaded machine (.ok s)).Ends t r ↔
      ∃ steps outcome s', machine.Takes machine.callFromOutside Guest.bind.run s steps outcome s' ∧
        (r = outcome.map fun _ => ⟨loaded.name, machine, s'⟩) ∧ t = steps.flatMap Step.trace := by
  have hact : bound loaded machine (.ok s) =
      (machine.perform machine.callFromOutside Guest.bind.run s).bind fun x =>
        .done (x.1.map fun _ => ⟨loaded.name, machine, x.2⟩) := by
    rw [bound, if_pos hmemory]
    exact Dialogue.bind_assoc _ _ _
  rw [hact, Dialogue.ends_bind]
  constructor
  · rintro ⟨t₁, ⟨outcome, s'⟩, t₂, hbind, hdone, rfl⟩
    cases hdone
    obtain ⟨steps, htakes, rfl⟩ := Machine.ends_perform.mp hbind
    exact ⟨steps, outcome, s', htakes, rfl, List.append_nil _⟩
  · rintro ⟨steps, outcome, s', htakes, rfl, rfl⟩
    exact ⟨_, (outcome, s'), [], Machine.ends_perform.mpr ⟨steps, htakes, rfl⟩, .done _,
      (List.append_nil _).symm⟩

/-- A module that can be prepared and has memory fails to start, or its instantiation comes out as
binding does. And binding accepts the guest as one without constants if it has no function for them or
one that returns no address, or if an error of a kind that says so came out of that function, whoever
raised it. All other errors that come out of it are those of the instantiation. -/
theorem instantiate_judges_table (c : Config) (e : Embedding) (loaded : LoadedModule)
    (machine : Machine) (state : State)
    (hprepare : prepare c e loaded.module = .ok (machine, state))
    (hmemory : hasMemory loaded.module = true) :
    (∀ t r, (instantiate c e loaded).Ends t r →
      (∃ t₀ fault, (started machine state loaded.module.start).Ends t₀ (.error fault) ∧
        r = .error (.engine fault)) ∨
      ∃ t₀ s₀, (started machine state loaded.module.start).Ends t₀ (.ok s₀) ∧
        ∃ steps outcome s',
          machine.Takes machine.callFromOutside Guest.bind.run s₀ steps outcome s' ∧
          r = outcome.map fun _ => ⟨loaded.name, machine, s'⟩) ∧
    ∀ t₀ s₀, (started machine state loaded.module.start).Ends t₀ (.ok s₀) →
      machine.Records machine.callFromOutside Guest.bind.run s₀ fun steps outcome s' =>
        Guest.JudgesTable loaded.module steps outcome s'.host.constants := by
  constructor
  · intro t r h
    rw [instantiate_of_prepare hprepare] at h
    obtain ⟨t₀, result, t₁, hstarted, hbound, -⟩ := Dialogue.ends_bind.mp h
    cases result with
    | error fault =>
      cases hbound
      exact .inl ⟨t₀, fault, hstarted, rfl⟩
    | ok s₀ =>
      obtain ⟨steps, outcome, s', htakes, hr, -⟩ := (ends_bound hmemory).mp hbound
      exact .inr ⟨t₀, s₀, hstarted, steps, outcome, s', htakes, hr⟩
  · intro t₀ s₀ hstarted
    obtain ⟨targets, -, rfl, -⟩ := exists_targets_of_prepare hprepare
    exact Guest.records_bind_judges (bound_of_started hprepare hstarted)

/-- A guest that has a table of one constant and may look for a library before it tells so. It has
nothing that opens one. -/
def teller (looks : Bool) : Module :=
  let word (w : UInt32) : Instr := .apply (.const (.i32 w)) []
  let look : Instr := .apply .drop [.call 0 [word 16]]
  { memory := some ⟨1, none, some Module.memoryExport, none⟩
    table := none
    globals := []
    data := [(16, Utf8.encode "lib" ++ [0]),
      (64, Utf8.encode "\x7b\"names\":[\"ESRCH\"],\"values\":[71]\x7d" ++ [0])]
    imports := #[⟨namespaceOfHandlers, Handler.system.name, ⟨[.i32], [.i32]⟩⟩]
    funcs := #[⟨⟨[], [.i32]⟩, [], if looks then [look, word 64] else [word 64]⟩]
    exports := [(Guest.constantsExport, 1)]
    start := none }

theorem exists_takes_of_check (m : Module) (e : Embedding)
    (check : List Step → Except Error Unit → State → Bool)
    (h : ((prepare .standard e m).toOption.any fun x =>
      (x.1.traced x.1.callFromOutside Request.unsupported Guest.bind.run x.2).any fun y =>
        check y.1 y.2.1 y.2.2) = true) :
    ∃ machine state, prepare .standard e m = .ok (machine, state) ∧ ∃ steps outcome s',
      machine.Takes machine.callFromOutside Guest.bind.run state steps outcome s' ∧
        check steps outcome s' = true := by
  obtain ⟨⟨machine, state⟩, hprepare, h⟩ := (Option.any_eq_true _ _).mp h
  obtain ⟨⟨steps, outcome, s'⟩, htraced, hcheck⟩ := (Option.any_eq_true _ _).mp h
  refine ⟨machine, state, ?_, steps, outcome, s', Machine.takes_of_traced htraced, hcheck⟩
  cases hprepared : prepare .standard e m with
  | error fault =>
    rw [hprepared] at hprepare
    cases hprepare
  | ok x =>
    rw [hprepared] at hprepare
    cases hprepare
    rfl

/-- Without looking for a library the guest is bound with its table. -/
theorem instantiate_judges_table_telling :
    let e : Embedding := { directoryExists := fun _ => true }
    ∃ machine state, prepare .standard e (teller false) = .ok (machine, state) ∧
      hasMemory (teller false) = true ∧
      (started machine state (teller false).start).Ends [] (.ok state) ∧
      ∃ steps outcome s',
        machine.Takes machine.callFromOutside Guest.bind.run state steps outcome s' ∧
        s'.host.constants = some ⟨[("ESRCH", 71)]⟩ ∧
        Guest.JudgesTable (teller false) steps outcome s'.host.constants := by
  intro e
  obtain ⟨machine, state, hprepare, steps, outcome, s', htakes, hcheck⟩ := exists_takes_of_check
    (teller false) e
    (fun _ _ s' => decide (s'.host.constants = some ⟨[("ESRCH", 71)]⟩))
    (by decide +kernel)
  obtain ⟨-, hjudges⟩ :=
    instantiate_judges_table .standard e ⟨"teller", teller false⟩ machine state hprepare rfl
  have hstarted : (started machine state (teller false).start).Ends [] (.ok state) := .done _
  exact ⟨machine, state, hprepare, rfl, hstarted, steps, outcome, s', htakes,
    of_decide_eq_true hcheck, hjudges [] state hstarted steps outcome s' htakes⟩

/-- A guest that has a table is taken for one that has none: while it is asked for the table it looks
for a library, and the error that ends its function is that nothing opens libraries. -/
theorem exists_table_overlooked :
    let e : Embedding := { directoryExists := fun _ => true }
    ∃ machine state, prepare .standard e (teller true) = .ok (machine, state) ∧
      ∃ steps s' s'', machine.Takes machine.callFromOutside Guest.bind.run state steps (.ok ()) s' ∧
        fetched? steps = some (.error (.notFound "dlopen"), s'') ∧ s'.host.constants = none ∧
        ∃ t, (instantiate .standard e ⟨"teller", teller true⟩).Ends t
          (.ok ⟨"teller", machine, s'⟩) := by
  intro e
  obtain ⟨machine, state, hprepare, steps, outcome, s', htakes, hcheck⟩ := exists_takes_of_check
    (teller true) e
    (fun steps outcome s' => outcome.isOk && decide (s'.host.constants = none) &&
      (fetched? steps).any fun x => vainName? x.1 == some "dlopen")
    (by decide +kernel)
  simp only [Bool.and_eq_true, decide_eq_true_eq] at hcheck
  obtain ⟨⟨hok, hnone⟩, hlooked⟩ := hcheck
  obtain ⟨⟨came, s''⟩, hfetched, hlooked⟩ := (Option.any_eq_true _ _).mp hlooked
  obtain rfl := eq_of_vainName? (beq_iff_eq.mp hlooked)
  cases outcome with
  | error _ => cases hok
  | ok _ =>
    refine ⟨machine, state, hprepare, steps, s', s'', htakes, hfetched, hnone,
      steps.flatMap Step.trace, ?_⟩
    rw [instantiate_of_prepare hprepare]
    exact (ends_bound rfl).mpr ⟨steps, _, s', htakes, rfl, rfl⟩

end Instantiation

end SandboxHost

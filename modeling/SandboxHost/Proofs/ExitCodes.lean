import SandboxHost.Proofs.LoadProtocol

namespace SandboxHost

def lastSet? (signals : List Signal) : Option Json := (signals.filterMap Signal.value?).getLast?

/-- The exit code of an entry point that returned a word and sent these signals. -/
def exitCode (w : UInt32) (signals : List Signal) : Int32 :=
  match lastSet? signals with
  | none => w.toInt32
  | some value => Int32.ofInt (value.toInt64?.getD 0)

/-- The numeric outcome of an entry point: an integer that was set last, or the word returned. -/
def numericOutcome (w : UInt32) (signals : List Signal) : Int32 :=
  match lastSet? signals with
  | some (.int n) => Int32.ofInt n
  | _ => w.toInt32

/-- Where nothing is set that is no integer of 64 bits, the exit code is the numeric outcome. -/
theorem exitCode_eq {w : UInt32} {signals : List Signal}
    (h : ∀ value, lastSet? signals = some value → value.toInt64?.isSome) :
    exitCode w signals = numericOutcome w signals := by
  unfold exitCode numericOutcome
  cases hset : lastSet? signals with
  | none => rfl
  | some value =>
    have hvalue := h value hset
    cases value with
    | int n =>
      unfold Json.toInt64? at hvalue ⊢
      dsimp only at hvalue ⊢
      split
      · rfl
      · next hout =>
        rw [if_neg hout] at hvalue
        cases hvalue
    | _ => cases hvalue

theorem toInt64?_toJson (w : UInt32) : (Value.i32 w).toJson.toInt64? = some w.toInt32.toInt := by
  have hlower := w.toInt32.le_toInt
  have hupper := w.toInt32.toInt_lt
  have hrange : Json.minInt64 ≤ w.toInt32.toInt ∧ w.toInt32.toInt ≤ Json.maxInt64 := by
    unfold Json.minInt64 Json.maxInt64
    omega
  exact if_pos hrange

namespace Step

/-- The word that the entry point returned and the signals it sent, if it raised no exception. -/
def returned? : Step → Option (UInt32 × List Signal)
  | ⟨.call (.entry name) _ _, .ok (.i32 w :: _), _, _, t⟩ =>
    if name = Guest.entryPoint ∧ t.signals.any Signal.isException = false then some (w, t.signals)
    else none
  | _ => none

variable {x : Step} {w : UInt32} {signals : List Signal}

theorem exited?_of_returned? (h : x.returned? = some (w, signals)) :
    x.exited? = some (exitCode w signals) := by
  unfold returned? at h
  split at h
  · next name f args w' results s s' t =>
    split at h
    · next hname =>
      cases h
      obtain ⟨hname, hraised⟩ := hname
      rw [exited?, output?, if_pos hname, promised, hraised]
      unfold exitCode lastSet?
      cases (t.signals.filterMap Signal.value?).getLast? with
      | none =>
        change some (Int32.ofInt ((Value.i32 w).toJson.toInt64?.getD 0)) = some w.toInt32
        rw [toInt64?_toJson, Option.getD_some, Int32.ofInt_toInt]
      | some value => rfl
    · cases h
  · cases h

theorem returned?_of_purpose (h : x.op.purpose? ≠ some (.entry Guest.entryPoint)) :
    x.returned? = none := by
  cases hx : x.returned? with
  | none => rfl
  | some y => exact absurd (purpose?_of_exited? (exited?_of_returned? hx)) h

theorem isLoading_of_returned? (h : x.returned? = some (w, signals)) : x.op.isLoading := by
  unfold returned? at h
  split at h
  · rfl
  · cases h

theorem returned?_of_not (h : x.op.isLoading = false) : x.returned? = none := by
  cases hx : x.returned? with
  | none => rfl
  | some y =>
    rw [isLoading_of_returned? hx] at h
    cases h

end Step

/-- If the entry point returned a word, all that was given back afterwards could be given back, and
there is a function to close the library, then the run gives this exit code. -/
def Exits (code : UInt32 → List Signal → Int32) (module : Module) (steps : List Step)
    (r : Except Error Int32) : Prop :=
  ∀ before x after w signals, steps = before ++ x :: after → x.returned? = some (w, signals) →
    firstFailure after = none → resolved? module "dlclose" after ≠ none → r = .ok (code w signals)

namespace Exits

variable {code : UInt32 → List Signal → Int32} {module : Module} {steps steps' : List Step}
  {r : Except Error Int32}

theorem of_none (h : ∀ x ∈ steps, x.returned? = none) : Exits code module steps r := by
  rintro before x after w signals rfl hx
  rw [h x (List.mem_append_right _ (.head _))] at hx
  cases hx

theorem after (h : Exits code module steps' r) (hsteps : ∀ x ∈ steps, x.returned? = none) :
    Exits code module (steps ++ steps') r := by
  intro before x after w signals heq hx
  rcases append_eq_append_cons heq with ⟨rest, rfl, -⟩ | ⟨rest, -, hsteps'⟩
  · rw [hsteps x (List.mem_append_right _ (.head _))] at hx
    cases hx
  · exact h rest x after w signals hsteps' hx

theorem later (h : Exits code module steps r) (hsteps' : ∀ x ∈ steps', x.op.IsFraming) :
    Exits code module (steps ++ steps') r := by
  intro before x after w signals heq hx hfree hcloses
  rcases append_eq_append_cons heq with ⟨rest, hsteps, rfl⟩ | ⟨rest, -, rfl⟩
  · rw [firstFailure_append, Option.or_eq_none_iff] at hfree
    rw [resolved?_append_right fun y hy => (hsteps' y hy).not_locates _] at hcloses
    exact h before x rest w signals hsteps hx hfree.1 hcloses
  · have hframing := hsteps' x (List.mem_append_right _ (.head _))
    rw [Step.returned?_of_not hframing.isCalm.isLoading_eq] at hx
    cases hx

end Exits

namespace Guest

variable {m : Machine} {call : Callee} {s : State}

theorem records_elsewhere {α : Type} {p : Program α}
    (h : m.Meets call p s fun _ op _ => op.isLoading → op.purpose? ≠ some (.entry entryPoint)) :
    m.Records call p s fun steps _ _ => ∀ x ∈ steps, x.returned? = none := by
  intro steps a s' htakes x hx
  obtain ⟨before, after, hsteps⟩ := List.append_of_mem hx
  cases hload : x.op.isLoading with
  | false => exact Step.returned?_of_not hload
  | true => exact Step.returned?_of_purpose (h.records steps a s' htakes before x after hsteps hload)

theorem records_elsewhere_calm {α : Type} {R : α → Prop} {p : Program α} (hp : p.MadeOf Calm R)
    (s : State) : m.Records call p s fun steps _ _ => ∀ x ∈ steps, x.returned? = none :=
  (hp.sorted m call s).mono fun _ _ _ hsteps x hx => Step.returned?_of_not (hsteps x hx).isLoading_eq

theorem exits_bind {α : Type} {a : Action α} {f : α → Action Int32}
    (ha : m.Records call a.run s fun steps _ _ => ∀ x ∈ steps, x.returned? = none)
    (hf : ∀ y s₁, m.Records call (f y).run s₁ fun steps r _ =>
      Exits exitCode m.setup.module steps r) :
    m.Records call (a >>= f).run s fun steps r _ => Exits exitCode m.setup.module steps r := by
  refine Action.records_bind.mpr (ha.mono fun steps r s₁ hsteps => ?_)
  cases r with
  | error e => exact .of_none hsteps
  | ok y => exact (hf y s₁).mono fun _ _ _ h => h.after hsteps

theorem exits_lift_bind {α : Type} {R : α → Prop} {p : Program α} {f : α → Action Int32}
    (hp : p.MadeOf Calm R) (hf : ∀ y s₁, m.Records call (f y).run s₁ fun steps r _ =>
      Exits exitCode m.setup.module steps r) :
    m.Records call (liftM p >>= f).run s fun steps r _ => Exits exitCode m.setup.module steps r := by
  have hcalm : Action.MadeOf Calm (fun _ => True) (liftM p : Action α) := Action.madeOf_lift hp
  exact exits_bind (records_elsewhere_calm hcalm s) hf

theorem exits_pure (code : Int32) :
    m.Records call (pure code : Action Int32).run s fun steps r _ =>
      Exits exitCode m.setup.module steps r :=
  Machine.records_done.mpr (.of_none (List.forall_mem_nil _))

def Sparing : BlockKind := StepsOf (fun op => ¬ op.Locates "dlclose") fun _ => True

theorem Sparing.search {name : String} (hname : name ≠ "dlclose") :
    (function? name).MadeOf Sparing fun found => ∀ f, found = some f → True := by
  have hseek {op : Op} (hop : op.Seeks name) : ¬ op.Locates "dlclose" := by
    cases op with
    | setup | table _ => exact id
    | call purpose f args =>
      cases purpose with
      | accessor symbol => exact fun hcloser => hname (hop.symm.trans hcloser)
      | _ => exact hop.elim
    | _ => exact hop.elim
  exact (madeOf_seek hseek).weaken fun _ _ _ _ => trivial

theorem Sparing.callEntryPoint (main : Nat) (argv : List String) :
    Action.MadeOf Sparing (fun _ => True) (callEntryPoint main argv) := by
  have hrelease (address : UInt32) : Action.MadeOf Sparing (fun _ => True) (release address) := by
    have hgive := madeOf_giveBackBy coversHost_true (search (by decide)) address
      fun f _ => .op (.call _ _ _) id
    refine madeOf_releaseBy hgive fun r => ?_
    exact Program.madeOf_block (.op (.ask (.report (.released address r))) id)
  have hsend (bytes : List UInt8) : Action.MadeOf Sparing (fun _ => True) (send bytes) := by
    have hallocate := madeOf_allocateBy coversHost_true (search (by decide)) bytes.length
      fun f _ => .op (.call _ _ _) id
    exact madeOf_fill hallocate (fun _ => madeOf_write id) hrelease
  have hfresh : (Program.modifyHost HostState.fresh).MadeOf Sparing fun _ => True :=
    Program.madeOf_bind (Program.madeOf_block (.op .getHost id)) fun _ _ =>
      Program.madeOf_block (.op (.setHost _) id)
  have hinvoke (args : List Value) :
      Action.MadeOf Sparing (fun _ => True) (invoke entryPoint main args) :=
    madeOf_enter coversHost_true hfresh (.op .getHost id) (.op (.call _ _ _) id)
  refine madeOf_closing hrelease (Scope.Sends.of_send hsend ?_)
  exact .bind (sends_sendStrings argv) fun _ => .bind (.action (hinvoke _)) fun _ => .pure _

theorem eq_of_returned? {steps : List Step} {x y : Step} {w : UInt32} {signals : List Signal}
    (hload : loading steps = [y]) (hmem : x ∈ steps) (hx : x.returned? = some (w, signals)) :
    y = x := by
  have hloading : x ∈ loading steps := List.mem_filter.mpr ⟨hmem, Step.isLoading_of_returned? hx⟩
  rw [hload] at hloading
  exact (List.mem_singleton.mp hloading).symm

/-- An entry point that returned and raised no exception fails only by what could not be given back
afterwards. -/
theorem firstFailure_of_phase {before after : List Step} {x : Step} {w : UInt32}
    {signals : List Signal} {e : Error} (hx : x.returned? = some (w, signals))
    (h : Phase Step.exited? (before ++ x :: after) (.error e))
    (hbefore : ∀ y ∈ before, y.op.IsCalm) : firstFailure after = some e := by
  have hmem : x ∈ before ++ x :: after := List.mem_append_right _ (.head _)
  rcases h.error e rfl with hno | ⟨y, hy, hnone | hfailure⟩
  · have hnot := loading_eq_nil.mp hno x hmem
    rw [Step.isLoading_of_returned? hx] at hnot
    cases hnot
  · rw [eq_of_returned? hy hmem hx, Step.exited?_of_returned? hx] at hnone
    cases hnone
  · have hentry : attempts [x] = [] := attempts_eq_nil
      (List.forall_mem_singleton.mpr (Op.attempt?_of_isLoading (Step.isLoading_of_returned? hx)))
    rw [firstFailure_append, firstFailure_eq_none (attempts_of_calm hbefore), Option.none_or,
      ← List.singleton_append, firstFailure_append, firstFailure_eq_none hentry,
      Option.none_or] at hfailure
    exact hfailure

section Load

variable (hgrow : growth.GovernsCallee call) (htrack : tracking.GovernsCallee call)

include hgrow htrack

theorem exits_closing (main : Nat) (argv : List String) (library : Int32) (s : State) :
    m.Records call (do closing library (← callEntryPoint main argv) : Action Int32).run s
      fun steps r _ => Exits exitCode m.setup.module steps r := by
  refine Action.records_bind.mpr fun steps r s₁ htakes => ?_
  have hphase := phase_callEntryPoint htrack main argv s steps r s₁ htakes
  have hseeks := (Sparing.callEntryPoint main argv).sorted m call s steps r s₁ htakes
  have hmeets := (meets_comes_enter hgrow main argv s).records steps r s₁ htakes
  cases r with
  | error e =>
    rintro before x after w signals rfl hx hfree -
    have hcalm := (hmeets before x after rfl (Step.isLoading_of_returned? hx)).1
    rw [firstFailure_of_phase hx hphase hcalm] at hfree
    cases hfree
  | ok code =>
    obtain ⟨y, hy, hcode, -⟩ := hphase.ok code rfl
    dsimp only [closing]
    rw [Action.run_lift_bind, Machine.records_bind]
    intro steps' found s₂ hsearch
    have hfound := records_resolved "dlclose" s₁ steps' found s₂ hsearch
    have hcalm := records_elsewhere_calm (madeOf_function? Calm.access.lookup "dlclose") s₁
      steps' found s₂ hsearch
    cases found with
    | none =>
      -- Blocks are given back without asking for that function, so the search tells.
      refine Machine.records_done.mpr ?_
      rw [List.append_nil]
      intro before x after w signals heq hx _ hcloses
      rcases append_eq_append_cons heq with ⟨rest, rfl, rfl⟩ | ⟨rest, -, rfl⟩
      · have hrest : ∀ z ∈ rest, ¬ z.op.Locates "dlclose" := fun z hz =>
          hseeks z (List.mem_append_right _ (.tail _ hz))
        rw [resolved?_append_left hrest, ← hfound] at hcloses
        exact absurd rfl hcloses
      · rw [hcalm x (List.mem_append_right _ (.head _))] at hx
        cases hx
    | some f =>
      rw [Action.run_attempt_bind, Machine.records_bind, records_callRaw]
      intro t returned s₃ _
      refine Machine.records_done.mpr ?_
      intro before x after w signals heq hx _ _
      have hmem := heq ▸ List.mem_append_right before (List.mem_cons_self (a := x) (l := after))
      simp only [List.append_nil, List.mem_append, List.mem_singleton] at hmem
      rcases hmem with hmem | hmem | rfl
      · rw [eq_of_returned? hy hmem hx, Step.exited?_of_returned? hx] at hcode
        rw [Option.some.inj hcode]
      · rw [hcalm x hmem] at hx
        cases hx
      · cases hx

theorem exits_entering (library : Int32) (argv : List String) (address : UInt32) (s : State) :
    m.Records call (entering library argv address).run s fun steps r _ =>
      Exits exitCode m.setup.module steps r := by
  unfold entering
  split
  · exact exits_pure 1
  · refine exits_lift_bind (Calm.locate address) fun main s₁ => ?_
    cases main with
    | none => exact exits_pure 1
    | some main => exact exits_closing hgrow htrack main argv library s₁

theorem exits_finding (argv : List String) (library : Int32) (s : State) :
    m.Records call (finding argv library).run s fun steps r _ =>
      Exits exitCode m.setup.module steps r := by
  refine exits_lift_bind (madeOf_function? Calm.access.lookup "dlsym") fun found s₁ => ?_
  cases found with
  | none => exact exits_pure 1
  | some findSymbol =>
    refine exits_bind (records_elsewhere ?_) fun address s₂ =>
      exits_entering hgrow htrack library argv address s₂
    refine (meets_comes_find findSymbol library s₁).mono fun steps op s' hcomes hop => ?_
    obtain ⟨-, symbol, rfl, -⟩ := hcomes hop
    exact nofun

theorem exits_loading (path : String) (argv : List String) (s : State) :
    m.Records call (loadAndExecute path argv).run s fun steps r _ =>
      Exits exitCode m.setup.module steps r := by
  rw [loadAndExecute_eq]
  refine exits_bind (records_elsewhere ?_) fun library s₁ => exits_finding hgrow htrack argv library s₁
  refine Action.meets_bind.mpr ⟨?_, fun _ _ _ _ output _ => Machine.meets_done _⟩
  refine (meets_comes_call "dlopen" path [] s).mono fun steps op s' hcomes hop => ?_
  obtain ⟨-, f, args, rfl, -⟩ := hcomes hop
  exact fun heq => absurd (Option.some.inj heq) (by decide)

end Load

/-- How a run of these arguments comes out whose entry point returned a word. -/
structure GivesExitCode (m : Machine) (call : Callee) (argv : List String) (s : State) : Prop where
  /-- After the entry point as after any other step, the run ends if the calls still to come end. -/
  ends {before : List Step} {x : Step} : m.Nears call (run argv).run s before x.op x.before →
    (m.performOp call x.op x.before).Ends x.trace (x.answer, x.after) →
    m.CallsEnd call (run argv).run s (before ++ [x]) →
    ∃ after r s', m.Takes call (run argv).run s (before ++ x :: after) r s'
  exits : m.Records call (run argv).run s fun steps r _ => Exits exitCode m.setup.module steps r
  /-- What counts is the numeric outcome, unless what was set last is no integer of 64 bits. -/
  numeric {w : UInt32} {signals : List Signal} :
    (∀ value, lastSet? signals = some value → value.toInt64?.isSome) →
    exitCode w signals = numericOutcome w signals

/-- At every depth of calls and from every state, a run whose entry point returned a word gives its
exit code, unless a block cannot be given back or there is nothing to close the library with. -/
theorem run_gives_exit_code (m : Machine) (depth hostDepth : Nat) (path : String)
    (rest : List String) (s : State) :
    GivesExitCode m (m.callFunction depth hostDepth .host) (path :: rest) s where
  ends hnears hx hcalls := hnears.exists_takes hx hcalls
  exits := by
    have hgrow := m.callFunction_grows depth hostDepth .host
    have htrack := m.callFunction_tracks depth hostDepth .host
    refine records_framed ((exits_loading hgrow htrack path (path :: rest) s).mono ?_)
    intro steps r _ hexits after s' hafter
    refine (hexits.after ?_).later hafter
    simp [preamble, Step.returned?]
  numeric := exitCode_eq

/-- A module that takes every library for the same one, whose entry point sets something and then
returns 7. -/
def setting (sets : Instr) : Module :=
  let word (w : UInt32) : Instr := .apply (.const (.i32 w)) []
  { memory := some ⟨1, none, some Module.memoryExport, none⟩
    table := some ⟨2, some Module.tableExport, [(1, 7)]⟩
    globals := []
    data := []
    imports := #[⟨Instantiation.namespaceOfHandlers, Callback.string.name, ⟨[.i32, .i32], []⟩⟩,
      ⟨Instantiation.namespaceOfHandlers, Callback.int.name, ⟨[.i64], []⟩⟩]
    funcs := #[⟨⟨[.i32], [.i32]⟩, [], [word 64]⟩, ⟨⟨[.i32], []⟩, [], []⟩,
      ⟨⟨[.i32], [.i32]⟩, [], [word 3]⟩, ⟨⟨[.i32, .i32], [.i32]⟩, [], [word 1]⟩,
      ⟨⟨[.i32], [.i32]⟩, [], [word 0]⟩, ⟨⟨[.i32, .i32], [.i32]⟩, [], [sets, word 7]⟩]
    exports := [(Guest.allocator, 2), (Guest.deallocator, 3), ("dlopen", 4), ("dlsym", 5),
      ("dlclose", 6)]
    start := none }

def settingMachine (sets : Instr) : Machine :=
  Instantiation.machine .standard { directoryExists := fun _ => true } (setting sets)
    #[.function (.ofCallback .string), .function (.ofCallback .int)]

def settingState : State :=
  { memory := .zeros 1
    table := #[none, some 7]
    globals := #[]
    fuel := none
    host := { bound := true } }

/-- Sets an integer of which 5 are the low 32 bits. -/
def setsInteger : Instr := .call 1 [.apply (.const (.i64 0x100000005)) []]

def setsText : Instr :=
  .call 0 [.apply (.const (.i32 8)) [], .apply (.const (.i32 0)) []]

theorem resolved?_setting (sets : Instr) (steps : List Step) :
    resolved? (setting sets) "dlclose" steps = some 6 := rfl

/-- In a run of this module in which all could be given back, the entry point decides. -/
theorem Exits.of_setting {sets : Instr} {code : UInt32 → List Signal → Int32} {steps : List Step}
    {r : Except Error Int32} {w : UInt32} {signals : List Signal}
    (h : Exits code (setting sets) steps r)
    (hreturned : steps.findSome? Step.returned? = some (w, signals))
    (hfree : firstFailure steps = none) : r = .ok (code w signals) := by
  obtain ⟨x, hmem, hx⟩ := List.exists_of_findSome?_eq_some hreturned
  obtain ⟨before, after, rfl⟩ := List.append_of_mem hmem
  rw [← List.singleton_append, ← List.append_assoc, firstFailure_append, Option.or_eq_none_iff]
    at hfree
  refine h before x after w signals rfl hx hfree.2 ?_
  rw [resolved?_setting]
  exact nofun

/-- Of an integer that is set, the low 32 bits are the exit code. -/
theorem run_gives_exit_code_set :
    let m := settingMachine setsInteger
    ∃ steps r s' signals,
      m.Takes (m.callFunction 20 10 .host) (run ["lib"]).run settingState steps r s' ∧
      steps.findSome? Step.returned? = some (7, signals) ∧ r = .ok 5 := by
  intro m
  have hrun : (m.traced (m.callFunction 20 10 .host) Request.unsupported (run ["lib"]).run
      settingState).any (fun x => (firstFailure x.1).isNone &&
        (x.1.findSome? Step.returned?).any fun y => y.1 == 7 && exitCode 7 y.2 == 5) = true := by
    decide +kernel
  obtain ⟨⟨steps, r, s'⟩, htraced, hchecked⟩ := (Option.any_eq_true _ _).mp hrun
  obtain ⟨hfree, hentry⟩ := (Bool.and_eq_true _ _).mp hchecked
  obtain ⟨⟨w, signals⟩, hreturned, hcode⟩ := (Option.any_eq_true _ _).mp hentry
  obtain ⟨hw, hcode⟩ := (Bool.and_eq_true _ _).mp hcode
  cases eq_of_beq hw
  have htakes := Machine.takes_of_traced htraced
  have hexits := (run_gives_exit_code m 20 10 "lib" [] settingState).exits steps r s' htakes
  have hr := Exits.of_setting hexits hreturned (Option.isNone_iff_eq_none.mp hfree)
  exact ⟨steps, r, s', signals, htakes, hreturned, hr.trans (congrArg _ (eq_of_beq hcode))⟩

/-- An entry point that sets a text and returns 7 is taken to have ended well. -/
theorem exists_exit_code_lost :
    let m := settingMachine setsText
    (∃ steps s' signals,
      m.Takes (m.callFunction 20 10 .host) (run ["lib"]).run settingState steps (.ok 0) s' ∧
      steps.findSome? Step.returned? = some (7, signals)) ∧
    ¬ m.Records (m.callFunction 20 10 .host) (run ["lib"]).run settingState fun steps r _ =>
      Exits numericOutcome m.setup.module steps r := by
  intro m
  have hrun : (m.traced (m.callFunction 20 10 .host) Request.unsupported (run ["lib"]).run
      settingState).any (fun x => (x.2.1.toOption == some 0 && (firstFailure x.1).isNone) &&
        (x.1.findSome? Step.returned?).any fun y => y.1 == 7 && numericOutcome 7 y.2 == 7) =
          true := by
    decide +kernel
  obtain ⟨⟨steps, r, s'⟩, htraced, hchecked⟩ := (Option.any_eq_true _ _).mp hrun
  obtain ⟨hended, hentry⟩ := (Bool.and_eq_true _ _).mp hchecked
  obtain ⟨hzero, hfree⟩ := (Bool.and_eq_true _ _).mp hended
  obtain ⟨⟨w, signals⟩, hreturned, hcode⟩ := (Option.any_eq_true _ _).mp hentry
  obtain ⟨hw, hcode⟩ := (Bool.and_eq_true _ _).mp hcode
  cases eq_of_beq hw
  have htakes := Machine.takes_of_traced htraced
  cases r with
  | error e => cases hzero
  | ok code =>
    cases eq_of_beq hzero
    refine ⟨⟨steps, s', signals, htakes, hreturned⟩, fun hexits => ?_⟩
    have hr := Exits.of_setting (hexits steps _ s' htakes) hreturned
      (Option.isNone_iff_eq_none.mp hfree)
    have hseven : numericOutcome 7 signals = 7 := eq_of_beq hcode
    exact absurd ((Except.ok.inj hr).trans hseven) (by decide)

end Guest

end SandboxHost

import Mathlib.Data.List.Induction
import SandboxHost.Proofs.LoadCalls

namespace SandboxHost

/-- Whether the host looks in the table for a bare address. -/
def Op.LooksUp : Op → Prop
  | .table none => True
  | _ => False

theorem Op.IsQuiet.not_looksUp {op : Op} (h : op.IsQuiet) : ¬ op.LooksUp := by
  intro hlook
  unfold LooksUp at hlook
  split at hlook
  · exact h
  · exact hlook

theorem Op.IsSend.not_looksUp {op : Op} (h : op.IsSend) : ¬ op.LooksUp := by
  intro hlook
  unfold LooksUp at hlook
  split at hlook
  · exact h
  · exact hlook

def Step.table? : Step → Option Table
  | ⟨.table none, _, before, _, _⟩ => some before.table
  | _ => none

def lookedUp (steps : List Step) : List Table := steps.filterMap Step.table?

section

variable {steps steps' : List Step}

@[simp] theorem lookedUp_append : lookedUp (steps ++ steps') = lookedUp steps ++ lookedUp steps' :=
  List.filterMap_append ..

theorem lookedUp_eq_nil (h : ∀ x ∈ steps, ¬ x.op.LooksUp) : lookedUp steps = [] := by
  refine List.filterMap_eq_nil_iff.mpr fun x hx => ?_
  unfold Step.table?
  split
  · exact (h _ hx trivial).elim
  · rfl

end

/-- After these calls the table was looked in, and this is how it was then. -/
def Looked (calls steps : List Step) (table : Table) : Prop :=
  ∃ before x after, steps = before ++ x :: after ∧ loading before = calls ∧ x.table? = some table

namespace Looked

variable {calls steps after : List Step} {table : Table}

theorem mem (h : Looked calls steps table) : table ∈ lookedUp steps := by
  obtain ⟨before, x, after, rfl, -, hx⟩ := h
  exact List.mem_filterMap.mpr ⟨x, List.mem_append_right _ (.head _), hx⟩

theorem append_right (h : Looked calls steps table) : Looked calls (steps ++ after) table := by
  obtain ⟨before, x, rest, rfl, hload, hx⟩ := h
  exact ⟨before, x, rest ++ after, by rw [List.append_assoc, List.cons_append], hload, hx⟩

theorem of_append (h : Looked calls (steps ++ after) table) (hafter : lookedUp after = []) :
    Looked calls steps table := by
  obtain ⟨before, x, rest, heq, hload, hx⟩ := h
  rcases List.append_eq_append_iff.mp heq with ⟨more, rfl, rfl⟩ | ⟨_ | ⟨y, more⟩, rfl, hmore⟩
  · have hmem : table ∈ lookedUp (more ++ x :: rest) :=
      List.mem_filterMap.mpr ⟨x, List.mem_append_right _ (.head _), hx⟩
    rw [hafter] at hmem
    cases hmem
  · rw [List.nil_append] at hmore
    have hmem : table ∈ lookedUp after := hmore ▸ List.mem_filterMap.mpr ⟨x, .head _, hx⟩
    rw [hafter] at hmem
    cases hmem
  · cases hmore
    exact ⟨before, x, more, rfl, hload, hx⟩

end Looked

/-- An address leads to no function: it is a null pointer, there is no table to look in, or the table
had none there when it was looked in after these calls. -/
inductive Dangling (module : Module) (calls steps : List Step) (address : UInt32) : Prop where
  | null : address = 0 → Dangling module calls steps address
  | noTable : module.callTable? = none → Dangling module calls steps address
  | noFunction (table : Table) : Looked calls steps table →
    table.function? address.toNat = none → Dangling module calls steps address

def Op.purpose? : Op → Option Purpose
  | .call purpose _ _ => some purpose
  | _ => none

@[simp] theorem Op.purpose?_call (purpose : Purpose) (f : Nat) (args : List Value) :
    (Op.call purpose f args).purpose? = some purpose := rfl

/-- Steps that a run takes before and after it loads the library: its marks, and those by which
memory and pointers are looked at and put back. -/
def Op.IsFraming : Op → Prop
  | .ask (.report (.runBegan _)) | .ask (.report .runEnded) | .memory | .restore _ => True
  | op => op.IsNote

namespace Op.IsFraming

variable {op : Op}

theorem isCalm (h : op.IsFraming) : op.IsCalm := by
  unfold IsFraming at h
  split at h
  · exact ⟨rfl, rfl⟩
  · exact ⟨rfl, rfl⟩
  · exact ⟨rfl, rfl⟩
  · exact ⟨rfl, rfl⟩
  · exact h.isCalm

theorem not_looksUp (h : op.IsFraming) : ¬ op.LooksUp := by
  intro hlook
  unfold Op.LooksUp at hlook
  split at hlook
  · exact h
  · exact hlook

theorem not_locates (h : op.IsFraming) (name : String) : ¬ op.Locates name := by
  unfold IsFraming at h
  split at h
  · exact id
  · exact id
  · exact id
  · exact id
  · exact h.not_locates name

end Op.IsFraming

namespace Step

variable {x : Step}

theorem purpose?_of_output? {name : String} {output : Json} (h : x.output? name = some output) :
    x.op.purpose? = some (.entry name) := by
  unfold output? at h
  split at h
  · split at h
    · next hname =>
      rw [← hname]
      rfl
    · cases h
  · cases h

theorem purpose?_of_opened? {library : Int32} (h : x.opened? = some library) :
    x.op.purpose? = some (.entry "dlopen") := by
  obtain ⟨output, houtput, -⟩ := Option.bind_eq_some_iff.mp h
  exact purpose?_of_output? houtput

theorem purpose?_of_found? {address : UInt32} (h : x.found? = some address) :
    x.op.purpose? = some .findSymbol := by
  unfold found? at h
  split at h
  · rfl
  · cases h

theorem purpose?_of_exited? {code : Int32} (h : x.exited? = some code) :
    x.op.purpose? = some (.entry Guest.entryPoint) := by
  obtain ⟨output, houtput, -⟩ := Option.map_eq_some_iff.mp h
  exact purpose?_of_output? houtput

end Step

namespace Guest

def loadOrder : List Purpose := [.entry "dlopen", .findSymbol, .entry entryPoint, .closeLibrary]

/-- The call that a run makes next, after the steps that it has taken from a state, and what it
passes in the memory as it is then. -/
inductive LoadCall (m : Machine) (path : String) (argv : List String) (s : State) (steps : List Step)
    (memory : Memory) : Op → Prop where
  | opens (f : Nat) (args : List Value) : loading steps = [] →
    Found m.setup.module "dlopen" steps f → args.length = 1 →
    (∀ past, Sourced m.setup.smallStringSize past s →
      TellsText m path past steps (.call (.entry "dlopen") f args) memory) →
    LoadCall m path argv s steps memory (.call (.entry "dlopen") f args)
  | finds (x : Step) (library : Int32) (f : Nat) (symbol : UInt32) : loading steps = [x] →
    x.opened? = some library → Found m.setup.module "dlsym" steps f →
    Packet.LiesIn ⟨symbol, Utf8.encode entryPoint ++ [0]⟩ memory →
    LoadCall m path argv s steps memory (.call .findSymbol f [.ofInt32 library, .i32 symbol])
  | enters (x y : Step) (library : Int32) (address array : UInt32) (table : Table) (main : Nat) :
    loading steps = [x, y] → x.opened? = some library → y.found? = some address → address ≠ 0 →
    Looked [x, y] steps table → table.function? address.toNat = some main →
    (Honest [] steps → ListPassed memory argv.length.toUInt32 array argv) →
    LoadCall m path argv s steps memory
      (.call (.entry entryPoint) main [.i32 argv.length.toUInt32, .i32 array])
  | closes (x y z : Step) (library code : Int32) (address : UInt32) (f : Nat) :
    loading steps = [x, y, z] → x.opened? = some library → y.found? = some address →
    z.exited? = some code → Found m.setup.module "dlclose" steps f →
    LoadCall m path argv s steps memory (.call .closeLibrary f [.ofInt32 library])

def loadPurposes (steps : List Step) : List Purpose := (loading steps).filterMap (·.op.purpose?)

theorem LoadCall.ordered {m : Machine} {path : String} {argv : List String} {s : State}
    {steps : List Step} {memory : Memory} {op : Op} (h : LoadCall m path argv s steps memory op) :
    loadPurposes steps ++ op.purpose?.toList <+: loadOrder := by
  unfold loadPurposes loadOrder
  cases h with
  | opens f args hload => simp [hload]
  | finds x library f symbol hload hopened =>
    simp [hload, Step.purpose?_of_opened? hopened]
  | enters x y library address array table main hload hopened hfound =>
    simp [hload, Step.purpose?_of_opened? hopened, Step.purpose?_of_found? hfound]
  | closes x y z library code address f hload hopened hfound hcode =>
    simp [hload, Step.purpose?_of_opened? hopened, Step.purpose?_of_found? hfound,
      Step.purpose?_of_exited? hcode]

/-- If such a call is next, it is that one. -/
def Proceeds (m : Machine) (path : String) (argv : List String) (s : State) (steps : List Step)
    (op : Op) (s' : State) : Prop := op.isLoading → LoadCall m path argv s steps s'.memory op

/-- After these calls, which went well, the next one cannot be made: there is no function for it. -/
inductive Blocked (module : Module) (steps : List Step) : List Step → Prop where
  | noFinder (x : Step) (library : Int32) : x.opened? = some library →
    resolved? module "dlsym" steps = none → Blocked module steps [x]
  | noEntryPoint (x y : Step) (address : UInt32) : y.found? = some address →
    Dangling module [x, y] steps address → Blocked module steps [x, y]
  | noCloser (x y z : Step) (code : Int32) : z.exited? = some code →
    resolved? module "dlclose" steps = none → Blocked module steps [x, y, z]

theorem Blocked.of_append {module : Module} {steps after calls : List Step}
    (h : Blocked module (steps ++ after) calls) (hafter : lookedUp after = []) :
    Blocked module steps calls := by
  have hsteps : steps <:+: steps ++ after := (List.prefix_append _ _).isInfix
  cases h with
  | noFinder x library hopened hnone =>
    exact .noFinder x library hopened (resolved?_eq_none hnone hsteps)
  | noEntryPoint x y address hfound hdangling =>
    refine .noEntryPoint x y address hfound ?_
    cases hdangling with
    | null hnull => exact .null hnull
    | noTable hnone => exact .noTable hnone
    | noFunction table hlooked hnone => exact .noFunction table (hlooked.of_append hafter) hnone
  | noCloser x y z code hcode hnone =>
    exact .noCloser x y z code hcode (resolved?_eq_none hnone hsteps)

/-- The last of these calls failed, or gave nothing that the next one could be made with. -/
inductive Failed : List Step → Prop where
  | opening (x : Step) : x.opened? = none → Failed [x]
  | finding (x y : Step) : y.found? = none → Failed [x, y]
  | entering (x y z : Step) : z.exited? = none → Failed [x, y, z]

/-- How a run ends, once these steps have been taken. -/
structure LoadOutcome (module : Module) (steps : List Step) (r : Except Error Int32) : Prop where
  /-- An exit code other than 1 is that of the entry point, which returned, and all calls were
  made. -/
  complete (code : Int32) : r = .ok code → code ≠ 1 →
    ∃ x y z w, loading steps = [x, y, z, w] ∧ z.exited? = some code
  /-- A run fails where the loader or the entry point does. -/
  failed : Failed (loading steps) → ∃ e, r = .error e
  /-- A run that cannot go on gives 1, unless a block cannot be given back. -/
  blocked : Blocked module steps (loading steps) → r = scopeOutcome (.ok 1) (firstFailure steps)
  /-- Once the library is to be closed, the exit code stands. -/
  closed (x y z w : Step) : loading steps = [x, y, z, w] →
    ∃ code, z.exited? = some code ∧ r = .ok code

def closing (library code : Int32) : Action Int32 := do
  let some closeLibrary ← function? "dlclose" | return 1
  let _ ← (callRaw .closeLibrary closeLibrary [.ofInt32 library]).attempt
  return code

def entering (library : Int32) (argv : List String) (address : UInt32) : Action Int32 := do
  if address = 0 then return 1
  let some main ← tableFunction? address | return 1
  closing library (← callEntryPoint main argv)

def finding (argv : List String) (library : Int32) : Action Int32 := do
  let some findSymbol ← function? "dlsym" | return 1
  entering library argv (← findEntryPoint findSymbol library)

theorem loadAndExecute_eq (path : String) (argv : List String) : loadAndExecute path argv = (do
    Action.ofExcept (asInt32 (← callWithString "dlopen" (.one path) []) "dlopen")) >>=
      finding argv := by
  rw [bind_assoc]
  rfl

/-- These calls have been made, the table was looked in as it was these times, and whatever was given
back could be. -/
structure Made (calls : List Step) (tables : List Table) (steps : List Step) : Prop where
  loading_eq : loading steps = calls
  lookedUp_eq : lookedUp steps = tables
  firstFailure_eq : firstFailure steps = none

namespace Made

variable {calls steps steps' : List Step} {tables : List Table}

theorem calm (h : Made calls tables steps) (hsteps : ∀ x ∈ steps', x.op.IsCalm) :
    Made calls (tables ++ lookedUp steps') (steps ++ steps') where
  loading_eq := by rw [loading_append, h.loading_eq, loading_of_calm hsteps, List.append_nil]
  lookedUp_eq := by rw [lookedUp_append, h.lookedUp_eq]
  firstFailure_eq := by
    rw [firstFailure_append, h.firstFailure_eq, firstFailure_eq_none (attempts_of_calm hsteps)]
    rfl

theorem phase (h : Made calls tables steps) {α : Type} {value? : Step → Option α} {a : α}
    (hphase : Phase value? steps' (.ok a)) (hlook : lookedUp steps' = []) :
    ∃ x, value? x = some a ∧ Made (calls ++ [x]) tables (steps ++ steps') := by
  obtain ⟨x, hx, hvalue, hnone⟩ := hphase.ok a rfl
  refine ⟨x, hvalue, by rw [loading_append, h.loading_eq, hx], ?_, ?_⟩
  · rw [lookedUp_append, h.lookedUp_eq, hlook, List.append_nil]
  · rw [firstFailure_append, h.firstFailure_eq, hnone]
    rfl

theorem looked (h : Made calls tables steps) (hsteps : ∀ x ∈ steps', x.op.IsCalm) {table : Table}
    (hmem : table ∈ lookedUp steps') : Looked calls (steps ++ steps') table := by
  obtain ⟨x, hx, htable⟩ := List.mem_filterMap.mp hmem
  obtain ⟨before, after, rfl⟩ := List.append_of_mem hx
  refine ⟨steps ++ before, x, after, (List.append_assoc ..).symm, ?_, htable⟩
  have hbefore := loading_of_calm fun y hy => hsteps y (List.mem_append_left _ hy)
  rw [loading_append, h.loading_eq, hbefore, List.append_nil]

end Made

namespace LoadOutcome

variable {module : Module} {calls steps : List Step} {tables : List Table} {r : Except Error Int32}

theorem one (hmade : Made calls tables steps) (hcalls : calls.length < 4) (hwell : ¬ Failed calls) :
    LoadOutcome module steps (.ok 1) where
  complete code hcode hne := absurd (Except.ok.inj hcode).symm hne
  failed hfailed := absurd (hmade.loading_eq ▸ hfailed) hwell
  blocked _ := by
    rw [hmade.firstFailure_eq]
    rfl
  closed x y z w hall := by
    rw [hmade.loading_eq] at hall
    rw [hall] at hcalls
    exact absurd hcalls (Nat.lt_irrefl 4)

/-- The library is to be closed, after the entry point gave its code. -/
theorem closes {x y z w : Step} {code : Int32} (hmade : Made [x, y, z] tables steps)
    (hw : w.op.isLoading) (hcode : z.exited? = some code) :
    LoadOutcome module (steps ++ [w]) (.ok code) := by
  have hload : loading (steps ++ [w]) = [x, y, z, w] := by
    rw [loading_append, hmade.loading_eq, show loading [w] = [w] from List.filter_cons_of_pos hw]
    rfl
  refine ⟨fun code' hcode' _ => ⟨x, y, z, w, hload, ?_⟩, fun hfailed => ?_, fun hblocked => ?_, ?_⟩
  · cases hcode'
    exact hcode
  · rw [hload] at hfailed
    nomatch hfailed
  · rw [hload] at hblocked
    nomatch hblocked
  · intro x' y' z' w' hload'
    cases hload.symm.trans hload'
    exact ⟨code, hcode, rfl⟩

theorem refused {e : Error} (hcalls : (loading steps).length < 4)
    (h : Blocked module steps (loading steps) → firstFailure steps = some e) :
    LoadOutcome module steps (.error e) where
  complete _ := nofun
  failed _ := ⟨e, rfl⟩
  blocked hblocked := by
    rw [h hblocked]
    rfl
  closed x y z w hall := by
    rw [hall] at hcalls
    exact absurd hcalls (Nat.lt_irrefl 4)

/-- In the part of a run that failed, the call was not made although it could be, or it failed, or a
block could not be given back. -/
theorem of_phase {α : Type} {value? : Step → Option α} {steps' : List Step} {e : Error}
    (h : Phase value? steps' (.error e)) (hmade : Made calls tables steps) (hcalls : calls.length < 3)
    (hready : ¬ Blocked module (steps ++ steps') calls)
    (hfailed : ∀ x, value? x = none → ¬ Blocked module (steps ++ steps') (calls ++ [x])) :
    LoadOutcome module (steps ++ steps') (.error e) := by
  have hload : loading (steps ++ steps') = calls ++ loading steps' := by
    rw [loading_append, hmade.loading_eq]
  rcases h.error e rfl with hno | ⟨x, hx, hvalue⟩
  · rw [hno, List.append_nil] at hload
    exact refused (by rw [hload]; omega) fun hblocked => absurd (hload ▸ hblocked) hready
  · rw [hx] at hload
    have hlength : (loading (steps ++ steps')).length < 4 := by
      rw [hload, List.length_append, List.length_singleton]
      omega
    rcases hvalue with hvalue | hfailure
    · exact refused hlength fun hblocked => absurd (hload ▸ hblocked) (hfailed x hvalue)
    · refine refused hlength fun _ => ?_
      rw [firstFailure_append, hmade.firstFailure_eq, hfailure]
      rfl

end LoadOutcome

abbrev Averted : BlockKind := StepsOf (¬ Op.LooksUp ·) fun _ => True

namespace Averted

theorem sends : Averted.Allows (fun _ => True) Op.IsSend :=
  StepsOf.allows Op.IsSend.not_looksUp trivial

theorem quiet : Averted.Allows (fun _ => True) Op.IsQuiet :=
  StepsOf.allows Op.IsQuiet.not_looksUp trivial

theorem modifyHost (f : HostState → HostState) :
    (Program.modifyHost f).MadeOf Averted fun _ => True :=
  Program.madeOf_bind (Program.madeOf_block (.op .getHost id)) fun _ _ =>
    Program.madeOf_block (.op (.setHost _) id)

theorem passes : Passes Averted fun _ => True where
  quiet := quiet
  scratch := madeOf_scratch (quiet.mono Op.IsAccess.isQuiet).lookup coversHost_true
    (fun _ => Program.madeOf_bind (Program.madeOf_block (.op .getHost id)) fun h _ => .done ⟨h, rfl⟩)
    (fun _ => modifyHost _) fun _ _ => .op _ id
  inScope h := madeOf_closing (madeOf_release (sends.mono Op.IsRelease.isSend) coversHost_true)
    (h.madeOf_sends sends coversHost_true)

theorem invoke (name : String) (f : Nat) (args : List Value) :
    Action.MadeOf Averted (fun _ => True) (invoke name f args) :=
  madeOf_enter coversHost_true (modifyHost _) (.op .getHost id) (.op (.call _ f args) id)

end Averted

section

variable {m : Machine} {call : Callee}

theorem lookedUp_of_averted {α : Type} {R : α → Prop} {p : Program α} (hp : p.MadeOf Averted R)
    (s : State) : m.Records call p s fun steps _ _ => lookedUp steps = [] :=
  (hp.sorted m call s).mono fun _ _ _ => lookedUp_eq_nil

theorem proceeds_of_not {path : String} {argv : List String} {s₀ s : State} {steps : List Step}
    {op : Op} (h : op.isLoading = false) : Proceeds m path argv s₀ steps op s := by
  intro hop
  rw [h] at hop
  cases hop

theorem records_tableFunction? (address : UInt32) (s : State) :
    m.Records call (tableFunction? address) s fun steps found _ => ∀ main, found = some main →
      m.setup.module.callTable? ≠ none ∧ lookedUp steps = [s.table] ∧
        s.table.function? address.toNat = some main := by
  refine Machine.records_op rfl ?_
  split
  · next htable =>
    refine Machine.records_op rfl (Machine.records_done.mpr fun main hmain => ?_)
    exact ⟨Option.isSome_iff_ne_none.mp htable, rfl, hmain⟩
  · exact Machine.records_done.mpr nofun

theorem records_search (name : String) (s : State) :
    m.Records call (function? name) s fun steps found _ =>
      lookedUp steps = [] ∧ ∀ f, found = some f → Found m.setup.module name steps f :=
  fun steps found s' htakes =>
    ⟨lookedUp_of_averted (madeOf_function? Averted.passes.lookup name) s steps found s' htakes,
      records_found name s steps found s' htakes⟩

/-- What is left of a run after some steps makes the calls whose turn it is, and ends as the run is
to end. -/
structure Obeys (m : Machine) (call : Callee) (path : String) (argv : List String) (s₀ : State)
    (steps₀ : List Step) (a : Action Int32) (s : State) : Prop where
  meets : m.Meets call a.run s fun steps op s' => Proceeds m path argv s₀ (steps₀ ++ steps) op s'
  records : m.Records call a.run s fun steps r _ => LoadOutcome m.setup.module (steps₀ ++ steps) r

namespace Obeys

variable {path : String} {argv : List String} {s₀ s : State} {steps₀ calls : List Step}
  {tables : List Table}

theorem bind {α : Type} {a : Action α} {f : α → Action Int32}
    (hmeets : m.Meets call a.run s fun steps op s' =>
      Proceeds m path argv s₀ (steps₀ ++ steps) op s')
    (hrest : m.Records call a.run s fun steps r s₁ =>
      match r with
      | .ok x => Obeys m call path argv s₀ (steps₀ ++ steps) (f x) s₁
      | .error e => LoadOutcome m.setup.module (steps₀ ++ steps) (.error e)) :
    Obeys m call path argv s₀ steps₀ (a >>= f) s where
  meets := by
    refine Action.meets_bind.mpr ⟨hmeets, fun steps r s₁ htakes x hx => ?_⟩
    have hobeys := hrest steps r s₁ htakes
    rw [hx] at hobeys
    simpa only [List.append_assoc] using hobeys.meets
  records := by
    refine Action.records_bind.mpr (hrest.mono fun steps r s₁ hobeys => ?_)
    cases r with
    | error e => exact hobeys
    | ok x => simpa only [List.append_assoc] using hobeys.records

theorem one (hmade : Made calls tables steps₀) (hcalls : calls.length < 4) (hwell : ¬ Failed calls) :
    Obeys m call path argv s₀ steps₀ (pure 1) s where
  meets := Machine.meets_done _
  records := Machine.records_done.mpr (by rw [List.append_nil]; exact .one hmade hcalls hwell)

theorem calm_bind {α : Type} {R : α → Prop} {p : Program α} {f : α → Action Int32}
    (hp : p.MadeOf Calm R)
    (hrest : m.Records call p s fun steps x s₁ => (∀ y ∈ steps, y.op.IsCalm) →
      Obeys m call path argv s₀ (steps₀ ++ steps) (f x) s₁) :
    Obeys m call path argv s₀ steps₀ (liftM p >>= f) s := by
  have hcalm : Action.MadeOf Calm (fun _ => True) (liftM p : Action α) := Action.madeOf_lift hp
  refine bind ((Machine.meets_sorted hcalm s).mono fun _ _ _ hop =>
    proceeds_of_not hop.isLoading_eq) ?_
  refine Machine.records_bind.mpr fun steps x s₁ htakes => Machine.records_done.mpr ?_
  rw [List.append_nil]
  exact hrest steps x s₁ htakes (hp.sorted m call s steps x s₁ htakes)

theorem search_bind {f : Option Nat → Action Int32} {name : String} (hmade : Made calls tables steps₀)
    (hrest : ∀ steps found s₁, (∀ f, found = some f → Found m.setup.module name steps f) →
      Made calls tables (steps₀ ++ steps) →
        Obeys m call path argv s₀ (steps₀ ++ steps) (f found) s₁) :
    Obeys m call path argv s₀ steps₀ (liftM (function? name) >>= f) s := by
  refine calm_bind (madeOf_function? Calm.access.lookup name) ?_
  refine (records_search name s).mono fun steps found s₁ hfound hcalm => ?_
  refine hrest steps found s₁ hfound.2 ?_
  have hmade' := hmade.calm hcalm
  rwa [hfound.1, List.append_nil] at hmade'

theorem phase_bind {α : Type} {value? : Step → Option α} {a : Action α} {f : α → Action Int32}
    (hmade : Made calls tables steps₀) (hcalls : calls.length < 3)
    (hphase : m.Records call a.run s fun steps r _ => Phase value? steps r)
    (haverted : Action.MadeOf Averted (fun _ => True) a)
    (hcomes : m.Meets call a.run s fun steps op s' => op.isLoading →
      (∀ x ∈ steps, x.op.IsCalm) ∧ LoadCall m path argv s₀ (steps₀ ++ steps) s'.memory op)
    (hready : ∀ steps, lookedUp steps = [] → ¬ Blocked m.setup.module (steps₀ ++ steps) calls)
    (hfailed : ∀ x steps, value? x = none →
      ¬ Blocked m.setup.module (steps₀ ++ steps) (calls ++ [x]))
    (hrest : ∀ x b steps s₁, value? x = some b → Made (calls ++ [x]) tables (steps₀ ++ steps) →
      Obeys m call path argv s₀ (steps₀ ++ steps) (f b) s₁) :
    Obeys m call path argv s₀ steps₀ (a >>= f) s := by
  refine bind (hcomes.mono fun _ _ _ h hop => (h hop).2) fun steps r s₁ htakes => ?_
  have h := hphase steps r s₁ htakes
  have hlook := lookedUp_of_averted haverted s steps r s₁ htakes
  cases r with
  | error e => exact .of_phase h hmade hcalls (hready steps hlook) fun x => hfailed x steps
  | ok b =>
    obtain ⟨x, hvalue, hmade'⟩ := hmade.phase h hlook
    exact hrest x b steps s₁ hvalue hmade'

theorem closing {x y z : Step} {library code : Int32} {address : UInt32}
    (hmade : Made [x, y, z] tables steps₀) (hopened : x.opened? = some library)
    (hfound : y.found? = some address) (hcode : z.exited? = some code) :
    Obeys m call path argv s₀ steps₀ (Guest.closing library code) s := by
  refine search_bind hmade fun steps found s₁ hclose hmade => ?_
  cases found with
  | none =>
    refine one hmade (by decide : 3 < 4) ?_
    rintro (_ | _ | ⟨_, _, _, hnone⟩)
    rw [hcode] at hnone
    cases hnone
  | some f =>
    dsimp only
    constructor
    · rw [Action.run_attempt_bind]
      refine Machine.meets_bind.mpr ⟨?_, fun _ _ _ _ => Machine.meets_done _⟩
      refine Machine.meets_bind.mpr ⟨Machine.meets_step.mpr ⟨fun _ => ?_, ?_⟩, ?_⟩
      · rw [List.append_nil]
        exact .closes x y z library code address f hmade.loading_eq hopened hfound hcode
          ((hclose f rfl).mono (List.suffix_append _ _).isInfix)
      · exact fun _ _ _ _ => Machine.meets_done _
      · intro _ returned _ _
        cases returned <;> exact Machine.meets_done _
    · rw [Action.run_attempt_bind, Machine.records_bind, records_callRaw]
      intro t returned s₂ _
      exact Machine.records_done.mpr (.closes hmade rfl hcode)

variable (hgrow : growth.GovernsCallee call) (htrack : tracking.GovernsCallee call)

include hgrow htrack

theorem entering {x y : Step} {library : Int32} {address : UInt32} (hmade : Made [x, y] [] steps₀)
    (hopened : x.opened? = some library) (hfound : y.found? = some address) :
    Obeys m call path argv s₀ steps₀ (Guest.entering library argv address) s := by
  have hwell : ¬ Failed [x, y] := by
    rintro (_ | ⟨_, _, hnone⟩ | _)
    rw [hfound] at hnone
    cases hnone
  unfold Guest.entering
  split
  · exact one hmade (by decide : 2 < 4) hwell
  · next haddress =>
    refine calm_bind (Calm.locate address) ?_
    refine (records_tableFunction? address s).mono fun steps found s₁ hlocated hcalm => ?_
    have hmade' := hmade.calm hcalm
    cases found with
    | none => exact one hmade' (by decide : 2 < 4) hwell
    | some main =>
      obtain ⟨htable, hlook, hmain⟩ := hlocated main rfl
      have hlooked : Looked [x, y] (steps₀ ++ steps) s.table := hmade.looked hcalm (by simp [hlook])
      refine phase_bind hmade' (by decide : 2 < 3) (phase_callEntryPoint htrack main argv s₁)
        (madeOf_callEntryPoint Averted.passes (Averted.invoke entryPoint main) argv) ?_ ?_ ?_
        fun z code _ _ hcode hmade => closing hmade hopened hfound hcode
      · refine (meets_comes_enter hgrow main argv s₁).mono fun steps' op s' hcomes hop => ?_
        obtain ⟨hcalm', array, rfl, hpassed⟩ := hcomes hop
        exact ⟨hcalm', .enters x y library address array s.table main (hmade'.calm hcalm').loading_eq
          hopened hfound haddress hlooked.append_right hmain fun h =>
            hpassed _ (honest_append.mp h).2⟩
      · rintro steps' hlook' (_ | ⟨_, _, address', haddress', hdangling⟩)
        rw [hfound] at haddress'
        cases haddress'
        cases hdangling with
        | null hnull => exact haddress hnull
        | noTable hnone => exact htable hnone
        | noFunction table hlooked' hnone =>
          -- The table is looked in only once, so this is how it was then.
          have hmem := hlooked'.mem
          rw [lookedUp_append, hlook', hmade'.lookedUp_eq, hlook, List.append_nil, List.nil_append,
            List.mem_singleton] at hmem
          rw [hmem, hmain] at hnone
          cases hnone
      · rintro z steps' hz (_ | _ | ⟨_, _, _, code, hcode, -⟩)
        rw [hz] at hcode
        cases hcode

theorem finding {x : Step} {library : Int32} (hmade : Made [x] [] steps₀)
    (hopened : x.opened? = some library) :
    Obeys m call path argv s₀ steps₀ (Guest.finding argv library) s := by
  refine search_bind hmade fun steps found s₁ hsought hmade => ?_
  cases found with
  | none =>
    refine one hmade (by decide : 1 < 4) ?_
    rintro (⟨_, hnone⟩ | _)
    rw [hopened] at hnone
    cases hnone
  | some f =>
    have hfinder (steps' : List Step) : Found m.setup.module "dlsym" (steps₀ ++ steps ++ steps') f :=
      (hsought f rfl).mono ⟨steps₀, steps', rfl⟩
    refine phase_bind hmade (by decide : 1 < 3) (phase_findEntryPoint f library s₁)
      (madeOf_findEntryPoint Averted.passes f library) ?_ ?_ ?_
      fun y address _ _ hfound hmade => entering hgrow htrack hmade hopened hfound
    · refine (meets_comes_find f library s₁).mono fun steps' op s' hcomes hop => ?_
      obtain ⟨hcalm, symbol, rfl, hlies⟩ := hcomes hop
      exact ⟨hcalm, .finds x library f symbol (hmade.calm hcalm).loading_eq hopened (hfinder steps')
        hlies⟩
    · rintro steps' - (⟨_, _, -, hnone⟩ | _)
      exact (hfinder steps').resolved?_ne_none hnone
    · rintro y steps' hy (_ | ⟨_, _, address, haddress, -⟩)
      rw [hy] at haddress
      cases haddress

theorem load (hscratch : scratchKept.GovernsCallee call) (hmade : Made [] [] steps₀)
    (hsteps₀ : ∀ x ∈ steps₀, x.op.LeavesMemory) :
    Obeys m call path argv s steps₀ (loadAndExecute path argv) s := by
  rw [loadAndExecute_eq]
  have haverted : Action.MadeOf Averted (fun _ => True) (do
      Action.ofExcept (asInt32 (← callWithString "dlopen" (.one path) []) "dlopen")) :=
    Action.madeOf_bind
      (madeOf_passString Averted.passes coversHost_true (Averted.invoke "dlopen") _ _) fun output =>
        Action.madeOf_ofExcept (failsWithin_asInt32 coversHost_true output "dlopen")
  refine phase_bind hmade (by decide : 0 < 3) (phase_open htrack path s) haverted ?_
    (fun _ _ => nofun) ?_ fun x library _ _ hopened hmade => finding hgrow htrack hmade hopened
  · refine Action.meets_bind.mpr ⟨fun steps op s' hnears hop => ?_, fun _ _ _ _ output _ => ?_⟩
    · obtain ⟨hcalm, f, args, rfl, hlength, hfound⟩ :=
        meets_comes_call "dlopen" path [] s steps op s' hnears hop
      refine ⟨hcalm, .opens f args (hmade.calm hcalm).loading_eq
        (hfound.mono (List.suffix_append _ _).isInfix) hlength fun past hs => ?_⟩
      exact (meets_callText hgrow hscratch "dlopen" path [] hs steps _ s' hnears).after hsteps₀
    · exact Machine.meets_done _
  · rintro x steps hx (⟨_, library, hopened, -⟩ | _)
    rw [hx] at hopened
    cases hopened

end Obeys

/-- A run that makes none of the calls fails for a reason that keeps the first one from being made. -/
theorem records_unopened (htrack : tracking.GovernsCallee call) (path : String) (argv : List String)
    (s : State) :
    m.Records call (loadAndExecute path argv).run s fun steps r _ => loading steps = [] →
      ∃ e, r = .error e ∧ Refusal m.setup "dlopen" (some (.one path)) [] steps e := by
  have hentered {steps : List Step} {r : Except Error Json} (hnone : loading steps = [])
      (h : Contract (Refusal m.setup "dlopen" (some (.one path)) []) "dlopen" steps r) :
      ∃ e, r = .error e ∧ Refusal m.setup "dlopen" (some (.one path)) [] steps e := by
    cases h with
    | refused e _ he => exact ⟨e, rfl, he⟩
    | entered f args returned s s' t =>
      have hload := loading_eq_nil.mp hnone _ (List.mem_append_right _ (.head _))
      cases hload
  rw [loadAndExecute, Action.records_bind]
  refine (honours_callWithString htrack "dlopen" (.one path) [] s).mono fun steps r s₁ h => ?_
  cases r with
  | error e =>
    intro hnone
    obtain ⟨_, ⟨⟩, he⟩ := hentered hnone h
    exact ⟨e, rfl, he⟩
  | ok output =>
    intro steps' r' s' _ hnone
    rw [loading_append] at hnone
    obtain ⟨_, ⟨⟩, -⟩ := hentered (List.append_eq_nil_iff.mp hnone).1 h

end

def preamble (argv : List String) (s : State) : List Step :=
  [⟨.ask (.report (.runBegan argv)), (), s, s, [⟨.report (.runBegan argv), ()⟩]⟩,
    ⟨.memory, s.memory, s, s, []⟩, ⟨.getHost, s.host, s, s, []⟩]

section

variable {m : Machine} {call : Callee} {path : String} {rest : List String} {s : State}

theorem meets_framed {P : List Step → Op → State → Prop}
    (hframing : ∀ steps op s', op.IsFraming → P steps op s')
    (h : m.Meets call (loadAndExecute path (path :: rest)).run s fun steps op s' =>
      P (preamble (path :: rest) s ++ steps) op s') :
    m.Meets call (run (path :: rest)).run s P := by
  rw [run_cons]
  refine Machine.meets_step.mpr ⟨hframing _ _ _ trivial, fun t _ s₁ hreport => ?_⟩
  obtain ⟨_, _, hdone, rfl⟩ := Dialogue.ends_ask.mp hreport
  cases hdone
  refine Machine.meets_bind.mpr ⟨?_, fun steps r s₂ _ => ?_⟩
  · show m.Meets call (.step .memory fun saved => .step .getHost fun h =>
      (loadAndExecute path (path :: rest)).run.bind fun outcome => .step (.restore saved) fun _ =>
        .step .getHost fun h' => .step (.setHost { h' with pointers := h.pointers }) fun _ =>
          .done outcome) s _
    refine Machine.meets_op rfl (hframing _ _ _ trivial) ?_
    refine Machine.meets_op rfl (hframing _ _ _ trivial) (Machine.meets_bind.mpr ⟨h, ?_⟩)
    intro steps r s₂ _
    refine Machine.meets_op rfl (hframing _ _ _ trivial) ?_
    refine Machine.meets_op rfl (hframing _ _ _ trivial) ?_
    exact Machine.meets_op rfl (hframing _ _ _ trivial) (Machine.meets_done _)
  · exact Machine.meets_step.mpr ⟨hframing _ _ _ trivial, fun _ _ _ _ => Machine.meets_done _⟩

theorem records_framed {P : List Step → Except Error Int32 → State → Prop}
    (h : m.Records call (loadAndExecute path (path :: rest)).run s fun steps r _ =>
      ∀ after s', (∀ x ∈ after, x.op.IsFraming) →
        P (preamble (path :: rest) s ++ steps ++ after) r s') :
    m.Records call (run (path :: rest)).run s P := by
  rw [run_cons]
  refine Machine.records_step.mpr fun t _ s₁ hreport => ?_
  obtain ⟨_, _, hdone, rfl⟩ := Dialogue.ends_ask.mp hreport
  cases hdone
  refine Machine.records_bind.mpr ?_
  refine Machine.records_op rfl (Machine.records_op rfl (Machine.records_bind.mpr ?_))
  refine h.mono fun steps r s₁ hsteps => ?_
  refine Machine.records_op rfl (Machine.records_bind.mpr (Machine.records_modifyHost ?_))
  refine Machine.records_done.mpr (Machine.records_step.mpr fun t' _ s₂ _ => ?_)
  refine Machine.records_done.mpr ?_
  rw [List.append_nil, List.cons_append, List.cons_append, List.append_assoc]
  exact hsteps [_, _, _, _] s₂ (by simp [Op.IsFraming, Op.IsNote])

end

namespace LoadOutcome

theorem later {module : Module} {steps after : List Step} {r : Except Error Int32}
    (h : LoadOutcome module steps r) (hafter : ∀ x ∈ after, x.op.IsFraming) :
    LoadOutcome module (steps ++ after) r := by
  have hcalm : ∀ x ∈ after, x.op.IsCalm := fun x hx => (hafter x hx).isCalm
  have hload : loading (steps ++ after) = loading steps := by
    rw [loading_append, loading_of_calm hcalm, List.append_nil]
  have hfailure : firstFailure (steps ++ after) = firstFailure steps := by
    rw [firstFailure_append, firstFailure_eq_none (attempts_of_calm hcalm), Option.or_none]
  have hlook : lookedUp after = [] := lookedUp_eq_nil fun x hx => (hafter x hx).not_looksUp
  refine ⟨?_, ?_, fun hblocked => ?_, ?_⟩
  · rw [hload]
    exact h.complete
  · rw [hload]
    exact h.failed
  · rw [hfailure]
    rw [hload] at hblocked
    exact h.blocked (hblocked.of_append hlook)
  · rw [hload]
    exact h.closed

end LoadOutcome

/-- Where each of the calls is the one whose turn it is, they are made in order. -/
theorem loadPurposes_prefix {m : Machine} {path : String} {argv : List String} {s : State}
    {steps : List Step} (h : ∀ before x after, steps = before ++ x :: after →
      Proceeds m path argv s before x.op x.before) : loadPurposes steps <+: loadOrder := by
  induction steps using List.reverseRecOn with
  | nil => exact List.nil_prefix
  | append_singleton steps x ih =>
    cases hload : x.op.isLoading with
    | false =>
      have hx : loading [x] = [] := List.filter_cons_of_neg (by rw [hload]; exact Bool.false_ne_true)
      rw [loadPurposes, loading_append, hx, List.append_nil]
      refine ih fun before y after hsteps => h before y (after ++ [x]) ?_
      rw [hsteps, List.append_assoc, List.cons_append]
    | true =>
      have hx : loading [x] = [x] := List.filter_cons_of_pos hload
      have hpurposes : loadPurposes (steps ++ [x]) = loadPurposes steps ++ x.op.purpose?.toList := by
        rw [loadPurposes, loading_append, hx, List.filterMap_append, ← loadPurposes]
        cases hpurpose : x.op.purpose? <;> simp [hpurpose]
      rw [hpurposes]
      exact (h steps x [] rfl hload).ordered

/-- At every depth of calls and from every state, a run makes these calls in order, each with what
the calls before gave. An exit code other than 1 is that of the entry point; a run that cannot go on
gives 1; it makes no difference how the library was closed; and a run that makes no call fails for
one of the reasons for which a function is not entered. -/
theorem run_loads_in_order (m : Machine) (depth hostDepth : Nat) (path : String)
    (rest : List String) (s : State) :
    m.Meets (m.callFunction depth hostDepth .host) (run (path :: rest)).run s
      (Proceeds m path (path :: rest) s) ∧
    m.Records (m.callFunction depth hostDepth .host) (run (path :: rest)).run s fun steps r _ =>
      loadPurposes steps <+: loadOrder ∧ LoadOutcome m.setup.module steps r ∧
        (loading steps = [] →
          ∃ e, r = .error e ∧ Refusal m.setup "dlopen" (some (.one path)) [] steps e) := by
  have hgrow := m.callFunction_grows depth hostDepth .host
  have htrack := m.callFunction_tracks depth hostDepth .host
  have hscratch := m.callFunction_keepsScratch depth hostDepth .host
  have hload : Obeys m (m.callFunction depth hostDepth .host) path (path :: rest) s
      (preamble (path :: rest) s) (loadAndExecute path (path :: rest)) s :=
    .load hgrow htrack hscratch ⟨rfl, rfl, rfl⟩ (by simp [preamble, Op.LeavesMemory])
  have hmeets : m.Meets (m.callFunction depth hostDepth .host) (run (path :: rest)).run s
      (Proceeds m path (path :: rest) s) :=
    meets_framed (fun _ _ _ hop => proceeds_of_not hop.isCalm.isLoading_eq) hload.meets
  have houtcome : m.Records (m.callFunction depth hostDepth .host) (run (path :: rest)).run s
      fun steps r _ => LoadOutcome m.setup.module steps r :=
    records_framed (hload.records.mono fun _ _ _ h _ _ hafter => h.later hafter)
  have hunopened : m.Records (m.callFunction depth hostDepth .host) (run (path :: rest)).run s
      fun steps r _ => loading steps = [] →
        ∃ e, r = .error e ∧ Refusal m.setup "dlopen" (some (.one path)) [] steps e := by
    refine records_framed ((records_unopened htrack path (path :: rest) s).mono ?_)
    intro steps r _ h after s' _ hnone
    simp only [loading_append, List.append_eq_nil_iff] at hnone
    obtain ⟨e, he, hrefusal⟩ := h hnone.1.2
    exact ⟨e, he, Refusal.lasting _ _ _ _ _ _ e hrefusal ⟨_, after, rfl⟩⟩
  refine ⟨hmeets, fun steps r s' htakes => ⟨?_, houtcome steps r s' htakes, ?_⟩⟩
  · exact loadPurposes_prefix (hmeets.records steps r s' htakes)
  · exact hunopened steps r s' htakes

/-- A module whose libraries can also be closed. -/
def closer : Module :=
  let word : Instr := .apply (.const (.i32 0)) []
  { listTaker with
    funcs := listTaker.funcs ++ #[⟨⟨[.i32], [.i32]⟩, [], [word]⟩]
    exports := listTaker.exports ++ [("dlclose", 5)] }

/-- All four calls are made, and the entry point counts its arguments. -/
theorem run_loads_in_order_closing :
    let m := Instantiation.machine .standard { directoryExists := fun _ => true } closer #[]
    ∃ steps s' x y z w,
      m.Takes (m.callFunction 20 10 .host) (run ["lib", "x"]).run listState steps (.ok 2) s' ∧
      loadPurposes steps = loadOrder ∧ loading steps = [x, y, z, w] ∧ z.exited? = some 2 := by
  intro m
  have hrun : ((m.traced (m.callFunction 20 10 .host) Request.unsupported (run ["lib", "x"]).run
      listState).any fun x => loadPurposes x.1 == loadOrder && x.2.1.toOption == some 2) = true := by
    decide +kernel
  obtain ⟨⟨steps, r, s'⟩, htraced, hchecked⟩ := (Option.any_eq_true _ _).mp hrun
  obtain ⟨hpurposes, hr⟩ := (Bool.and_eq_true _ _).mp hchecked
  have htakes := Machine.takes_of_traced htraced
  cases r with
  | error e => cases hr
  | ok code =>
    cases eq_of_beq hr
    obtain ⟨-, houtcome, -⟩ :=
      (run_loads_in_order m 20 10 "lib" ["x"] listState).2 steps _ s' htakes
    obtain ⟨x, y, z, w, hload, hexited⟩ := houtcome.complete 2 rfl (by decide)
    exact ⟨steps, s', x, y, z, w, htakes, eq_of_beq hpurposes, hload, hexited⟩

example : ((listMachine.traced (listMachine.callFunction 20 10 .host) Request.unsupported
    (run ["lib", "x"]).run listState).any fun x => loadPurposes x.1 == loadOrder.take 3 &&
      (loading x.1).getLast?.bind Step.exited? == some 2 && x.2.1.toOption == some 1) = true := by
  decide +kernel

end Guest

end SandboxHost

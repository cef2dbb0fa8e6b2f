import SandboxHost.Proofs.ArgumentShapes
import SandboxHost.Proofs.KeptBinding
import SandboxHost.Proofs.LoadCalls

namespace SandboxHost

namespace Machine

variable {m : Machine} {call : Callee} {α β : Type} {p : Program α} {g : α → Program β}
  {s s₁ s' : State} {before rest : List Step} {a : α} {b : β}

/-- A program that begins with these steps goes on from where they end. -/
theorem Takes.takes_append (h : m.Takes call p s before a s₁) :
    m.Takes call (p.bind g) s (before ++ rest) b s' ↔ m.Takes call (g a) s₁ rest b s' := by
  constructor
  · intro hboth
    induction h with
    | done => exact hboth
    | step _ _ ih =>
      cases hboth with
      | step _ hrest => exact ih hrest
  · exact fun hrest => takes_bind.mpr ⟨before, a, s₁, rest, h, hrest, rfl⟩

theorem Takes.nears_append {op : Op} (h : m.Takes call p s before a s₁)
    (hnears : m.Nears call (g a) s₁ rest op s') :
    m.Nears call (p.bind g) s (before ++ rest) op s' := by
  induction h with
  | done => exact hnears
  | step hop _ ih => exact .later hop (ih hnears)

theorem Nears.bind {op : Op} (h : m.Nears call p s before op s') :
    m.Nears call (p.bind g) s before op s' := by
  induction h with
  | here => exact .here _ _ _
  | later hop _ ih => exact .later hop ih

/-- It comes to an end if all calls that are still to come do. -/
theorem Takes.exists_append (h : m.Takes call p s before a s₁)
    (hcalls : m.CallsEnd call (p.bind g) s before) :
    ∃ rest b s', m.Takes call (p.bind g) s (before ++ rest) b s' := by
  have hlater : m.CallsEnd call (g a) s₁ [] := fun rest purpose f args s' hnears =>
    hcalls rest purpose f args s' (h.nears_append hnears)
  obtain ⟨rest, b, s', hrest⟩ := hlater.exists_takes
  exact ⟨rest, b, s', h.takes_append.mpr hrest⟩

/-- What a call by the host comes to at an import. None of what serves WASI looks at its arguments,
as they all work with the memory that guest code exports when it calls. -/
def serveHost (m : Machine) (call : Callee) (i : Nat) (args : List Value) : Exec (List Value) :=
  match m.targets[i]? with
  | some (.function f) => m.hostCall call f args
  | some (.wasi _) => Exec.trap (.reported "missing required memory export")
  | some .missing | none =>
    match m.setup.module.imports[i]? with
    | some declared => Exec.trap (.missingImport declared.space declared.name)
    | none => Exec.trap .invalidCode

/-- What a call by the host comes to if its arguments are not compared with any type. -/
def accept (m : Machine) : Nat → Nat → Callee
  | 0, _, _, _ => Exec.trap .callDepth
  | depth + 1, hostDepth, f, args => do
    let _ ← Exec.orTrap .invalidCode (m.setup.module.funcType? f)
    let imports := m.setup.module.imports.size
    if f < imports then
      match hostDepth with
      | 0 => Exec.trap .callDepth
      | hostDepth + 1 => m.serveHost (m.callFunction depth hostDepth .host) f args
    else
      let func ← Exec.orTrap .invalidCode m.setup.module.funcs[f - imports]?
      m.enter (m.callFunction depth hostDepth .guest) func args

theorem importCall_host (m : Machine) (call : Callee) (i : Nat) (args : List Value) :
    m.importCall call .host i args = m.serveHost call i args := by
  rw [importCall, serveHost]
  cases m.targets[i]? with
  | none => rfl
  | some target => cases target <;> rfl

theorem callFunction_eq_accept {m : Machine} {f : Nat} {args : List Value}
    (h : ∀ type, m.setup.module.funcType? f = some type → typesOf args = type.params)
    (depth hostDepth : Nat) :
    m.callFunction depth hostDepth .host f args = m.accept depth hostDepth f args := by
  cases depth with
  | zero => rw [callFunction_zero, accept]
  | succ depth =>
    cases htype : m.setup.module.funcType? f with
    | none => cases hostDepth <;> simp [callFunction, accept, htype, Exec.orTrap, Exec.trap]
    | some type =>
      cases hostDepth <;>
        simp [callFunction, accept, htype, h type htype, Exec.orTrap, importCall_host]

/-- In a module without imports, all calls stay inside the guest. -/
theorem staysInside_of_no_imports {m : Machine} (h : m.setup.module.imports.size = 0)
    {depth hostDepth : Nat} {caller : Caller} {c : Called}
    (hc : c.Of (m.callFunction depth hostDepth caller)) : m.StaysInside depth hostDepth c := by
  have hrefused {depth : Nat} {c : Called} {t : Trap}
      (hc : ((Exec.trap t : Exec (List Value)).run.run c.before).Ends c.trace (c.answer, c.after)) :
      m.StaysInside depth hostDepth c := by
    obtain ⟨hanswer, hafter⟩ := Prod.mk.inj (Dialogue.ends_done.mp hc).2
    exact .refused hanswer hafter
  -- On the levels that are left: guest code makes calls of one level less.
  induction depth generalizing caller c with
  | zero =>
    rw [Called.Of, callFunction_zero] at hc
    exact hrefused hc
  | succ depth ih =>
    rw [Called.Of] at hc
    by_cases htype : (m.setup.module.funcType? c.function).map FuncType.params =
        some (typesOf c.args)
    · have hle : m.setup.module.imports.size ≤ c.function := h ▸ Nat.zero_le _
      rw [callFunction_succ m depth hostDepth caller htype, if_neg (Nat.not_lt.mpr hle)] at hc
      cases hfunc : m.setup.module.funcs[c.function - m.setup.module.imports.size]? with
      | none =>
        rw [hfunc] at hc
        exact hrefused hc
      | some func =>
        rw [hfunc] at hc
        obtain ⟨calls, hmakes, -⟩ := exists_makes hfunc hc
        exact .guest ⟨htype, hle, hfunc⟩ hmakes fun c' hmem => ih (hmakes.of_mem hmem)
    · obtain ⟨t, ht⟩ := callFunction_of_misfit m (depth + 1) hostDepth caller htype
      rw [ht] at hc
      exact hrefused hc

end Machine

namespace Guest

section

variable {α β : Type}

theorem Scope.run_lift (a : Action α) (tracked : List UInt32) :
    (liftM a : Scope α).run.run tracked = a.run.bind fun r => .done (r, tracked) := rfl

theorem Scope.lift_bind (a : Action α) (f : α → Action β) :
    (liftM (a >>= f) : Scope β) = (do liftM (f (← (liftM a : Scope α)))) :=
  congrArg ExceptT.mk (funext fun tracked => (Scope.run_lift_bind a f tracked).symm)

theorem inScope_lift_bind (a : Action α) (f : α → Scope β) :
    inScope (do f (← (liftM a : Scope α))) = (do inScope (f (← a))) := by
  have h : (inScope (do f (← (liftM a : Scope α)))).run =
      (do inScope (f (← a)) : Action β).run := by
    change Program.bind ((do f (← (liftM a : Scope α)) : Scope β).run.run []) _ = _
    rw [Scope.run_bind, Scope.run_lift, Action.run_bind, Program.bind_assoc, Program.bind_assoc]
    refine congrArg _ (funext fun r => ?_)
    cases r <;> rfl
  exact h

theorem inScope_lift (a : Action α) : inScope (liftM a) = a := by
  have h : (inScope (liftM a)).run = a.run := by
    change Program.bind ((liftM a : Scope α).run.run []) _ = _
    rw [Scope.run_lift, Program.bind_assoc]
    refine (congrArg _ (funext fun r => ?_)).trans (Program.bind_done _)
    cases r <;> rfl
  exact h

end

/-- A call with numbers alone, or with a string or a list of strings before them. -/
def callWith (name : String) (extra : List Int64) : Option StringArg → Action Json
  | none => Guest.call name extra
  | some arg => callWithString name arg extra

/-- Finding the function, and sending what goes before the numbers. This gives the pointers that the
function is told. -/
def prepare (name : String) : Option StringArg → Scope (Nat × List UInt32)
  | none => do
    let f ← function name
    return (f, [])
  | some (.one text) => do
    let f ← function name
    let small := (← (Program.setup : Action Setup)).smallStringSize
    if text.utf8ByteSize < small then
      let address ← scratch
      writeCString address text
      return (f, [address])
    else return (f, [← Scope.track (← sendString text none)])
  | some (.many texts) => do
    let f ← function name
    let _ ← (Program.setup : Action Setup)
    return (f, [texts.length.toUInt32, ← sendStrings texts])

def enterWith (name : String) (f : Nat) (pointers : List UInt32) (extra : List Int64) :
    Action Json := do
  invoke name f (← argumentsFor f pointers extra)

theorem callWith_eq (name : String) (extra : List Int64) (arg : Option StringArg) :
    callWith name extra arg = inScope (do
      let (f, pointers) ← prepare name arg
      enterWith name f pointers extra) := by
  have henter (f : Nat) (pointers : List UInt32) : (do
      let args ← (liftM (argumentsFor f pointers extra) : Scope (List Value))
      liftM (invoke name f args) : Scope Json) = liftM (enterWith name f pointers extra) :=
    (Scope.lift_bind _ _).symm
  cases arg with
  | none =>
    simp only [prepare, bind_assoc, pure_bind, inScope_lift_bind, inScope_lift]
    rfl
  | some arg =>
    cases arg with
    | one text =>
      simp only [callWith, callWithString, prepare, bind_assoc, inScope_lift_bind]
      refine congrArg _ (funext fun f => congrArg _ (funext fun setup => ?_))
      split
      · simp only [bind_assoc, pure_bind, inScope_lift_bind, inScope_lift]
        rfl
      · simp only [bind_assoc, pure_bind, inScope_lift_bind, henter]
    | many texts =>
      simp only [callWith, callWithString, prepare, bind_assoc, pure_bind, inScope_lift_bind,
        henter]

/-- What a call does once the function was found and what goes before the numbers was sent, or when
that has failed. -/
def conclude (name : String) (extra : List Int64)
    (x : Except Error (Nat × List UInt32) × List UInt32) : Program (Except Error Json) :=
  (do
    let (f, pointers) ← Action.ofExcept x.1
    enterWith name f pointers extra : Action Json).run.bind fun r =>
      (releaseAll x.2).bind fun failure => .done (scopeOutcome r failure)

theorem run_callWith (name : String) (extra : List Int64) (arg : Option StringArg) :
    (callWith name extra arg).run =
      ((prepare name arg).run.run []).bind (conclude name extra) := by
  rw [callWith_eq]
  change Program.bind (ExceptT.run (do
    let (f, pointers) ← prepare name arg
    liftM (enterWith name f pointers extra) : Scope Json) []) _ = _
  refine (congrArg (Program.bind · _) (Scope.run_bind _ _ _)).trans ?_
  rw [Program.bind_assoc]
  refine congrArg _ (funext fun x => ?_)
  rcases x with ⟨e | ⟨f, pointers⟩, blocks⟩
  · refine congrArg (Program.bind (releaseAll blocks)) (funext fun failure => ?_)
    cases failure <;> rfl
  · change Program.bind (Program.bind (enterWith name f pointers extra).run _) _ =
      Program.bind (enterWith name f pointers extra).run _
    rw [Program.bind_assoc]
    refine congrArg _ (funext fun r => congrArg (Program.bind (releaseAll blocks)) ?_)
    funext failure
    cases r <;> cases failure <;> rfl

section

variable {B : BlockKind} {fails : Error → Prop}

theorem sends_prepare (hB : Passes B fails) (hf : CoversHost fails)
    (hsetup : Program.setup.MadeOf B fun _ => True) (name : String) (arg : Option StringArg) :
    Scope.Sends B fails (prepare name arg) := by
  have hfunction : Scope.Sends B fails (liftM (function name) : Scope Nat) :=
    .action (madeOf_function hB.lookup hf name)
  have hsurvey : Scope.Sends B fails (liftM (Program.setup : Action Setup) : Scope Setup) :=
    .action (Action.madeOf_lift hsetup)
  cases arg with
  | none => exact .bind hfunction fun f => .pure _
  | some arg =>
    cases arg with
    | one text =>
      refine .bind hfunction fun f => .bind hsurvey fun setup => ?_
      dsimp only
      split
      · refine .bind (.action hB.scratch) fun address => .bind (.action ?_) fun _ => .pure _
        exact madeOf_writeCString hB.access hf address text
      · exact .send_bind _ fun address => .pure _
    | many texts =>
      refine .bind hfunction fun f => .bind hsurvey fun _ => ?_
      exact .bind (sends_sendStrings texts) fun argv => .pure _

end

theorem aside_prepare (name : String) (arg : Option StringArg) :
    ((prepare name arg).run.run []).MadeOf Aside fun _ => True := by
  have hsetup : Program.setup.MadeOf Aside fun _ => True :=
    Program.madeOf_block (.op .setup (by rintro ⟨⟩))
  exact ((sends_prepare Aside.passes coversHost_true hsetup name arg).madeOf Aside.marshals
    coversHost_true []).weaken fun _ _ => trivial

variable {m : Machine} {call : Callee}

/-- In these steps the function was found, and what goes before the numbers was sent. -/
abbrev Prepares (m : Machine) (call : Callee) (name : String) (arg : Option StringArg) (s : State)
    (before : List Step) (f : Nat) (pointers blocks : List UInt32) (s₁ : State) : Prop :=
  m.Takes call ((prepare name arg).run.run []) s before (.ok (f, pointers), blocks) s₁

/-- The pointers that a function is told of: none; that of the scratch block or of the one block
that was sent; or how many strings there are, and the block that was sent last. -/
inductive Leads (small : Nat) : Option StringArg → List UInt32 → State → List UInt32 → Prop where
  | numbers {s : State} : Leads small none [] s []
  | scratch {text : String} {s : State} {p : UInt32} : text.utf8ByteSize < small →
    s.scratch = some p → Leads small (some (.one text)) [] s [p]
  | block {text : String} {s : State} {p : UInt32} : small ≤ text.utf8ByteSize →
    Leads small (some (.one text)) [p] s [p]
  | empty {s : State} : Leads small (some (.many [])) [] s [0, 0]
  | list {texts : List String} {s : State} {argv : UInt32} {addresses : List UInt32} :
    texts ≠ [] → addresses.length = texts.length → texts.length < 0x80000000 →
    Leads small (some (.many texts)) (argv :: addresses) s [texts.length.toUInt32, argv]

theorem records_sendStrings_noted (texts : List String) (hne : texts ≠ []) (s : State) :
    m.Records call ((sendStrings texts).run.run []) s fun _ x _ => ∀ argv, x.1 = .ok argv →
      ∃ addresses, x.2 = argv :: addresses ∧ addresses.length = texts.length ∧
        texts.length < 0x80000000 := by
  rw [sendStrings, if_neg (by rwa [List.isEmpty_iff]), Scope.run_bind, Machine.records_bind]
  refine (records_sendEach_noted texts [] s).mono fun steps x s₁ hnoted => ?_
  rcases x with ⟨e | addresses, tracked⟩
  · exact Machine.records_done.mpr (by rintro _ ⟨⟩)
  · dsimp only
    rw [Scope.records_track]
    refine (records_sent _ s₁).mono fun steps' r s' hrow => ?_
    rintro argv rfl
    obtain ⟨rfl, hlength⟩ := hnoted addresses rfl
    obtain ⟨⟨hsize, -⟩, -⟩ := hrow argv rfl
    rw [length_row, hlength] at hsize
    refine ⟨addresses.reverse ++ [], rfl, ?_, by omega⟩
    rw [List.append_nil, List.length_reverse, hlength]

theorem records_prepare (name : String) (arg : Option StringArg) (s : State) :
    m.Records call ((prepare name arg).run.run []) s fun _ x s' => ∀ f pointers,
      x.1 = .ok (f, pointers) → Leads m.setup.smallStringSize arg x.2 s' pointers := by
  -- In every case the function is looked up first, and nothing is sent before.
  have hfound {g : Nat → Scope (Nat × List UInt32)}
      (hg : ∀ f s₁, m.Records call ((g f).run.run []) s₁ fun _ x s' => ∀ f pointers,
        x.1 = .ok (f, pointers) → Leads m.setup.smallStringSize arg x.2 s' pointers) :
      m.Records call ((do g (← (liftM (function name) : Scope Nat))).run.run []) s
        fun _ x s' => ∀ f pointers, x.1 = .ok (f, pointers) →
          Leads m.setup.smallStringSize arg x.2 s' pointers := by
    rw [Scope.records_lift_bind]
    intro steps r s₁ _
    cases r with
    | error e => rintro _ _ ⟨⟩
    | ok f => exact hg f s₁
  cases arg with
  | none =>
    refine hfound fun f s₁ => Machine.records_done.mpr ?_
    rintro _ _ ⟨⟩
    exact .numbers
  | some arg =>
    cases arg with
    | one text =>
      refine hfound fun f s₁ => Scope.records_lift_bind.mpr (Machine.records_op rfl ?_)
      refine Machine.records_done.mpr ?_
      dsimp only
      split
      · next hshort =>
        refine Scope.records_lift_bind.mpr ((records_scratch s₁).mono fun _ r s₂ hscratch => ?_)
        cases r with
        | error e => rintro _ _ ⟨⟩
        | ok p =>
          refine Scope.records_lift_bind.mpr ((records_writeCString_through text []
            (hscratch.2 p rfl)).mono fun _ r s' hthrough => ?_)
          cases r with
          | error e => rintro _ _ ⟨⟩
          | ok _ =>
            refine Machine.records_done.mpr ?_
            rintro _ _ ⟨⟩
            exact .scratch hshort hthrough.scratch
      · next hlong =>
        refine Scope.records_track_bind.mpr fun _ r s' _ => ?_
        cases r with
        | error e => rintro _ _ ⟨⟩
        | ok p =>
          refine Machine.records_done.mpr ?_
          rintro _ _ ⟨⟩
          exact .block (Nat.le_of_not_lt hlong)
    | many texts =>
      refine hfound fun f s₁ => Scope.records_lift_bind.mpr (Machine.records_op rfl ?_)
      refine Machine.records_done.mpr ?_
      rw [Scope.run_bind, Machine.records_bind]
      cases texts with
      | nil =>
        refine Machine.records_done.mpr (Machine.records_done.mpr ?_)
        rintro _ _ ⟨⟩
        exact .empty
      | cons text rest =>
        refine (records_sendStrings_noted (text :: rest) (List.cons_ne_nil _ _) s₁).mono ?_
        rintro _ ⟨r, blocks⟩ s' hnoted
        cases r with
        | error e => exact Machine.records_done.mpr (by rintro _ _ ⟨⟩)
        | ok argv =>
          obtain ⟨addresses, rfl, hlength, hcount⟩ := hnoted argv rfl
          refine Machine.records_done.mpr ?_
          rintro _ _ ⟨⟩
          exact .list (List.cons_ne_nil _ _) hlength hcount

def parameters (m : Machine) (f : Nat) : List ValueType :=
  (m.setup.module.funcType? f).elim [] (·.params)

theorem meets_enterWith (name : String) (f : Nat) (pointers : List UInt32) (extra : List Int64)
    (s : State) :
    m.Meets call (enterWith name f pointers extra).run s fun _ op _ => op.IsEntry → ∃ args,
      op = .call (.entry name) f args ∧ arguments (parameters m f) pointers extra = .ok args := by
  have haside (steps : List Step) (op : Op) (s' : State) (hop : ¬ op.IsEntry) : op.IsEntry →
      ∃ args, op = .call (.entry name) f args ∧
        arguments (parameters m f) pointers extra = .ok args := fun hentry => absurd hentry hop
  have harguments := madeOf_argumentsFor Aside.access.lookup coversHost_true f pointers extra
  refine Action.meets_bind.mpr ⟨meets_aside haside harguments, ?_⟩
  rw [argumentsFor, Action.run_lift_bind]
  refine Machine.records_op rfl (Machine.records_done.mpr fun args hargs => ?_)
  exact meets_invoke (fun _ _ _ hop hentry => absurd hentry hop) fun _ => ⟨args, rfl, hargs⟩

variable (m) in
/-- The last steps before a function is entered: its type is looked up, and what the guest has set is
cleared. -/
def entrySteps (s : State) : List Step :=
  [⟨.setup, m.setup, s, s, []⟩, ⟨.getHost, s.host, s, s, []⟩,
    ⟨.setHost s.host.fresh, (), s, s.fresh, []⟩]

theorem nears_enterWith {f : Nat} {pointers : List UInt32} {extra : List Int64} {args : List Value}
    (h : arguments (parameters m f) pointers extra = .ok args) (name : String) (s : State) :
    m.Nears call (enterWith name f pointers extra).run s (entrySteps m s)
      (.call (.entry name) f args) s.fresh := by
  rw [enterWith, argumentsFor, bind_assoc, Action.run_lift_bind]
  refine .later (.done _) ?_
  change m.Nears call (Action.ofExcept (arguments (parameters m f) pointers extra) >>=
    invoke name f : Action Json).run s _ _ _
  rw [h]
  exact .later (.done _) (.later (.done _) (.here _ _ _))

/-- A function that is entered was found, what goes before the numbers was sent, and the arguments
are made of both. -/
theorem meets_callWith (name : String) (extra : List Int64) (arg : Option StringArg) (s : State) :
    m.Meets call (callWith name extra arg).run s fun steps op _ => op.IsEntry →
      ∃ before f pointers blocks s₁ args,
        Prepares m call name arg s before f pointers blocks s₁ ∧ before <+: steps ∧
        op = .call (.entry name) f args ∧ arguments (parameters m f) pointers extra = .ok args := by
  rw [callWith_eq]
  refine meets_inScope (fun _ _ _ hop hentry => absurd hentry hop) (Scope.meets_bind.mpr ⟨?_, ?_⟩)
  · exact meets_aside (fun _ _ _ hop hentry => absurd hentry hop) (aside_prepare name arg)
  · rintro before ⟨r, blocks⟩ s₁ htakes ⟨f, pointers⟩ rfl
    refine Scope.meets_lift ((meets_enterWith name f pointers extra s₁).mono ?_)
    intro steps op s' henters hentry
    obtain ⟨args, hop, hargs⟩ := henters hentry
    exact ⟨before, f, pointers, blocks, s₁, args, htakes, List.prefix_append _ _, hop, hargs⟩

theorem records_enterWith_refused {f : Nat} {pointers : List UInt32} {extra : List Int64}
    {fault : ArgumentFault}
    (h : misfit? (parameters m f) (pointers.length + extra.length) = some fault) (name : String)
    (s : State) :
    m.Records call (enterWith name f pointers extra).run s fun steps r s' =>
      steps = [⟨.setup, m.setup, s, s, []⟩] ∧ r = .error (.invalidArgument fault) ∧ s' = s := by
  rw [enterWith, Action.records_bind, argumentsFor, Action.run_lift_bind]
  refine Machine.records_op rfl (Machine.records_done.mpr ?_)
  have hargs : arguments ((m.setup.module.funcType? f).elim [] (·.params)) pointers extra =
      .error (.invalidArgument fault) := arguments_of_misfit? h
  rw [hargs]
  exact ⟨rfl, rfl, rfl⟩

/-- If all that is called in these steps stays inside the guest, then what the guest has set for a
caller stays as it is. -/
def CallStateStays (m : Machine) (depth hostDepth : Nat) (s : State) (steps : List Step)
    (s' : State) : Prop :=
  (∀ c purpose, c.step purpose ∈ steps → m.StaysInside depth hostDepth c) →
    s'.host.callState = s.host.callState

section

variable {depth hostDepth : Nat} {s s₁ s' : State} {steps steps' : List Step}

theorem CallStateStays.of_eq (h : s'.host.callState = s.host.callState) :
    CallStateStays m depth hostDepth s steps s' := fun _ => h

theorem CallStateStays.trans (h : CallStateStays m depth hostDepth s steps s₁)
    (h' : CallStateStays m depth hostDepth s₁ steps' s') :
    CallStateStays m depth hostDepth s (steps ++ steps') s' := fun hinside =>
  (h' fun c purpose hc => hinside c purpose (List.mem_append_right _ hc)).trans
    (h fun c purpose hc => hinside c purpose (List.mem_append_left _ hc))

variable (m depth hostDepth) in
def CallStateKept : BlockKind := fun _ p R => ∀ s,
  m.Records (m.callFunction depth hostDepth .host) p s fun steps b s' =>
    CallStateStays m depth hostDepth s steps s' ∧ R b

theorem records_callState {α : Type} {R : α → Prop} {p : Program α}
    (hp : p.MadeOf (CallStateKept m depth hostDepth) R) (s : State) :
    m.Records (m.callFunction depth hostDepth .host) p s fun steps _ s' =>
      CallStateStays m depth hostDepth s steps s' := by
  intro steps a s' h
  refine (hp.takes (K := CallStateStays m depth hostDepth) (fun _ => .of_eq rfl)
    (fun _ _ _ _ _ => .trans) ?_ h).1
  exact fun β q R hq s steps b s' h => hq s steps b s' h

theorem callStateKept_marshals :
    BlockKind.Allows (CallStateKept m depth hostDepth) (fun _ => True) Op.IsMarshal := by
  refine .of_ops (fun op hop s => Machine.records_step.mpr fun t answer s₁ hends =>
    Machine.records_done.mpr ⟨?_, op.answers_true answer⟩) trivial
  cases op with
  | call purpose f args =>
    intro hinside
    have hcall := hinside ⟨f, args, s, t, answer, s₁⟩ purpose (List.mem_singleton_self _)
    rw [hcall.host]
  | setHost host | getHost => exact hop.elim
  | _ =>
    have hhost := Machine.host_of_performOp hends (by rintro _ ⟨⟩) (by rintro _ _ _ ⟨⟩)
    exact .of_eq (congrArg HostState.callState hhost)

theorem callStateKept_keeps : Keeps (CallStateKept m depth hostDepth) fun _ => True where
  marshals := callStateKept_marshals
  look _ := Program.madeOf_block fun s =>
    Machine.records_op rfl (Machine.records_done.mpr ⟨.of_eq rfl, s.host, rfl⟩)
  setPointers _ := Program.madeOf_block fun _ =>
    Machine.records_modifyHost ⟨.of_eq rfl, trivial⟩

end

/-- A call that found its function fails before it enters that, and leaves everything in order. -/
structure Refused (m : Machine) (depth hostDepth : Nat) (fault : ArgumentFault) (s : State)
    (steps : List Step) (r : Except Error Json) (s' : State) : Prop where
  outcome : r = .error (.invalidArgument fault)
  entersNothing : ∀ x ∈ steps, ¬ x.op.IsEntry
  /-- Every block is attempted to be given back but the scratch block. -/
  balanced : Balanced m.setup.module steps
  callState : CallStateStays m depth hostDepth s steps s'

section

variable {depth hostDepth f : Nat} {pointers blocks : List UInt32} {extra : List Int64}
  {fault : ArgumentFault} {s s₁ s' : State} {before steps : List Step} {name : String}
  {arg : Option StringArg} {r : Except Error Json}

theorem records_conclude_refused
    (h : misfit? (parameters m f) (pointers.length + extra.length) = some fault) (name : String)
    (blocks : List UInt32) (s : State) :
    m.Records (m.callFunction depth hostDepth .host)
      (conclude name extra (.ok (f, pointers), blocks)) s fun steps r s' =>
        r = .error (.invalidArgument fault) ∧ (∀ x ∈ steps, ¬ x.op.IsEntry) ∧
          CallStateStays m depth hostDepth s steps s' := by
  have haside :=
    madeOf_releaseAll (Aside.marshals.mono Op.IsRelease.isMarshal) coversHost_true blocks
  have hkept : (releaseAll blocks).MadeOf (CallStateKept m depth hostDepth) _ :=
    madeOf_releaseAll (callStateKept_marshals.mono Op.IsRelease.isMarshal) coversHost_true blocks
  change m.Records _ ((enterWith name f pointers extra).run.bind fun r =>
    (releaseAll blocks).bind fun failure => .done (scopeOutcome r failure)) s _
  rw [Machine.records_bind]
  refine (records_enterWith_refused h name s).mono ?_
  rintro _ _ _ ⟨rfl, rfl, rfl⟩
  rw [Machine.records_bind]
  intro steps failure s' hreleased
  refine Machine.records_done.mpr ⟨rfl, ?_, ?_⟩
  · rw [List.append_nil]
    exact List.forall_mem_cons.mpr ⟨by rintro ⟨⟩, haside.sorted m _ _ _ _ _ hreleased⟩
  · rw [List.append_nil]
    exact .trans (.of_eq rfl) (records_callState hkept _ _ _ _ hreleased)

theorem callWith_balanced (m : Machine) (depth hostDepth : Nat) (name : String)
    (extra : List Int64) (arg : Option StringArg) (s : State) :
    m.Records (m.callFunction depth hostDepth .host) (callWith name extra arg).run s
      fun steps _ _ => Balanced m.setup.module steps := by
  have hcall := m.callFunction_keepsScratch depth hostDepth .host
  cases arg with
  | none =>
    exact (records_of_madeOf (madeOf_call (loads_even hcall) coversHost_true name extra) s).mono
      fun _ _ _ h => h.balanced
  | some arg => exact callWithString_balanced hcall name arg extra s

theorem refused_of_misfit?
    (hprepare : Prepares m (m.callFunction depth hostDepth .host) name arg s before f pointers
      blocks s₁)
    (h : misfit? (parameters m f) (pointers.length + extra.length) = some fault)
    (htakes : m.Takes (m.callFunction depth hostDepth .host) (callWith name extra arg).run s
      (before ++ steps) r s') : Refused m depth hostDepth fault s (before ++ steps) r s' := by
  have hbalanced := callWith_balanced m depth hostDepth name extra arg s _ _ _ htakes
  rw [run_callWith, hprepare.takes_append] at htakes
  obtain ⟨hr, haside, hstays⟩ := records_conclude_refused h name blocks s₁ _ _ _ htakes
  have hsetup : (Program.ofOp .setup).MadeOf (CallStateKept m depth hostDepth) fun _ => True :=
    Program.madeOf_block fun s =>
      Machine.records_op rfl (Machine.records_done.mpr ⟨.of_eq rfl, trivial⟩)
  have hkept := (sends_prepare (callStateKept_keeps.passes coversHost_true) coversHost_true hsetup
    name arg).madeOf callStateKept_marshals coversHost_true []
  have hpassed := (aside_prepare name arg).sorted m _ _ _ _ _ hprepare
  refine ⟨hr, List.forall_mem_append.mpr ⟨hpassed, haside⟩, hbalanced, ?_⟩
  exact (records_callState hkept _ _ _ _ hprepare).trans hstays

end

/-- A function is entered in a call after these steps. It takes its arguments as they are, so that
it cannot fail for want of other ones. -/
structure Enters (m : Machine) (depth hostDepth : Nat) (name : String) (extra : List Int64)
    (arg : Option StringArg) (s : State) (steps : List Step) (f : Nat) (args : List Value) :
    Prop where
  /-- It was found, what goes before the numbers was sent, and the arguments stand for both. -/
  fits : ∃ before pointers blocks s₁, before <+: steps ∧
    Prepares m (m.callFunction depth hostDepth .host) name arg s before f pointers blocks s₁ ∧
    Leads m.setup.smallStringSize arg blocks s₁ pointers ∧
    Fits (parameters m f) pointers extra args
  accepted : m.callFunction depth hostDepth .host f args = m.accept depth hostDepth f args

/-- Whatever types a function has, and whatever is given to it: it is entered with what fits, or not
at all. -/
structure Shapes (m : Machine) (depth hostDepth : Nat) (name : String) (extra : List Int64)
    (arg : Option StringArg) (s : State) : Prop where
  entered {steps : List Step} {entered : String} {f : Nat} {args : List Value} {s' : State} :
    m.Nears (m.callFunction depth hostDepth .host) (callWith name extra arg).run s steps
      (.call (.entry entered) f args) s' →
    entered = name ∧ Enters m depth hostDepth name extra arg s steps f args
  /-- The function was found and what goes before the numbers was sent. With as many numbers as there
  are parameters left, and no reference among these, it is entered. -/
  reached {before : List Step} {f : Nat} {pointers blocks : List UInt32} {s₁ : State} :
    Prepares m (m.callFunction depth hostDepth .host) name arg s before f pointers blocks s₁ →
    (parameters m f).length = pointers.length + extra.length →
    (∀ t, .ref t ∉ parameters m f) →
    ∃ args, m.Nears (m.callFunction depth hostDepth .host) (callWith name extra arg).run s
      (before ++ entrySteps m s₁) (.call (.entry name) f args) s₁.fresh
  /-- The function was found and what goes before the numbers was sent, but there are too few or too
  many numbers, or a parameter is a reference. Then the call fails, if it comes to an end. -/
  refused {before : List Step} {f : Nat} {pointers blocks : List UInt32} {s₁ : State} :
    Prepares m (m.callFunction depth hostDepth .host) name arg s before f pointers blocks s₁ →
    (parameters m f).length ≠ pointers.length + extra.length ∨
      (∃ t, .ref t ∈ parameters m f) →
    ∃ fault, misfit? (parameters m f) (pointers.length + extra.length) = some fault ∧
      (∀ steps r s', m.Takes (m.callFunction depth hostDepth .host) (callWith name extra arg).run s
        (before ++ steps) r s' → Refused m depth hostDepth fault s (before ++ steps) r s') ∧
      (m.CallsEnd (m.callFunction depth hostDepth .host) (callWith name extra arg).run s before →
        ∃ steps r s', m.Takes (m.callFunction depth hostDepth .host) (callWith name extra arg).run s
          (before ++ steps) r s')

theorem parameters_eq {f : Nat} {type : FuncType} (h : m.setup.module.funcType? f = some type) :
    parameters m f = type.params := by
  rw [parameters, h]
  rfl

/-- At every depth of calls and from every state, with any numbers, and with any string or list
before them or none. -/
theorem calls_fit_or_are_refused (m : Machine) (depth hostDepth : Nat) (name : String)
    (extra : List Int64) (arg : Option StringArg) (s : State) :
    Shapes m depth hostDepth name extra arg s := by
  constructor
  · intro steps entered f args s' hnears
    obtain ⟨before, f, pointers, blocks, s₁, args, hprepare, hbefore, ⟨⟩, hargs⟩ :=
      meets_callWith name extra arg s _ _ _ hnears trivial
    have hfits := fits_of_arguments hargs
    refine ⟨rfl, ⟨before, pointers, blocks, s₁, hbefore, hprepare, ?_, hfits⟩, ?_⟩
    · exact records_prepare name arg s _ _ _ hprepare f pointers rfl
    · exact Machine.callFunction_eq_accept
        (fun type htype => hfits.typed.trans (parameters_eq htype)) depth hostDepth
  · intro before f pointers blocks s₁ hprepare hcount hreference
    obtain ⟨args, hargs⟩ := exists_arguments hcount hreference
    refine ⟨args, ?_⟩
    rw [run_callWith]
    exact hprepare.nears_append (nears_enterWith hargs name s₁).bind
  · intro before f pointers blocks s₁ hprepare hmisfit
    obtain ⟨fault, hfault⟩ := Option.isSome_iff_exists.mp ((misfit?_isSome _).mpr hmisfit)
    refine ⟨fault, hfault, fun steps r s' => refused_of_misfit? hprepare hfault, fun hcalls => ?_⟩
    rw [run_callWith] at hcalls ⊢
    exact hprepare.exists_append hcalls

def mixedTaker : Module :=
  { listTaker with
    funcs := listTaker.funcs ++ #[⟨⟨[.i32, .i32, .i64, .i32, .f64], []⟩, [], []⟩,
      ⟨⟨[.i32, .i32, .ref .funcref], []⟩, [], []⟩]
    exports := listTaker.exports ++ [("mixed", 5), ("held", 6)] }

def mixedMachine : Machine :=
  Instantiation.machine .standard { directoryExists := fun _ => true } mixedTaker #[]

def raisedState : State := { listState with host := { bound := true, exception := true } }

/-- A list and three numbers are taken as what they are; and where a reference is wanted, the three
blocks of a list are given back, and the exception is still there. -/
theorem calls_fit_or_are_refused_mixed :
    let call := mixedMachine.callFunction 20 10 .host
    (∃ steps args s', mixedMachine.Nears call
        (callWith "mixed" [-1, 0x100000007, 2] (some (.many ["a", "bc"]))).run raisedState steps
          (.call (.entry "mixed") 5 args) s' ∧
      args[0]? = some (.i32 2) ∧ args[2]? = some (.i64 0xffffffffffffffff) ∧
      args[3]? = some (.i32 7)) ∧
    ∃ steps s', mixedMachine.Takes call
        (callWith "held" [0] (some (.many ["a", "bc"]))).run raisedState steps
          (.error (.invalidArgument (.parameterType (.ref .funcref)))) s' ∧
      (attempts steps).length = 3 ∧ s'.host.callState = raisedState.host.callState := by
  intro call
  constructor
  · have hentry : ((mixedMachine.approach call Request.unsupported "mixed"
        (callWith "mixed" [-1, 0x100000007, 2] (some (.many ["a", "bc"]))).run raisedState).any
          fun x => x.2.1.1 == 5) = true := by
      decide +kernel
    obtain ⟨⟨steps, ⟨f, args⟩, s'⟩, hreached, hf⟩ := (Option.any_eq_true _ _).mp hentry
    obtain rfl := eq_of_beq hf
    have hnears := Machine.nears_of_approach hreached
    obtain ⟨-, ⟨before, pointers, blocks, s₁, -, -, hleads, hfits⟩, -⟩ :=
      (calls_fit_or_are_refused mixedMachine 20 10 "mixed" [-1, 0x100000007, 2]
        (some (.many ["a", "bc"])) raisedState).entered hnears
    cases hleads with
    | list _ _ _ =>
      obtain ⟨v, hlong, hv⟩ := hfits.stands 2 (-1) .i64 rfl rfl
      obtain ⟨v', hword, hv'⟩ := hfits.stands 3 0x100000007 .i32 rfl rfl
      refine ⟨steps, args, s', hnears, hfits.pointer 0 2 rfl rfl, hlong.trans (congrArg some ?_),
        hword.trans (congrArg some ?_)⟩
      · cases hv with
        | long hw => exact congrArg (fun n => Value.i64 n.toUInt64) hw
      · cases hv' with
        | word hw => exact congrArg Value.i32 (UInt32.toNat_inj.mp (Int.ofNat.inj hw))
  · have hprepared : ((mixedMachine.traced call Request.unsupported
        ((prepare "held" (some (.many ["a", "bc"]))).run.run []) raisedState).any fun x =>
          x.2.1.1.toOption.any fun y => y.1 == 6 && y.2.length == 2 &&
            (mixedMachine.traced call Request.unsupported
              (conclude "held" [0] (.ok y, x.2.1.2)) x.2.2).any fun z =>
                (attempts (x.1 ++ z.1)).length == 3) = true := by
      decide +kernel
    obtain ⟨⟨before, ⟨r, blocks⟩, s₁⟩, htraced, hprepared⟩ := (Option.any_eq_true _ _).mp hprepared
    obtain ⟨⟨f, pointers⟩, hr, hchecked⟩ := (Option.any_eq_true _ _).mp hprepared
    simp only [Bool.and_eq_true, beq_iff_eq] at hchecked
    obtain ⟨⟨rfl, hpointers⟩, hconcluded⟩ := hchecked
    obtain ⟨⟨steps, r', s'⟩, hrest, hattempts⟩ := (Option.any_eq_true _ _).mp hconcluded
    cases r with
    | error _ => cases hr
    | ok y =>
      cases hr
      have hprepare := Machine.takes_of_traced htraced
      have htakes := hprepare.takes_append.mpr (Machine.takes_of_traced hrest)
      rw [← run_callWith] at htakes
      obtain ⟨fault, hfault, hrefused, -⟩ :=
        (calls_fit_or_are_refused mixedMachine 20 10 "held" [0] (some (.many ["a", "bc"]))
          raisedState).refused hprepare (.inr ⟨.funcref, by decide⟩)
      rw [hpointers] at hfault
      cases hfault
      obtain ⟨rfl, -, -, hstays⟩ := hrefused _ _ _ htakes
      refine ⟨_, s', htakes, eq_of_beq hattempts, hstays fun c purpose hc => ?_⟩
      exact Machine.staysInside_of_no_imports rfl (htakes.of_mem hc)

end Guest

end SandboxHost

import SandboxHost.Proofs.ErrorReports

namespace SandboxHost

namespace Errno

def nameOf? (n : Int) : Option String :=
  (table.find? fun entry => decide ((entry.2 : Int) = n)).map Prod.fst

/-- An error number with nothing lost: by its name if the guest's table has that, or else itself. -/
def intact (constants : Option Constants) (n : Int) : Int32 :=
  ((nameOf? n).bind fun name => constants.bind (·.get? name)).getD (.ofInt n)

/-- The error number that the guest gets. All numbers without a name are taken for one unknown error,
which has the number zero. -/
def arriving (constants : Option Constants) (n : Int) : Int32 :=
  match nameOf? n with
  | some _ => intact constants n
  | none => (constants.bind (·.get? unknown.name)).getD 0

theorem arriving_of_named {n : Int} (h : (nameOf? n).isSome) (constants : Option Constants) :
    arriving constants n = intact constants n := by
  obtain ⟨name, hname⟩ := Option.isSome_iff_exists.mp h
  rw [arriving, hname]

theorem guestNumber_eq (constants : Option Constants) (e : Errno) :
    e.guestNumber constants = (constants.bind (·.get? e.name)).getD e.toInt32 := by
  cases constants <;> rfl

theorem number_ofNumber_of_mem {entry : String × Nat} (h : entry ∈ table) :
    (ofNumber entry.2).number = entry.2 := by
  have hknown : isNumber (entry.2 : Int).toNat = true :=
    Bool.or_eq_true_iff.mpr (.inr (List.any_eq_true.mpr ⟨entry, h, beq_self_eq_true _⟩))
  rw [ofNumber, dif_pos hknown]
  exact Int.toNat_natCast _

theorem ofNumber_of_nameless {n : Int} (h : nameOf? n = none) : ofNumber n = unknown := by
  have hnot (entry : String × Nat) (hentry : entry ∈ table) : (entry.2 : Int) ≠ n := by
    simpa using List.find?_eq_none.mp (Option.map_eq_none_iff.mp h) entry hentry
  unfold ofNumber
  split
  · next hknown =>
    have hzero : n.toNat = 0 := by
      rcases Bool.or_eq_true_iff.mp hknown with hzero | hentry
      · exact beq_iff_eq.mp hzero
      · obtain ⟨entry, hmem, heq⟩ := List.any_eq_true.mp hentry
        have hne := hnot entry hmem
        have hnumber : entry.2 = n.toNat := beq_iff_eq.mp heq
        omega
    rw [unknown, Errno.mk.injEq]
    exact hzero
  · rfl

theorem entry_of_named {n : Int} {name : String} (h : nameOf? n = some name) :
    ∃ number : Nat, (number : Int) = n ∧ (name, number) ∈ table ∧
      table.find? (fun entry => decide ((entry.2 : Int) = n)) = some (name, number) := by
  obtain ⟨⟨_, number⟩, hfound, rfl⟩ := Option.map_eq_some_iff.mp h
  have hnumber := List.find?_some hfound
  exact ⟨number, of_decide_eq_true hnumber, List.mem_of_find?_eq_some hfound, hfound⟩

theorem guestNumber_ofNumber (constants : Option Constants) (n : Int) :
    (ofNumber n).guestNumber constants = arriving constants n := by
  rw [guestNumber_eq]
  cases hname : nameOf? n with
  | none =>
    rw [ofNumber_of_nameless hname, arriving, hname]
    rfl
  | some name =>
    obtain ⟨number, rfl, hmem, hfound⟩ := entry_of_named hname
    have hnumber : (ofNumber number).number = number := number_ofNumber_of_mem hmem
    have hsame : (fun entry : String × Nat => entry.2 == (ofNumber number).number) =
        fun entry => decide ((entry.2 : Int) = number) := by
      funext entry
      rw [hnumber, Bool.eq_iff_iff, beq_iff_eq, decide_eq_true_iff, Int.natCast_inj]
    have hnamed : (ofNumber number).name = name := by
      rw [Errno.name, hsame, hfound]
    have hself : (ofNumber number).toInt32 = .ofInt number := by
      rw [toInt32, hnumber]
      rfl
    rw [hnamed, hself, arriving_of_named (by rw [hname]; rfl), intact, hname]
    rfl

/-- Where no name stands for zero, no number that has a name arrives as zero. -/
theorem arriving_ne_zero {constants : Option Constants} {n : Int} (h : (nameOf? n).isSome)
    (hvalues : ∀ c ∈ constants, ∀ entry ∈ c.entries, entry.2 ≠ 0) : arriving constants n ≠ 0 := by
  obtain ⟨name, hname⟩ := Option.isSome_iff_exists.mp h
  rw [arriving_of_named h, intact, hname, Option.bind_some]
  cases hgiven : constants.bind (·.get? name) with
  | some value =>
    obtain ⟨c, hc, hvalue⟩ := Option.bind_eq_some_iff.mp hgiven
    obtain ⟨before, after, hentries, -⟩ := List.lookup_eq_some_iff.mp hvalue
    refine hvalues c hc (name, value) ?_
    rw [hentries]
    exact List.mem_append_right _ List.mem_cons_self
  | none =>
    obtain ⟨number, rfl, hmem, -⟩ := entry_of_named hname
    have hall : ∀ entry ∈ table, Int32.ofInt (entry.2 : Int) ≠ 0 := by decide +kernel
    exact hall _ hmem

end Errno

theorem Program.MadeOf.of_sort {sort sort' : Op → Prop} {fails : Error → Prop} {α : Type}
    {P : α → Prop} {p : Program α} (hp : p.MadeOf (StepsOf sort fails) P)
    (h : ∀ {op : Op}, sort op → sort' op) : p.MadeOf (StepsOf sort' fails) P := by
  induction hp with
  | done ha => exact .done ha
  | block hb _ ih =>
    obtain ⟨op, hop⟩ := hb
    exact .block (.op op (h hop)) ih

/-- What is done about an error number: it is noted by the host, or told to a function. -/
inductive Telling where
  | noted (number : Int32)
  | told (f : Nat) (args : List Value)
  deriving DecidableEq

/-- What a step does about an error number, if it does anything. Whatever the host puts down about the
instance, the number of its last error is a part of that. -/
def Op.telling? : Op → Option Telling
  | .setHost h => some (.noted h.lastErrno)
  | .call .reportErrno f args => some (.told f args)
  | _ => none

def tellings (steps : List Step) : List Telling := steps.filterMap (·.op.telling?)

@[simp] theorem tellings_append (steps steps' : List Step) :
    tellings (steps ++ steps') = tellings steps ++ tellings steps' := List.filterMap_append

theorem tellings_eq_nil {steps : List Step} (h : ∀ x ∈ steps, x.op.telling? = none) :
    tellings steps = [] := List.filterMap_eq_nil_iff.mpr h

/-- The telling that comes after these, where this number is to be noted and then told. -/
def Telling.IsDue (number : Int32) (telling : Telling) : List Telling → Prop
  | [] => telling = .noted number
  | [.noted before] => before = number ∧ ∃ f, telling = .told f [.ofInt32 number]
  | _ => False

namespace Op

/-- Steps in which the host itself is asked for nothing; the owner of a worker may be. -/
def AsksNoHost : Op → Prop
  | .ask .awaitInput => True
  | op => op.AsksNothing

theorem AsksNothing.asksNoHost {op : Op} (h : op.AsksNothing) : op.AsksNoHost := by
  unfold AsksNoHost
  split
  · trivial
  · exact h

theorem IsNote.tells {op : Op} (h : op.IsNote) : op.Tells := by
  cases op with
  | getHost | setHost _ => trivial
  | _ => exact h.elim

theorem Tells.asksNothing {op : Op} (h : op.Tells) : op.AsksNothing := by
  cases op with
  | ask r => exact h.elim
  | _ => trivial

end Op

namespace Step

def FailedWith (n : Int) (x : Step) : Prop :=
  x.question?.bind Exchange.failure? = some (.ofIo ⟨some n⟩)

instance (n : Int) (x : Step) : Decidable (x.FailedWith n) := inferInstanceAs (Decidable (_ = _))

/-- The step came out so that a handler, called with these words, reports this error. -/
def FailedBy (args : List Int32) (e : Errno) (x : Step) : Prop :=
  x.question?.bind (Exchange.verdict? args) = some (.os e)

/-- If a function was called, it left the number of the last error as it was. -/
def LeavesErrno (x : Step) : Prop :=
  x.op.isCall → x.after.host.lastErrno = x.before.host.lastErrno

instance (x : Step) : Decidable x.LeavesErrno := inferInstanceAs (Decidable (_ = true → _ = _))

theorem FailedWith.failedBy {n : Int} {x : Step} (h : x.FailedWith n) (args : List Int32) :
    x.FailedBy args (.ofNumber n) := by
  obtain ⟨question, hquestion, hfailure⟩ := Option.bind_eq_some_iff.mp h
  rw [FailedBy, hquestion, Option.bind_some, Exchange.verdict?, hfailure]
  rfl

theorem not_failedBy {x : Step} (h : x.op.AsksNoHost) (args : List Int32) (e : Errno) :
    ¬ x.FailedBy args e := by
  obtain ⟨op, answer, s, s', t⟩ := x
  cases op with
  | ask r => cases r <;> first | exact h.elim | (rintro ⟨⟩)
  | _ => rintro ⟨⟩

end Step

/-- An error number is noted, and where the guest can be told of it, it is told, to the function that
stands for that. -/
structure Relays (module : Module) (bound : Bool) (number : Int32) (steps : List Step) (s' : State) :
    Prop where
  tellings : tellings steps = .noted number :: if bound then
      (resolved? module "setErrno" steps).toList.map fun f => .told f [.ofInt32 number]
    else []
  lastErrno : (∀ x ∈ steps, x.LeavesErrno) → s'.host.lastErrno = number
  /-- Functions are called for that alone. -/
  called : ∀ x ∈ steps, x.op.isCall → x.op.Tells

theorem Relays.cons {module : Module} {bound : Bool} {number : Int32} {steps : List Step} {s' : State}
    (h : Relays module bound number steps s') {x : Step} (hlocates : ¬ x.op.Locates "setErrno")
    (htelling : x.op.telling? = none) (hcall : x.op.isCall = false) :
    Relays module bound number (x :: steps) s' where
  tellings := by
    have hcons : SandboxHost.tellings (x :: steps) = SandboxHost.tellings steps :=
      List.filterMap_cons_none htelling
    rw [hcons, resolved?_cons hlocates]
    exact h.tellings
  lastErrno hsteps := h.lastErrno (List.forall_mem_cons.mp hsteps).2
  called := by
    refine List.forall_mem_cons.mpr ⟨fun hcalled => ?_, h.called⟩
    rw [hcall] at hcalled
    cases hcalled

section

variable {m : Machine} {call : Callee}

/-- Nothing but what the host notes and what functions do bears on the last error. -/
theorem Machine.Takes.lastErrno {α : Type} {p : Program α} {s s' : State} {steps : List Step} {a : α}
    (h : m.Takes call p s steps a s') (hset : ∀ x ∈ steps, ∀ h, x.op ≠ .setHost h)
    (hleaves : ∀ x ∈ steps, x.LeavesErrno) : s'.host.lastErrno = s.host.lastErrno := by
  induction h with
  | done _ _ => rfl
  | @step op next s s₁ s' t answer steps a hop _ ih =>
    obtain ⟨hhere, hrest⟩ := List.forall_mem_cons.mp hset
    obtain ⟨hfirst, hlater⟩ := List.forall_mem_cons.mp hleaves
    refine (ih hrest hlater).trans ?_
    cases op with
    | call purpose f args => exact hfirst rfl
    | _ =>
      exact congrArg HostState.lastErrno
        (Machine.host_of_performOp hop hhere (by rintro _ _ _ ⟨⟩))

namespace Syscall

theorem telling?_of_seeks {op : Op} {name : String} (h : op.Seeks name) : op.telling? = none := by
  unfold Op.telling?
  split
  · exact h.elim
  · exact h.elim
  · rfl

theorem records_noteErrno_tellings (e : Errno) (s : State) :
    m.Records call (noteErrno e).run s fun steps r s₁ =>
      tellings steps = [.noted (e.guestNumber s.host.constants)] ∧ (∀ x ∈ steps, x.op.IsNote) ∧
        r = (if s.host.bound then .ok (e.guestNumber s.host.constants) else .error .notBound) ∧
        s₁.host.lastErrno = e.guestNumber s.host.constants := by
  rw [noteErrno, Action.run_lift_bind]
  refine Machine.records_op rfl ?_
  rw [Action.run_lift_bind, Machine.records_bind]
  refine Machine.records_modifyHost ?_
  rw [requireBound, bind_assoc, Action.run_lift_bind]
  refine Machine.records_op rfl ?_
  dsimp only
  split <;> exact Machine.records_done.mpr ⟨rfl, by simp [Op.IsNote], rfl, rfl⟩

theorem records_tellErrno_tellings (value : Int32) (s : State) :
    m.Records call (tellErrno value).run s fun steps _ _ => (∀ x ∈ steps, ∀ h, x.op ≠ .setHost h) ∧
      (∀ x ∈ steps, x.op.Tells) ∧ tellings steps = (resolved? m.setup.module "setErrno" steps).toList.map fun f =>
        .told f [.ofInt32 value] := by
  rw [tellErrno, Action.run_lift_bind, Machine.records_bind]
  intro steps found s₁ htakes
  have hfound := Guest.records_resolved "setErrno" s steps found s₁ htakes
  have hseeks : ∀ x ∈ steps, x.op.Seeks "setErrno" :=
    (Guest.madeOf_seek id).sorted m call s steps found s₁ htakes
  have hset (x : Step) (hx : x ∈ steps) (h : HostState) : x.op ≠ .setHost h := by
    intro hop
    have hseek := hseeks x hx
    rw [hop] at hseek
    exact hseek
  have hnone := tellings_eq_nil fun x hx => telling?_of_seeks (hseeks x hx)
  cases found with
  | none =>
    refine Machine.records_done.mpr ?_
    rw [List.append_nil, ← hfound]
    exact ⟨hset, fun x hx => (hseeks x hx).tells, hnone⟩
  | some f =>
    dsimp only
    rw [Action.records_bind, Guest.records_callRaw]
    intro t returned s' _
    generalize hx : (⟨.call .reportErrno f [.ofInt32 value], returned, s₁, s', t⟩ : Step) = x
    have hlater : (∀ y ∈ steps ++ [x], ∀ h, y.op ≠ .setHost h) ∧
        (∀ y ∈ steps ++ [x], y.op.Tells) ∧ tellings (steps ++ [x]) =
          (resolved? m.setup.module "setErrno" (steps ++ [x])).toList.map fun f =>
            .told f [.ofInt32 value] := by
      subst hx
      rw [resolved?_append_right (List.forall_mem_singleton.mpr id), ← hfound, tellings_append, hnone]
      refine ⟨List.forall_mem_append.mpr ⟨hset, List.forall_mem_singleton.mpr ?_⟩,
        List.forall_mem_append.mpr ⟨fun y hy => (hseeks y hy).tells, ?_⟩, rfl⟩
      · rintro _ ⟨⟩
      · exact List.forall_mem_singleton.mpr trivial
    cases returned with
    | error e => exact hlater
    | ok results =>
      refine Machine.records_done.mpr ?_
      rw [List.append_nil]
      exact hlater

/-- An error is relayed by its number, whatever the guest does meanwhile. -/
theorem records_setErrno_relays (e : Errno) (s : State) :
    m.Records call (setErrno e).run s fun steps _ s' =>
      Relays m.setup.module s.host.bound (e.guestNumber s.host.constants) steps s' := by
  rw [setErrno_eq, Action.records_bind]
  refine (records_noteErrno_tellings e s).mono ?_
  rintro steps r s₁ ⟨hnoted, hnotes, hr, hlast⟩
  have htells (x : Step) (hx : x ∈ steps) : x.op.Tells := (hnotes x hx).tells
  cases hbound : s.host.bound with
  | false =>
    rw [hbound] at hr
    subst hr
    exact ⟨hnoted, fun _ => hlast, fun x hx _ => htells x hx⟩
  | true =>
    rw [hbound] at hr
    subst hr
    intro steps' r' s' htakes
    obtain ⟨hquiet, htells', htold⟩ := records_tellErrno_tellings _ s₁ steps' r' s' htakes
    refine ⟨?_, fun hleaves => ?_, fun x hx _ => List.forall_mem_append.mpr ⟨htells, htells'⟩ x hx⟩
    · rw [tellings_append, hnoted, htold,
        resolved?_append_left fun x hx => (hnotes x hx).not_locates _]
      rfl
    · exact (htakes.lastErrno hquiet (List.forall_mem_append.mp hleaves).2).trans hlast

theorem records_fail_relays (e : Errno) (failed : Int32) (s : State) :
    m.Records call (fail (.os e) failed).run s fun steps _ s' =>
      Relays m.setup.module s.host.bound (e.guestNumber s.host.constants) steps s' := by
  rw [fail, Action.records_bind]
  refine (records_setErrno_relays e s).mono fun steps r s₁ hrelays => ?_
  cases r with
  | error e => exact hrelays
  | ok value =>
    refine Machine.records_done.mpr ?_
    rw [List.append_nil]
    exact hrelays

theorem meets_fail_due (e : Errno) (failed : Int32) (s : State) :
    m.Meets call (fail (.os e) failed).run s fun steps op _ => ∀ telling, op.telling? = some telling →
      telling.IsDue (e.guestNumber s.host.constants) (tellings steps) := by
  rw [fail, setErrno_eq]
  refine Action.meets_bind.mpr ⟨Action.meets_bind.mpr ⟨?_, ?_⟩, ?_⟩
  · rw [noteErrno, Action.run_lift_bind]
    refine Machine.meets_op rfl (by rintro _ ⟨⟩) ?_
    rw [Program.bind]
    dsimp only
    rw [Action.run_lift_bind, Machine.meets_bind]
    have hrest : Action.MadeOf (StepsOf (fun op => op.telling? = none) fun _ => True) (fun _ => True) do
        requireBound
        return e.guestNumber s.host.constants :=
      Action.madeOf_bind (madeOf_requireBound (.op .getHost rfl)) fun _ => Action.madeOf_pure _
    refine ⟨Machine.meets_op rfl (by rintro _ ⟨⟩) ?_, fun steps _ s₁ _ => ?_⟩
    · refine Machine.meets_step.mpr ⟨?_, fun _ answer _ _ => Machine.meets_done answer⟩
      rintro _ ⟨⟩
      rfl
    · refine (Machine.meets_sorted hrest s₁).mono fun _ op _ hnone telling htell => ?_
      rw [hnone] at htell
      cases htell
  · rintro steps _ s₁ htakes value rfl
    obtain ⟨hnoted, -, hr, -⟩ := records_noteErrno_tellings e s steps _ s₁ htakes
    have hvalue : value = e.guestNumber s.host.constants := by
      split at hr
      · exact Except.ok.inj hr
      · cases hr
    rw [tellErrno, Action.run_lift_bind, Machine.meets_bind]
    refine ⟨(Machine.meets_sorted (Guest.madeOf_seek id) s₁).mono fun _ op _ hseek telling htell => ?_,
      fun steps' found s₂ hsearch => ?_⟩
    · rw [telling?_of_seeks hseek] at htell
      cases htell
    · have hseeks : ∀ x ∈ steps', x.op.Seeks "setErrno" :=
        (Guest.madeOf_seek id).sorted m call s₁ steps' found s₂ hsearch
      have hnone := tellings_eq_nil fun x hx => telling?_of_seeks (hseeks x hx)
      cases found with
      | none => exact Machine.meets_done _
      | some f =>
        refine Machine.meets_step.mpr ⟨?_, fun t returned s' _ => ?_⟩
        · rintro _ ⟨⟩
          rw [List.append_nil, tellings_append, hnoted, hnone, List.append_nil, hvalue]
          exact ⟨rfl, f, rfl⟩
        · cases returned <;> exact Machine.meets_done _
  · exact fun _ _ _ _ _ _ => Machine.meets_done _

end Syscall

theorem Follows.asksNothing {verdict : Option HostError} {failed : Int32} {a : Action Int32}
    (h : Follows verdict failed a) :
    Action.MadeOf (StepsOf Op.AsksNothing fun _ => True) (fun _ => True) a := by
  cases verdict with
  | none => exact h _ stays_asksNothing
  | some e =>
    rw [show a = Syscall.fail e failed from h]
    exact (Syscall.madeOf_fail e failed).of_sort Op.Tells.asksNothing

end

/-- Where the host fails a program like this, whatever functions of the guest do meanwhile, this number
is relayed, and not told before it is noted. -/
structure RelaysNumber (m : Machine) (call : Callee) (p : Program (Except Error Int32)) (s : State)
    (failed : Step → Prop) (number : Int32) : Prop where
  relayed : m.Records call p s fun steps _ s' => (∃ x ∈ steps, failed x) →
    Relays m.setup.module s.host.bound number steps s'
  due : m.Meets call p s fun steps op _ => (∃ x ∈ steps, failed x) →
    ∀ telling, op.telling? = some telling → telling.IsDue number (tellings steps)

section

variable {m : Machine} {call : Callee}

theorem RelaysNumber.mono {p : Program (Except Error Int32)} {s : State} {failed failed' : Step → Prop}
    {number : Int32} (h : RelaysNumber m call p s failed number) (hle : ∀ x, failed' x → failed x) :
    RelaysNumber m call p s failed' number where
  relayed := h.relayed.mono fun _ _ _ hrelays ⟨x, hx, hfail⟩ => hrelays ⟨x, hx, hle x hfail⟩
  due := h.due.mono fun _ _ _ hdue ⟨x, hx, hfail⟩ => hdue ⟨x, hx, hle x hfail⟩

theorem relaysNumber_of_asksNoHost {a : Action Int32}
    (h : Action.MadeOf (StepsOf Op.AsksNoHost fun _ => True) (fun _ => True) a) (s : State)
    (args : List Int32) (e : Errno) (number : Int32) :
    RelaysNumber m call a.run s (Step.FailedBy args e) number where
  relayed := (h.sorted m call s).mono fun _ _ _ hsteps ⟨x, hx, hfail⟩ =>
    (Step.not_failedBy (hsteps x hx) args e hfail).elim
  due := (Machine.meets_sorted_steps h s).mono fun _ _ _ hsteps ⟨x, hx, hfail⟩ =>
    (Step.not_failedBy (hsteps x hx) args e hfail).elim

section

variable {args : List Int32} {e : Errno} {s : State} {number : Int32}

theorem RelaysNumber.cons {op : Op} {answer : op.Answer} {f : op.Answer → Action Int32}
    (h : RelaysNumber m call (f answer).run s (Step.FailedBy args e) number)
    (hop : m.performOp call op s = .done (answer, s)) (hasks : op.AsksNothing)
    (hlocates : ¬ op.Locates "setErrno") (htelling : op.telling? = none)
    (hcall : op.isCall = false) :
    RelaysNumber m call (liftM (Program.ofOp op) >>= f : Action Int32).run s
      (Step.FailedBy args e) number := by
  have hlater {steps : List Step}
      (hfailed : ∃ y ∈ (⟨op, answer, s, s, []⟩ : Step) :: steps, y.FailedBy args e) :
      ∃ y ∈ steps, y.FailedBy args e := by
    obtain ⟨y, hy, hfail⟩ := hfailed
    rcases List.mem_cons.mp hy with rfl | hy
    · exact (Step.not_failedBy hasks.asksNoHost args e hfail).elim
    · exact ⟨y, hy, hfail⟩
  have hsame (steps : List Step) :
      tellings ((⟨op, answer, s, s, []⟩ : Step) :: steps) = tellings steps :=
    List.filterMap_cons_none htelling
  rw [Action.run_lift_bind]
  constructor
  · refine Machine.records_op hop (h.relayed.mono fun steps _ s' hrelays hfailed => ?_)
    exact (hrelays (hlater hfailed)).cons hlocates htelling hcall
  · refine Machine.meets_op hop (fun ⟨_, hx, _⟩ => (List.not_mem_nil hx).elim) ?_
    refine h.due.mono fun steps op' _ hdue hfailed => ?_
    rw [hsame]
    exact hdue (hlater hfailed)

/-- What a question leads to is relayed, and nothing else. -/
theorem relaysNumber_ask {r : Request} {f : r.Answer → Action Int32} {failed : Int32}
    (hfollows : ∀ answer, Follows (Exchange.verdict? args ⟨r, answer⟩) failed (f answer)) :
    RelaysNumber m call (liftM (Program.ask r) >>= f : Action Int32).run s (Step.FailedBy args e)
      (e.guestNumber s.host.constants) := by
  rw [Action.run_lift_bind]
  constructor
  · refine Machine.records_step.mpr fun t answer s₁ hends => ?_
    obtain ⟨_, _, hdone, -⟩ := Dialogue.ends_ask.mp hends
    cases hdone
    rintro steps r s' htakes ⟨x, hx, hfail⟩
    rcases List.mem_cons.mp hx with rfl | hx
    · have hfails := hfollows answer
      rw [show Exchange.verdict? args ⟨_, answer⟩ = some (.os e) from hfail] at hfails
      have hrelays : m.Records call _ s _ := Syscall.records_fail_relays e failed s
      rw [← show _ = Syscall.fail _ failed from hfails] at hrelays
      exact (hrelays steps r s' htakes).cons id rfl rfl
    · have hasks := (hfollows answer).asksNothing.sorted m call s steps r s' htakes x hx
      exact (Step.not_failedBy hasks.asksNoHost args e hfail).elim
  · refine Machine.meets_step.mpr
      ⟨fun ⟨_, hx, _⟩ => (List.not_mem_nil hx).elim, fun t answer s₁ hends => ?_⟩
    obtain ⟨_, _, hdone, -⟩ := Dialogue.ends_ask.mp hends
    cases hdone
    rintro steps op s' hnears ⟨x, hx, hfail⟩
    rcases List.mem_cons.mp hx with rfl | hx
    · have hfails := hfollows answer
      rw [show Exchange.verdict? args ⟨_, answer⟩ = some (.os e) from hfail] at hfails
      have hdue : m.Meets call _ s _ := Syscall.meets_fail_due e failed s
      rw [← show _ = Syscall.fail _ failed from hfails] at hdue
      exact hdue steps op s' hnears
    · have hasks := Machine.meets_sorted_steps (hfollows answer).asksNothing s steps op s' hnears x hx
      exact (Step.not_failedBy hasks.asksNoHost args e hfail).elim

theorem Inquires.relaysNumber {failed : Int32} {a : Action Int32}
    (h : Inquires m.setup args failed a) :
    RelaysNumber m call a.run s (Step.FailedBy args e) (e.guestNumber s.host.constants) := by
  induction h with
  | silent h =>
    exact relaysNumber_of_asksNoHost ((h _ stays_asksNothing).of_sort Op.AsksNothing.asksNoHost) ..
  | survey _ ih => exact ih.cons rfl trivial id rfl rfl
  | look _ ih => exact (ih s.host).cons rfl trivial id rfl rfl
  | ask hfollows => exact relaysNumber_ask hfollows

end

end

namespace Handler

variable {m : Machine} {call : Callee}

theorem relaysNumber_readInput (hblocking : m.setup.blocking = true) (buffer : UInt32) (room : Nat)
    (args : List Int32) (e : Errno) (s : State) (number : Int32) :
    RelaysNumber m call (readInput buffer room).run s (Step.FailedBy args e) number := by
  have hedit (f : HostState → HostState) :
      (Program.modifyHost f).MadeOf (StepsOf Op.AsksNoHost fun _ => True) fun _ => True :=
    Program.madeOf_bind (Program.madeOf_block (.op .getHost trivial)) fun _ _ =>
      Program.madeOf_block (.op (.setHost _) trivial)
  have hstays : Stays (StepsOf Op.AsksNoHost fun _ => True) :=
    .of_mute (fun op hop => .op op hop.asksNothing.asksNoHost) fun _ => hedit _
  have hinput : (ownerInput room).MadeOf (StepsOf Op.AsksNoHost fun _ => True) fun _ => True := by
    refine Program.madeOf_bind (Program.madeOf_block (.op .getHost trivial)) fun host _ => ?_
    have hrest (available : List UInt8) :
        Program.MadeOf (StepsOf Op.AsksNoHost fun _ => True) (fun _ => True) (do
          Program.modifyHost fun h => { h with kept := available.drop room }
          return available.take room) :=
      Program.madeOf_bind (hedit _) fun _ _ => .done trivial
    dsimp only
    split
    · exact Program.madeOf_bind (Program.madeOf_block (.op (.ask .awaitInput) trivial))
        fun available _ => hrest available
    · exact hrest _
  have hrest : Action.MadeOf (StepsOf Op.AsksNoHost fun _ => True) (fun _ => True)
      (liftM (ownerInput room) >>= deliver buffer room) :=
    Action.madeOf_lift_bind hinput fun bytes _ => hstays.deliver buffer room bytes
  have hsurvey : m.performOp call .setup s = .done (m.setup, s) := rfl
  refine RelaysNumber.cons ?_ hsurvey trivial id rfl rfl
  rw [if_pos hblocking]
  exact relaysNumber_of_asksNoHost hrest ..

/-- Every failure that a handler reports is relayed by its number. -/
theorem relaysNumber (h : Handler) (hh : h.isHostBacked) (args : List Int32) (e : Errno)
    (s : State) : RelaysNumber m call (h.program args).run s (Step.FailedBy args e)
      (e.guestNumber s.host.constants) := by
  by_cases howner : m.setup.blocking = true ∧ h = .readStdin
  · obtain ⟨hblocking, rfl⟩ := howner
    exact relaysNumber_readInput hblocking ..
  · have hreads : m.setup.blocking = false ∨ h ≠ .readStdin := by
      rw [← Bool.not_eq_true]
      exact Decidable.not_and_iff_not_or_not.mp howner
    exact (h.inquires_unless_owner hh hreads args).relaysNumber

/-- Whatever the arguments, the guest's table, the number and the place of the instance are: where the
host fails a handler with an error number of the system, there is one number that the handler notes
and then tells the guest, and it is the last error in the end if the functions called leave that
alone. With a name, the error number stays intact, and it becomes zero only if some name of the table
stands for zero. Without a name, it becomes the number of the unknown error. -/
theorem relays_numbers (m : Machine) (call : Callee) (h : Handler) (args : List Int32) (s : State)
    (n : Int) (hh : h.isHostBacked) :
    ∃ number, RelaysNumber m call (h.program args).run s (Step.FailedWith n) number ∧
      ((Errno.nameOf? n).isSome → number = Errno.intact s.host.constants n ∧
        ((∀ c ∈ s.host.constants, ∀ entry ∈ c.entries, entry.2 ≠ 0) → number ≠ 0)) ∧
      (Errno.nameOf? n = none →
        number = (s.host.constants.bind (·.get? Errno.unknown.name)).getD 0) := by
  refine ⟨Errno.arriving s.host.constants n, ?_, fun hnamed => ?_, fun hnone => ?_⟩
  · rw [← Errno.guestNumber_ofNumber]
    exact (h.relaysNumber hh args (.ofNumber n) s).mono fun _ hfail => hfail.failedBy args
  · exact ⟨Errno.arriving_of_named hnamed _, Errno.arriving_ne_zero hnamed⟩
  · rw [Errno.arriving, hnone]

/-- The guest's table has a number for the name. -/
theorem relays_numbers_kill :
    let call := errorMachine.callFunction 20 10 .host
    ∃ steps r s', Handler.kill.isHostBacked ∧
      errorMachine.Takes call (Handler.kill.program [1, 0]).run errorState steps r s' ∧
      (∃ x ∈ steps, x.FailedWith 3) ∧ tellings steps = [.noted 71, .told 1 [.i32 71]] ∧
      s'.host.lastErrno = 71 := by
  intro call
  have hrun : ((errorMachine.traced call emptyHost (Handler.kill.program [1, 0]).run
      errorState).any fun x => decide (∃ y ∈ x.1, y.FailedWith 3) &&
        decide (∀ y ∈ x.1, y.LeavesErrno) &&
        decide (resolved? errorKeeper "setErrno" x.1 = some 1)) = true := by
    decide +kernel
  obtain ⟨⟨steps, r, s'⟩, htraced, hchecked⟩ := (Option.any_eq_true _ _).mp hrun
  simp only [Bool.and_eq_true, decide_eq_true_eq] at hchecked
  obtain ⟨⟨hfailed, hleaves⟩, hresolved⟩ := hchecked
  have htakes := Machine.takes_of_traced htraced
  obtain ⟨number, hrelays, hnamed, -⟩ :=
    relays_numbers errorMachine call .kill [1, 0] errorState 3 rfl
  have hnumber : number = 71 := (hnamed (by decide +kernel)).1.trans (by decide +kernel)
  subst hnumber
  have htold := hrelays.relayed steps r s' htakes hfailed
  have hbound : errorState.host.bound = true := rfl
  have hmodule : errorMachine.setup.module = errorKeeper := rfl
  have htellings := htold.tellings
  rw [hbound, hmodule, hresolved] at htellings
  exact ⟨steps, r, s', rfl, htakes, hfailed, htellings, htold.lastErrno hleaves⟩

/-- A host that cannot tell its directory, for a reason that has a number and no name. -/
def aloofHost : (r : Request) → r.Answer
  | .workingDirectory => .error ⟨some 41⟩
  | r => r.unsupported

def directoryError? : Step → Option Int
  | ⟨.ask .workingDirectory, .ok _, _, _, _⟩ => none
  | ⟨.ask .workingDirectory, .error e, _, _, _⟩ => e.number
  | _ => none

/-- A number without a name is lost: the handler fails, and the guest is told the number for no error
at all, though nothing in its table stands for zero. -/
theorem exists_number_lost :
    let call := errorMachine.callFunction 20 10 .host
    ∃ steps s', errorMachine.Takes call (Handler.getcwd.program [0, 0]).run errorState steps
        (.ok Handler.getcwd.failed) s' ∧
      steps.findSome? directoryError? = some 41 ∧
      (∀ c ∈ errorState.host.constants, ∀ entry ∈ c.entries, entry.2 ≠ 0) ∧
      Errno.intact errorState.host.constants 41 = 41 ∧
      tellings steps = [.noted 0, .told 1 [.i32 0]] ∧ s'.host.lastErrno = 0 := by
  intro call
  have hrun : ((errorMachine.traced call aloofHost (Handler.getcwd.program [0, 0]).run
      errorState).any fun x => (match x.2.1 with | .ok value => value == 0 | .error _ => false) &&
        decide (x.1.findSome? directoryError? = some 41) &&
        decide (tellings x.1 = [.noted 0, .told 1 [.i32 0]]) &&
        decide (x.2.2.host.lastErrno = 0)) = true := by
    decide +kernel
  obtain ⟨⟨steps, r, s'⟩, htraced, hchecked⟩ := (Option.any_eq_true _ _).mp hrun
  simp only [Bool.and_eq_true, decide_eq_true_eq] at hchecked
  obtain ⟨⟨⟨hvalue, herror⟩, htellings⟩, hlast⟩ := hchecked
  cases r with
  | error e => cases hvalue
  | ok value =>
    obtain rfl : value = 0 := beq_iff_eq.mp hvalue
    refine ⟨steps, s', Machine.takes_of_traced htraced, herror, ?_, ?_, htellings, hlast⟩
    · decide +kernel
    · decide +kernel

end Handler

end SandboxHost

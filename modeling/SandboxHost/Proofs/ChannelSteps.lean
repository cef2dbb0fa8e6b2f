import SandboxHost.Host.Native
import SandboxHost.Proofs.Trace
import SandboxHost.Worker.Channel

namespace SandboxHost

namespace Worker

/-- The number that a job's reply repeats. -/
def Job.id? : Job → Option UInt64
  | .load _ _ => none
  | .call _ _ id | .callWithString _ _ _ id => some id

/-- What a step does to the things that both sides share. -/
inductive Mark where
  | began (job : Job)
  /-- The worker has had an answer from outside. -/
  | talked (x : Exchange)
  | armed
  | posted (n : Notice)
  | waited
  | woke (count : Int32)
  | took (bytes : List UInt8)
  | finished (m : Message)
  | resized (capacity : Nat)
  | sent (job : Job)
  | received (m : Message)
  | refused
  | filled (bytes : List UInt8) (capacity : Nat)
  | stored (count : Int32)
  | called

inductive Move.Leads : Move → Channel → Prop where
  | to (c : Channel) : Leads (.to c) c
  | ask {r : Request} {next : r.Answer → Channel} (answer : r.Answer) :
    Leads (.ask r next) (next answer)

/-- Whatever the worker is told, all that it may end its job with has the property. -/
def Thread.EndsWith (P : Finished → Prop) : Thread → Prop
  | .idle _ => True
  | .busy d => d.Always P
  | .armed _ resume | .posted _ resume | .woken _ resume => ∀ bytes, (resume bytes).Always P

namespace Channel

/-- A move of the worker. -/
inductive Works (c : Channel) : Mark → Channel → Prop where
  | begin {inst : Option Instance} {job : Job} {rest : List Job} :
    c.thread = .idle inst → c.jobs = job :: rest →
    Works c (.began job) { c with jobs := rest, thread := .busy (work c.surroundings inst job) }
  | finish {f : Finished} : c.thread = .busy (.done f) →
    Works c (.finished f.message)
      { c with thread := .idle f.inst, outbox := c.outbox ++ [f.message] }
  | armToSleep {ms : Nat} {next : Unit → Dialogue Finished} :
    c.thread = .busy (.ask (.pause ms) next) →
    Works c .armed
      { c with shared := c.shared.arm, thread := .armed (.sleep ms.toUInt64) fun _ => next () }
  | armToRead {next : List UInt8 → Dialogue Finished} : c.thread = .busy (.ask .awaitInput next) →
    Works c .armed { c with shared := c.shared.arm, thread := .armed .waitForInput next }
  | talk {r : Request} {next : r.Answer → Dialogue Finished} (answer : r.Answer) :
    r.isForOwner = false → c.thread = .busy (.ask r next) →
    Works c (.talked ⟨r, answer⟩) { c with thread := .busy (next answer) }
  | post {n : Notice} {resume : List UInt8 → Dialogue Finished} : c.thread = .armed n resume →
    Works c (.posted n)
      { c with outbox := c.outbox ++ [.notice n], thread := .posted .looking resume }
  | look {resume : List UInt8 → Dialogue Finished} :
    c.thread = .posted .looking resume → c.shared.isPending = true →
    Works c .waited { c with thread := .posted .dozing resume }
  | wake {resume : List UInt8 → Dialogue Finished} :
    c.thread = .posted .looking resume → c.shared.isPending = false →
    Works c (.woke c.shared.word) { c with thread := .woken c.shared.word resume }
  | doze {resume : List UInt8 → Dialogue Finished} : c.thread = .posted .dozing resume →
    Works c .waited
      { c with thread := .posted (if c.shared.isPending then .asleep else .looking) resume }
  | take {count : Int32} {resume : List UInt8 → Dialogue Finished} :
    c.thread = .woken count resume →
    Works c (.took (c.shared.take count.toNatClampNeg))
      { c with thread := .busy (resume (c.shared.take count.toNatClampNeg)) }

@[simp] theorem not_leads_stuck {c : Channel} : ¬ Move.stuck.Leads c := nofun

@[simp] theorem leads_to {c c' : Channel} : (Move.to c).Leads c' ↔ c' = c := by
  constructor
  · rintro ⟨⟩
    rfl
  · rintro rfl
    exact .to _

@[simp] theorem leads_ask {r : Request} {next : r.Answer → Channel} {c : Channel} :
    (Move.ask r next).Leads c ↔ ∃ answer, c = next answer := by
  constructor
  · rintro ⟨⟩
    exact ⟨_, rfl⟩
  · rintro ⟨answer, rfl⟩
    exact .ask answer

theorem Works.leads {c c' : Channel} {k : Mark} (h : c.Works k c') : c.threadMove.Leads c' := by
  cases h with
  | begin hthread hjobs => simp only [threadMove, hthread, hjobs, leads_to]
  | @talk r next answer hr hthread =>
    cases r with
    | pause _ | awaitInput => cases hr
    | _ =>
      simp only [threadMove, hthread]
      exact .ask answer
  | look hthread hpending =>
    simp only [threadMove, hthread, SharedBlock.wait?, hpending, if_true, leads_to]
  | wake hthread hpending =>
    simp only [threadMove, hthread, SharedBlock.wait?, hpending, Bool.false_eq_true, if_false,
      leads_to]
  | finish hthread | armToSleep hthread | armToRead hthread | post hthread | doze hthread
    | take hthread => simp only [threadMove, hthread, leads_to]

theorem exists_works_of_leads {c c' : Channel} (h : c.threadMove.Leads c') :
    ∃ k, c.Works k c' := by
  cases hthread : c.thread with
  | idle inst =>
    cases hjobs : c.jobs with
    | nil => simp only [threadMove, hthread, hjobs, not_leads_stuck] at h
    | cons job rest =>
      simp only [threadMove, hthread, hjobs, leads_to] at h
      subst h
      exact ⟨_, .begin hthread hjobs⟩
  | busy d =>
    cases d with
    | done f =>
      simp only [threadMove, hthread, leads_to] at h
      subst h
      exact ⟨_, .finish hthread⟩
    | diverged => simp only [threadMove, hthread, not_leads_stuck] at h
    | ask r next =>
      cases r with
      | pause ms =>
        simp only [threadMove, hthread, leads_to] at h
        subst h
        exact ⟨_, .armToSleep hthread⟩
      | awaitInput =>
        simp only [threadMove, hthread, leads_to] at h
        subst h
        exact ⟨_, .armToRead hthread⟩
      | _ =>
        simp only [threadMove, hthread, leads_ask] at h
        obtain ⟨answer, rfl⟩ := h
        exact ⟨_, .talk answer rfl hthread⟩
  | armed n resume =>
    simp only [threadMove, hthread, leads_to] at h
    subst h
    exact ⟨_, .post hthread⟩
  | posted wait resume =>
    cases wait with
    | looking =>
      cases hpending : c.shared.isPending <;>
        simp only [threadMove, hthread, SharedBlock.wait?, hpending, if_true, Bool.false_eq_true,
          if_false, leads_to] at h
      · subst h
        exact ⟨_, .wake hthread hpending⟩
      · subst h
        exact ⟨_, .look hthread hpending⟩
    | dozing =>
      simp only [threadMove, hthread, leads_to] at h
      subst h
      exact ⟨_, .doze hthread⟩
    | asleep => simp only [threadMove, hthread, not_leads_stuck] at h
  | woken count resume =>
    simp only [threadMove, hthread, leads_to] at h
    subst h
    exact ⟨_, .take hthread⟩

/-- The rules are the worker's moves. -/
theorem works_iff {c c' : Channel} : (∃ k, c.Works k c') ↔ c.threadMove.Leads c' :=
  ⟨fun ⟨_, h⟩ => h.leads, exists_works_of_leads⟩

theorem Works.endsWith {P : Finished → Prop} {c c' : Channel} {k : Mark}
    (hwork : ∀ inst job, (work c.surroundings inst job).Always P) (hp : c.thread.EndsWith P)
    (h : c.Works k c') : c'.thread.EndsWith P := by
  cases h with
  | begin => exact hwork _ _
  | finish => trivial
  | armToSleep hthread =>
    rw [hthread] at hp
    exact fun _ => Dialogue.always_ask.mp hp ()
  | armToRead hthread =>
    rw [hthread] at hp
    exact Dialogue.always_ask.mp hp
  | talk answer _ hthread =>
    rw [hthread] at hp
    exact Dialogue.always_ask.mp hp answer
  | take hthread =>
    rw [hthread] at hp
    exact hp _
  | post hthread | look hthread | wake hthread | doze hthread =>
    rw [hthread] at hp
    exact hp

def handed : Except String (List UInt8) → List UInt8
  | .ok bytes => bytes
  | .error _ => []

/-- A move of an owner in the middle of an operation. -/
inductive Serves (c : Channel) : Mark → Channel → Prop where
  | send {name : String} {o : Options} : c.owner = .resized name o →
    Serves c (.sent (.load name o))
      { c with jobs := c.jobs ++ [.load name o], owner := .expecting .loaded }
  | receive {goal : Goal} {m : Message} {rest : List Message} :
    c.owner = .expecting goal → c.outbox = m :: rest →
    Serves c (.received m) ({ c with outbox := rest }.receive goal m)
  | sleep {goal : Goal} {ms : UInt64} : c.owner = .serving goal (.sleep ms) →
    Serves c (.filled [] c.shared.capacity) (c.serve goal (.ok []))
  | read {goal : Goal} (answer : Except String (List UInt8)) :
    c.owner = .serving goal .waitForInput →
    Serves c (.filled (handed answer) c.shared.capacity) (c.serve goal answer)
  | refuse {goal : Goal} {status : LoadStatus} {text : Option String} :
    c.owner = .serving goal (.loaded status text) →
    Serves c .refused (c.finish (.error (.protocol .unexpectedInit)))
  | store {goal : Goal} {count : Int32} {failure : Option String} :
    c.owner = .filled goal count failure →
    Serves c (.stored count)
      { c with shared := c.shared.complete count, owner := .stored goal failure }
  | call {goal : Goal} {failure : Option String} : c.owner = .stored goal failure →
    Serves c .called (c.rouse.goOn goal failure)

theorem Serves.leads {c c' : Channel} {k : Mark} (h : c.Serves k c') : c.ownerMove.Leads c' := by
  cases h with
  | receive howner hbox => simp only [ownerMove, howner, hbox, leads_to]
  | sleep howner =>
    simp only [ownerMove, howner]
    exact .ask ()
  | read answer howner =>
    simp only [ownerMove, howner]
    exact leads_ask.mpr ⟨answer, rfl⟩
  | send howner | refuse howner | store howner | call howner =>
    simp only [ownerMove, howner, leads_to]

theorem exists_serves_of_leads {c c' : Channel} (h : c.ownerMove.Leads c') :
    ∃ k, c.Serves k c' := by
  cases howner : c.owner with
  | free outcome => simp only [ownerMove, howner, not_leads_stuck] at h
  | resized name o =>
    simp only [ownerMove, howner, leads_to] at h
    subst h
    exact ⟨_, .send howner⟩
  | expecting goal =>
    cases hbox : c.outbox with
    | nil => simp only [ownerMove, howner, hbox, not_leads_stuck] at h
    | cons m rest =>
      simp only [ownerMove, howner, hbox, leads_to] at h
      have hstep := Serves.receive howner hbox
      rw [howner] at hstep
      subst h
      exact ⟨_, hstep⟩
  | serving goal n =>
    cases n with
    | loaded status text =>
      simp only [ownerMove, howner, leads_to] at h
      subst h
      exact ⟨_, .refuse howner⟩
    | sleep ms =>
      simp only [ownerMove, howner, leads_ask] at h
      obtain ⟨⟨⟩, rfl⟩ := h
      exact ⟨_, .sleep howner⟩
    | waitForInput =>
      simp only [ownerMove, howner, leads_ask] at h
      obtain ⟨answer, rfl⟩ := h
      exact ⟨_, .read answer howner⟩
  | filled goal count failure =>
    simp only [ownerMove, howner, leads_to] at h
    subst h
    exact ⟨_, .store howner⟩
  | stored goal failure =>
    simp only [ownerMove, howner, leads_to] at h
    subst h
    exact ⟨_, .call howner⟩

/-- The rules are the owner's moves. -/
theorem serves_iff {c c' : Channel} : (∃ k, c.Serves k c') ↔ c.ownerMove.Leads c' :=
  ⟨fun ⟨_, h⟩ => h.leads, exists_serves_of_leads⟩

theorem receive_eq (c : Channel) (goal : Goal) (m : Message) :
    c.receive goal m = { c with owner := (c.receive goal m).owner } := by
  unfold receive
  split <;> try rfl
  split <;> rfl

theorem goOn_eq (c : Channel) (goal : Goal) (failure : Option String) :
    c.goOn goal failure = { c with owner := (c.goOn goal failure).owner } := by
  cases failure <;> rfl

theorem rouse_eq (c : Channel) : c.rouse = { c with thread := c.rouse.thread } := by
  unfold rouse
  split <;> rfl

theorem Serves.thread {c c' : Channel} {k : Mark} (h : c.Serves k c') :
    c'.thread = c.thread ∨ c'.thread = c.rouse.thread := by
  cases h with
  | receive =>
    rw [receive_eq]
    exact .inl rfl
  | read answer => cases answer <;> exact .inl rfl
  | call =>
    rw [goOn_eq]
    exact .inr rfl
  | _ => exact .inl rfl

theorem rouse_endsWith {P : Finished → Prop} {c : Channel} (h : c.thread.EndsWith P) :
    c.rouse.thread.EndsWith P := by
  unfold rouse
  split
  · next hthread =>
    rw [hthread] at h
    exact h
  · exact h

/-- One step of either side. -/
inductive Step (c : Channel) : Mark → Channel → Prop where
  | worker {k : Mark} {c' : Channel} : c.Works k c' → Step c k c'
  | owner {k : Mark} {c' : Channel} : c.Serves k c' → Step c k c'
  | load {outcome : Except Error Json} (name : String) (o : Options) : c.owner = .free outcome →
    Step c (.resized o.stdinBufferSize.toNat) (c.requestLoad name o)
  | call {outcome : Except Error Json} {job : UInt64 → Job} :
    (∀ id, (job id).id? = some id) → c.owner = .free outcome →
    Step c (.sent (job (c.lastId + 1))) (c.requestCall job)
  | stir {resume : List UInt8 → Dialogue Finished} : c.thread = .posted .asleep resume →
    Step c .waited { c with thread := .posted .looking resume }

theorem Step.surroundings {c c' : Channel} {k : Mark} (h : c.Step k c') :
    c'.surroundings = c.surroundings := by
  cases h with
  | worker h => cases h <;> rfl
  | owner h =>
    cases h with
    | receive => rw [receive_eq]
    | read answer => cases answer <;> rfl
    | call => rw [goOn_eq, rouse_eq]
    | _ => rfl
  | _ => rfl

theorem Step.endsWith {P : Finished → Prop} {c c' : Channel} {k : Mark}
    (hwork : ∀ inst job, (work c.surroundings inst job).Always P) (hp : c.thread.EndsWith P)
    (h : c.Step k c') : c'.thread.EndsWith P := by
  cases h with
  | worker h => exact h.endsWith hwork hp
  | owner h =>
    obtain heq | heq := h.thread
    · rwa [heq]
    · rw [heq]
      exact rouse_endsWith hp
  | load | call => exact hp
  | stir hthread =>
    rw [hthread] at hp
    exact hp

/-- Steps in a row, and what each of them does. -/
inductive Run (c : Channel) : List Mark → Channel → Prop where
  | nil : Run c [] c
  | concat {ks : List Mark} {k : Mark} {c₁ c' : Channel} :
    Run c ks c₁ → Step c₁ k c' → Run c (ks ++ [k]) c'

theorem Run.trans {c c₁ c' : Channel} {ks ks' : List Mark} (h : Run c ks c₁) (h' : Run c₁ ks' c') :
    Run c (ks ++ ks') c' := by
  induction h' with
  | nil => rwa [List.append_nil]
  | concat _ hstep ih =>
    rw [← List.append_assoc]
    exact .concat ih hstep

theorem Step.run {c c' : Channel} {k : Mark} (h : c.Step k c') : Run c [k] c' := .concat .nil h

/-- What holds at first, and after each step if before it, holds after every run. -/
theorem Run.preserves {P : List Mark → Channel → Prop} {c c' : Channel} {ks : List Mark}
    (h : Run c ks c') (hfirst : P [] c)
    (hstep : ∀ ks k c₁ c', P ks c₁ → Step c₁ k c' → P (ks ++ [k]) c') : P ks c' := by
  induction h with
  | nil => exact hfirst
  | concat _ hk ih => exact hstep _ _ _ _ ih hk

theorem exists_run_of_thread {c c' : Channel} (h : c.threadMove.Leads c') : ∃ ks, Run c ks c' := by
  obtain ⟨k, hk⟩ := exists_works_of_leads h
  exact ⟨[k], (Step.worker hk).run⟩

theorem exists_run_of_owner {c c' : Channel} (h : c.ownerMove.Leads c') : ∃ ks, Run c ks c' := by
  obtain ⟨k, hk⟩ := exists_serves_of_leads h
  exact ⟨[k], (Step.owner hk).run⟩

/-- An operation that is run to its end is one of the runs. -/
theorem settle_runs {patience : Nat} {c c' : Channel} {t : Trace}
    (h : (settle patience c).Ends t c') :
    (∃ ks, Run c ks c') ∧ ∃ outcome, c'.owner = .free outcome := by
  have hgoes {c₁ c₂ : Channel} (hfirst : ∃ ks, Run c₁ ks c₂)
      (hrest : (∃ ks, Run c₂ ks c') ∧ ∃ outcome, c'.owner = .free outcome) :
      (∃ ks, Run c₁ ks c') ∧ ∃ outcome, c'.owner = .free outcome :=
    ⟨hfirst.elim fun ks hks => hrest.1.elim fun ks' hks' => ⟨ks ++ ks', hks.trans hks'⟩, hrest.2⟩
  -- Each round of `settle` is one move of one side, and so one step.
  induction patience generalizing c t with
  | zero => exact absurd h Dialogue.not_ends_diverged
  | succ patience ih =>
    rw [settle] at h
    split at h
    · next howner =>
      obtain ⟨-, rfl⟩ := Dialogue.ends_done.mp h
      exact ⟨⟨[], .nil⟩, _, howner⟩
    · split at h
      · next hmove => exact hgoes (exists_run_of_owner (hmove ▸ .to _)) (ih h)
      · next hmove =>
        obtain ⟨answer, t', h, -⟩ := Dialogue.ends_ask.mp h
        exact hgoes (exists_run_of_owner (hmove ▸ .ask answer)) (ih h)
      · split at h
        · next hmove => exact hgoes (exists_run_of_thread (hmove ▸ .to _)) (ih h)
        · next hmove =>
          obtain ⟨answer, t', h, -⟩ := Dialogue.ends_ask.mp h
          exact hgoes (exists_run_of_thread (hmove ▸ .ask answer)) (ih h)
        · exact absurd h Dialogue.not_ends_diverged

/-- Operations that are run to their end are runs, from one free owner to the next. -/
theorem complete_runs {c c' : Channel} {t : Trace} {outcome : Except Error Json}
    (h : c.complete.Ends t (outcome, c')) : (∃ ks, Run c ks c') ∧ c'.owner = .free outcome := by
  obtain ⟨_, c₁, _, hsettle, hend, -⟩ := Dialogue.ends_bind.mp h
  obtain ⟨hrun, outcome₁, howner⟩ := settle_runs hsettle
  rw [howner] at hend
  cases hend
  exact ⟨hrun, howner⟩

theorem loadModule_runs {c c' : Channel} {t : Trace} {name : String} {o : Options}
    {outcome outcome' : Except Error Json} (howner : c.owner = .free outcome)
    (h : (c.loadModule name o).Ends t (outcome', c')) :
    (∃ ks, Run c ks c') ∧ c'.owner = .free outcome' := by
  obtain ⟨⟨ks, hrun⟩, hfree⟩ := complete_runs h
  exact ⟨⟨_, (Step.load name o howner).run.trans hrun⟩, hfree⟩

theorem requestCall_runs {c c' : Channel} {t : Trace} {job : UInt64 → Job}
    {outcome outcome' : Except Error Json} (hjob : ∀ id, (job id).id? = some id)
    (howner : c.owner = .free outcome) (h : (c.requestCall job).complete.Ends t (outcome', c')) :
    (∃ ks, Run c ks c') ∧ c'.owner = .free outcome' := by
  obtain ⟨⟨ks, hrun⟩, hfree⟩ := complete_runs h
  exact ⟨⟨_, (Step.call hjob howner).run.trans hrun⟩, hfree⟩

theorem run_load_sent (s : Surroundings) (name : String) (o : Options) :
    Run (spawn s) [.resized o.stdinBufferSize.toNat, .sent (.load name o)]
      ⟨s, .idle none, [.load name o], [],
        (SharedBlock.new defaultBufferSize.toNat).resize o.stdinBufferSize.toNat,
        .expecting .loaded, 0⟩ :=
  (Run.nil.concat (.load name o rfl)).concat (.owner (.send rfl))

/-- A module with a function that reads up to three bytes of input. -/
def inputReader : Module where
  memory := some ⟨1, none, some Module.memoryExport, none⟩
  table := none
  globals := []
  data := []
  imports := #[⟨Instantiation.namespaceOfHandlers, Handler.readStdin.name, ⟨[.i32, .i32], [.i32]⟩⟩]
  funcs := #[⟨⟨[], [.i32]⟩, [],
    [.call 0 [.apply (.const (.i32 8)) [], .apply (.const (.i32 3)) []]]⟩]
  exports := [("read", 1)]
  start := none

def readOnce : Dialogue (Except Error Json × Channel) :=
  ((spawn ⟨fun _ => some inputReader, fun _ => true⟩).loadModule "reader"
    { config := .standard }).bind
    fun x => x.2.call "read" []

def fourBytes : (r : Request) → r.Answer
  | .readOwner _ => .ok [97, 98, 99, 100]
  | r => r.unsupported

theorem exists_reading_run : ∃ ks c outcome,
    Run (spawn ⟨fun _ => some inputReader, fun _ => true⟩) ks c ∧ c.owner = .free outcome ∧
      outcome.toOption.bind Json.toInt64? = some 3 ∧ c.jobs = [] ∧ c.outbox = [] := by
  have h : (readOnce.answered fourBytes).any (fun x =>
      x.1.toOption.bind Json.toInt64? = some 3 ∧ x.2.jobs.isEmpty ∧ x.2.outbox.isEmpty) = true := by
    decide +kernel
  obtain ⟨t, x, hends, hx⟩ := Dialogue.exists_ends_of_any_answered h
  obtain ⟨_, ⟨_, c₁⟩, _, hload, hcall, -⟩ := Dialogue.ends_bind.mp hends
  obtain ⟨⟨ks, hrun⟩, hfree⟩ := loadModule_runs rfl hload
  obtain ⟨⟨ks', hrun'⟩, hfree'⟩ := requestCall_runs (fun _ => rfl) hfree hcall
  simp only [decide_eq_true_eq, List.isEmpty_iff] at hx
  exact ⟨_, x.2, x.1, hrun.trans hrun', hfree', hx⟩

end Channel

end Worker

end SandboxHost

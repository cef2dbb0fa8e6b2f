import SandboxHost.Host.Native
import SandboxHost.Proofs.Entering
import SandboxHost.Proofs.HonestAllocator
import SandboxHost.Proofs.TextBytes

namespace SandboxHost

namespace Guest

variable {m : Machine} {call : Callee}

def packets (addresses : List UInt32) (texts : List String) : List Packet :=
  List.zipWith (fun address text => ⟨address, Utf8.encode text ++ [0]⟩) addresses texts

theorem toInt_length {n : Nat} (h : n < 0x80000000) : n.toUInt32.toInt32.toInt = n := by
  have hn : n.toUInt32.toInt32.toBitVec.toNat = n := by
    show n.toUInt32.toNat = n
    rw [Nat.toUInt32, UInt32.toNat_ofNat']
    omega
  rw [Int32.toInt, BitVec.toInt_eq_toNat_cond, hn, if_pos (by omega)]

/-- A row of addresses at `argv`, and at each of them a string with a zero byte after it. All of it
lies in memory, and no byte belongs to two strings, or to a string and the row. -/
structure ArgumentRow (memory : Memory) (argv : UInt32) (texts : List String)
    (addresses : List UInt32) : Prop where
  length_eq : addresses.length = texts.length
  word?_eq (i : Nat) (address : UInt32) : addresses[i]? = some address →
    memory.word? (argv.toNat + 4 * i) = some address
  lies : ∀ p ∈ packets addresses texts, p.LiesIn memory
  apart : (⟨argv.toNat, 4 * texts.length⟩ :: (packets addresses texts).map Packet.block).Pairwise
    Block.Apart

/-- What a function is told of a list of strings: how many there are, and where. -/
structure ListPassed (memory : Memory) (argc argv : UInt32) (texts : List String) : Prop where
  count : argc.toInt32.toInt = texts.length
  null : texts = [] → argv = 0
  row : texts ≠ [] → ∃ addresses, ArgumentRow memory argv texts addresses

theorem listPassed_of_delivered {texts : List String} {addresses : List UInt32} {argv : UInt32}
    {held : List Block} {memory : Memory} (hlength : addresses.length = texts.length)
    (hsize : (addresses.flatMap Memory.wordBytes).length ≤ 0x7fffffff) (hne : texts ≠ [])
    (h : Delivered (⟨argv, addresses.flatMap Memory.wordBytes⟩ :: (packets addresses texts).reverse)
      held memory) : ListPassed memory texts.length.toUInt32 argv texts := by
  rw [length_row, hlength] at hsize
  refine ⟨toInt_length (by omega), fun hnil => absurd hnil hne,
    fun _ => ⟨addresses, hlength, ?_, ?_, ?_⟩⟩
  · intro i address hi
    obtain ⟨hfits, hbytes⟩ := Memory.read?_eq_some.mp (h.lies _ List.mem_cons_self).read?_eq
    exact Memory.word?_of_row hfits hbytes hi
  · exact fun p hp => h.lies p (List.mem_cons_of_mem _ (List.mem_reverse.mpr hp))
  · have hapart := h.apart
    rw [List.map_cons, Packet.block, length_row, hlength] at hapart
    refine (List.Perm.pairwise_iff (fun h => h.symm) ?_).mp hapart
    rw [List.map_reverse]
    exact (List.reverse_perm _).cons _

theorem toUInt32_toInt64 (w : UInt32) : w.toInt32.toInt64.toUInt64.toUInt32 = w := by
  apply UInt32.eq_of_toBitVec_eq
  apply BitVec.eq_of_getLsbD_eq
  intro i hi
  have hi' : i < 64 := by omega
  simp [BitVec.getElem_signExtend, hi, hi']

theorem arguments_pointers (pointers : List UInt32) {rest : List ValueType} {extra : List Int64}
    {args : List Value}
    (h : arguments (pointers.map (fun _ => .i32) ++ rest) pointers extra = .ok args) :
    ∃ more, args = pointers.map .i32 ++ more := by
  have hword (w : UInt32) : argument .i32 w.toInt32.toInt64 = .ok (.i32 w) := by
    rw [argument, toUInt32_toInt64]
  unfold arguments at h
  dsimp only at h
  split at h
  · next hlength =>
    clear hlength
    induction pointers generalizing args with
    | nil => exact ⟨args, rfl⟩
    | cons p pointers ih =>
      rw [List.map_cons, List.map_cons, List.cons_append, List.cons_append, List.zip_cons_cons,
        List.mapM_cons] at h
      dsimp only at h
      rw [hword] at h
      cases hmore : ((pointers.map (fun _ => ValueType.i32) ++ rest).zip
          (pointers.map (·.toInt32.toInt64) ++ extra)).mapM (m := Except Error)
            fun x => argument x.1 x.2 with
      | error e =>
        rw [hmore] at h
        cases h
      | ok later =>
        rw [hmore] at h
        cases h
        obtain ⟨more, rfl⟩ := ih hmore
        exact ⟨more, rfl⟩
  · cases h

/-- A function that is entered and that takes two words first is told of the list by them. -/
def TellsOf (m : Machine) (texts : List String) (op : Op) (memory : Memory) : Prop :=
  ∀ entered f args type rest, op = .call (.entry entered) f args →
    m.setup.module.funcType? f = some type → type.params = .i32 :: .i32 :: rest →
    ∃ argc argv more, args = .i32 argc :: .i32 argv :: more ∧ ListPassed memory argc argv texts

theorem tellsOf_of_not_isEntry {texts : List String} {op : Op} (h : ¬ op.IsEntry)
    (memory : Memory) : TellsOf m texts op memory := by
  rintro entered f args type rest rfl
  exact absurd trivial h

/-- The entry point of a library, when it is called, is told of the list. -/
def Begins (argv : List String) (op : Op) (memory : Memory) : Prop :=
  ∀ f args, op = .call (.entry entryPoint) f args →
    ∃ argc address, args = [.i32 argc, .i32 address] ∧ ListPassed memory argc address argv

theorem begins_of_not_isEntry {argv : List String} {op : Op} (h : ¬ op.IsEntry)
    (memory : Memory) : Begins argv op memory := by
  rintro f args rfl
  exact absurd trivial h

theorem meets_begins_bind {α β : Type} {argv : List String} {a : Action α} {f : α → Action β}
    {held : List Block} {s : State}
    (ha : m.Meets call a.run s fun _ op _ => ∀ memory, Begins argv op memory)
    (hf : ∀ x held s, m.Meets call (f x).run s fun steps op s' =>
      Honest held steps → Begins argv op s'.memory) :
    m.Meets call (a >>= f).run s fun steps op s' =>
      Honest held steps → Begins argv op s'.memory := by
  refine Action.meets_bind.mpr ⟨ha.mono fun _ _ _ h _ => h _, fun steps r s₁ _ x _ => ?_⟩
  refine (hf x (holding held steps) s₁).mono fun steps' op s' hbegins h => ?_
  exact hbegins (honest_append.mp h).2

theorem meets_begins_aside {α : Type} (argv : List String) {a : Action α}
    (ha : Action.MadeOf Aside (fun _ => True) a) (s : State) :
    m.Meets call a.run s fun _ op _ => ∀ memory, Begins argv op memory :=
  meets_aside (fun _ _ _ hop memory => begins_of_not_isEntry hop memory) ha

/-- Loading a library calls the loader, which goes by another name than the entry point. -/
theorem meets_begins_load (path : String) (argv : List String) (s : State) :
    m.Meets call (callWithString "dlopen" (.one path) []).run s fun _ op _ =>
      ∀ memory, Begins argv op memory := by
  refine (Machine.meets_sorted (madeOf_entersOnly "dlopen" (.one path) []) s).mono ?_
  rintro steps op s' hop memory f args rfl
  have hname : entryPoint = "dlopen" := hop
  exact absurd hname (by decide)

section

variable (hcall : growth.GovernsCallee call)

include hcall

theorem records_deliverEach (texts : List String) (tracked : List UInt32) (s : State) :
    m.Records call ((sendEach texts).run.run tracked) s fun steps x s' => ∀ held sent,
      Honest held steps → Delivered sent held s.memory → ∀ addresses, x.1 = .ok addresses →
        addresses.length = texts.length ∧
          Delivered ((packets addresses texts).reverse ++ sent) (holding held steps)
            s'.memory := by
  induction texts generalizing tracked s with
  | nil =>
    refine Machine.records_done.mpr ?_
    rintro held sent - hdelivered _ ⟨⟩
    exact ⟨rfl, hdelivered⟩
  | cons text rest ih =>
    rw [records_sendEach_cons]
    refine (records_deliver hcall _ s).mono fun steps r s₁ hfirst => ?_
    cases r with
    | error e => exact nofun
    | ok address =>
      refine (ih (address :: tracked) s₁).mono fun steps' x s' hrest => ?_
      rcases x with ⟨e | addresses, tracked'⟩
      · exact nofun
      · rintro held sent h hdelivered _ ⟨⟩
        obtain ⟨h, h'⟩ := honest_append.mp h
        obtain ⟨-, hone⟩ := hfirst held sent h hdelivered address rfl
        obtain ⟨hlength, hall⟩ := hrest _ _ h' hone addresses rfl
        refine ⟨congrArg Nat.succ hlength, ?_⟩
        rw [holding_append, packets, List.zipWith_cons_cons, List.reverse_cons, List.append_assoc]
        exact hall

theorem records_deliverAll (texts : List String) (tracked : List UInt32) (s : State) :
    m.Records call ((sendStrings texts).run.run tracked) s fun steps x s' => ∀ held,
      Honest held steps → ∀ argv, x.1 = .ok argv →
        ListPassed s'.memory texts.length.toUInt32 argv texts := by
  rw [sendStrings]
  cases texts with
  | nil =>
    refine Machine.records_done.mpr ?_
    rintro held - _ ⟨⟩
    exact ⟨rfl, fun _ => rfl, fun h => absurd rfl h⟩
  | cons text rest =>
    rw [if_neg (by simp), Scope.run_bind, Machine.records_bind]
    refine (records_deliverEach hcall (text :: rest) tracked s).mono fun steps x s₁ hsent => ?_
    rcases x with ⟨e | addresses, tracked'⟩
    · exact Machine.records_done.mpr nofun
    · dsimp only
      rw [Scope.records_track]
      refine (records_deliver hcall _ s₁).mono fun steps' r s' hrow => ?_
      rintro held h argv rfl
      obtain ⟨h, h'⟩ := honest_append.mp h
      obtain ⟨hlength, hall⟩ := hsent held [] h (.nil _ _) addresses rfl
      rw [List.append_nil] at hall
      obtain ⟨hsize, hdelivered⟩ := hrow _ _ h' hall argv rfl
      exact listPassed_of_delivered hlength hsize (by simp) hdelivered

theorem meets_sendStrings {β : Type} {texts : List String} {k : UInt32 → Scope β}
    {tracked : List UInt32} {s : State} {P : List Step → Op → State → Prop}
    (haside : ∀ steps op s', ¬ op.IsEntry → P steps op s')
    (hk : ∀ steps tracked' argv s₁, (∀ held, Honest held steps →
      ListPassed s₁.memory texts.length.toUInt32 argv texts) →
      m.Meets call ((k argv).run.run tracked') s₁ fun steps' op s' => P (steps ++ steps') op s') :
    m.Meets call ((sendStrings texts >>= k).run.run tracked) s P := by
  have hmade := (sends_sendStrings texts).madeOf Aside.marshals coversHost_true tracked
  refine Scope.meets_bind.mpr ⟨meets_aside haside hmade, ?_⟩
  refine (records_deliverAll hcall texts tracked s).mono fun steps x s₁ hpassed argv hx => ?_
  exact hk steps x.2 argv s₁ fun held h => hpassed held h argv hx

theorem meets_passList (name : String) (f : Nat) (texts : List String) (extra : List Int64)
    (held : List Block) (s : State) :
    m.Meets call (inScope do
      let argv ← sendStrings texts
      invoke name f (← argumentsFor f [texts.length.toUInt32, argv] extra)).run s
        fun steps op s' => Honest held steps → TellsOf m texts op s'.memory := by
  have haside (steps : List Step) (op : Op) (s' : State) (hop : ¬ op.IsEntry) :
      Honest held steps → TellsOf m texts op s'.memory := fun _ => tellsOf_of_not_isEntry hop _
  refine meets_inScope haside (meets_sendStrings hcall haside ?_)
  intro steps tracked argv s₁ hpassed
  have harguments := madeOf_argumentsFor Aside.access.lookup coversHost_true f
    [texts.length.toUInt32, argv] extra
  refine Scope.meets_bind.mpr ⟨?_, ?_⟩
  · refine Scope.meets_lift (meets_aside (fun _ _ _ hop _ => ?_) harguments)
    exact tellsOf_of_not_isEntry hop _
  · show m.Records call ((argumentsFor f _ extra).run.bind fun r => .done (r, tracked)) s₁ _
    rw [Machine.records_bind, argumentsFor, Action.run_lift_bind]
    refine Machine.records_op rfl (Machine.records_done.mpr (Machine.records_done.mpr ?_))
    intro args hargs
    refine Scope.meets_lift (meets_invoke (fun _ _ _ hop _ => tellsOf_of_not_isEntry hop _) ?_)
    rintro h entered g args' type rest ⟨⟩ htype hparams
    dsimp only at hargs
    rw [htype, Option.elim_some, hparams] at hargs
    obtain ⟨more, hmore⟩ := arguments_pointers [texts.length.toUInt32, argv] hargs
    exact ⟨_, _, more, hmore, hpassed held (honest_append.mp h).1⟩

theorem meets_callWithString (name : String) (texts : List String) (extra : List Int64) (s : State) :
    m.Meets call (callWithString name (.many texts) extra).run s fun steps op s' =>
      Honest [] steps → TellsOf m texts op s'.memory := by
  rw [callWithString]
  refine Action.meets_bind.mpr ⟨?_, fun steps r s₁ _ f _ => ?_⟩
  · exact meets_aside (fun _ _ _ hop _ => tellsOf_of_not_isEntry hop _)
      (madeOf_function Aside.access.lookup coversHost_true name)
  · rw [Action.run_lift_bind]
    have hsetup : Program.setup.MadeOf Aside _ := Program.madeOf_block (.op .setup nofun)
    refine Machine.meets_bind.mpr ⟨?_, fun steps' setup s₂ _ => ?_⟩
    · exact meets_aside (fun _ _ _ hop _ => tellsOf_of_not_isEntry hop _) hsetup
    · refine (meets_passList hcall name f texts extra (holding [] (steps ++ steps')) s₂).mono ?_
      intro steps'' op s' htells h
      rw [← List.append_assoc] at h
      exact htells (honest_append.mp h).2

theorem meets_callEntryPoint (main : Nat) (argv : List String) (held : List Block) (s : State) :
    m.Meets call (callEntryPoint main argv).run s fun steps op s' =>
      Honest held steps → Begins argv op s'.memory := by
  have haside (steps : List Step) (op : Op) (s' : State) (hop : ¬ op.IsEntry) :
      Honest held steps → Begins argv op s'.memory := fun _ => begins_of_not_isEntry hop _
  refine meets_inScope haside (meets_sendStrings hcall haside ?_)
  intro steps tracked address s₁ hpassed
  refine Scope.meets_bind.mpr ⟨?_, fun _ _ _ _ _ _ => Machine.meets_done _⟩
  refine Scope.meets_lift (meets_invoke (fun _ _ _ hop _ => begins_of_not_isEntry hop _) ?_)
  rintro h f args ⟨⟩
  exact ⟨_, address, rfl, hpassed held (honest_append.mp h).1⟩

theorem meets_loadAndExecute (path : String) (argv : List String) (held : List Block) (s : State) :
    m.Meets call (loadAndExecute path argv).run s fun steps op s' =>
      Honest held steps → Begins argv op s'.memory := by
  have hlookup := Aside.access.lookup
  have hdone {a : Action Int32} (ha : Action.MadeOf Aside (fun _ => True) a) (held : List Block)
      (s : State) : m.Meets call a.run s fun steps op s' =>
        Honest held steps → Begins argv op s'.memory :=
    (meets_begins_aside argv ha s).mono fun _ _ _ h _ => h _
  refine meets_begins_bind (meets_begins_load path argv s) fun output held s => ?_
  refine meets_begins_bind (meets_begins_aside argv (Action.madeOf_ofExcept
    (failsWithin_asInt32 coversHost_true _ _)) s) fun library held s => ?_
  refine meets_begins_bind (meets_begins_aside argv (Action.madeOf_lift
    (madeOf_function? hlookup "dlsym")) s) fun findSymbol held s => ?_
  cases findSymbol with
  | none => exact hdone (Action.madeOf_pure _) held s
  | some findSymbol =>
    refine meets_begins_bind (meets_begins_aside argv
      (madeOf_findEntryPoint Aside.passes findSymbol library) s) fun address held s => ?_
    split
    · exact hdone (Action.madeOf_pure _) held s
    · refine meets_begins_bind (meets_begins_aside argv (Action.madeOf_lift
        (madeOf_tableFunction? Aside.marshals trivial address)) s) fun main held s => ?_
      cases main with
      | none => exact hdone (Action.madeOf_pure _) held s
      | some main =>
        refine Action.meets_bind.mpr ⟨meets_callEntryPoint hcall main argv held s, ?_⟩
        intro steps r s₁ _ code _
        refine (meets_begins_aside argv ?_ s₁).mono fun _ _ _ h _ => h _
        refine Action.madeOf_lift_bind (madeOf_function? hlookup "dlclose") fun close _ => ?_
        cases close with
        | none => exact Action.madeOf_pure _
        | some close =>
          have hclose := Aside.marshals.op (.call .closeLibrary close [.ofInt32 library]) trivial
            trivial
          exact Action.madeOf_attempt_bind (madeOf_callRaw _ _ _ hclose) fun _ _ =>
            Action.madeOf_pure _

theorem meets_run (argv : List String) (s : State) :
    m.Meets call (run argv).run s fun steps op s' => Honest [] steps → Begins argv op s'.memory := by
  have haside (steps : List Step) (op : Op) (s' : State) (hop : ¬ op.IsEntry) :
      Honest [] steps → Begins argv op s'.memory := fun _ => begins_of_not_isEntry hop _
  cases argv with
  | nil => exact Machine.meets_done _
  | cons path rest =>
    rw [run_cons]
    refine Machine.meets_step.mpr ⟨haside _ _ _ nofun, fun t _ s₁ _ => ?_⟩
    refine Machine.meets_bind.mpr ⟨?_, fun steps r s₂ _ => ?_⟩
    · refine meets_rolledBack (fun _ _ _ hop _ => begins_of_not_isEntry hop _) ?_
      refine (meets_loadAndExecute hcall path (path :: rest) [] s₁).mono ?_
      -- Nothing is held yet when the library is loaded.
      exact fun steps op s' hbegins h => hbegins h.2.2.2
    · exact Machine.meets_step.mpr ⟨haside _ _ _ nofun, fun _ _ _ _ => Machine.meets_done _⟩

end

/-- At every depth of calls and from every state: if the guest's allocator has been honest so far, a
function that a call with a list of strings enters finds the list, and so does the entry point of a
library that is run. That does not depend on what the function then does. -/
theorem lists_arrive (m : Machine) (depth hostDepth : Nat) (s : State) :
    (∀ name texts extra, m.Meets (m.callFunction depth hostDepth .host)
      (callWithString name (.many texts) extra).run s fun steps op s' =>
        Honest [] steps → TellsOf m texts op s'.memory) ∧
    ∀ argv, m.Meets (m.callFunction depth hostDepth .host) (run argv).run s fun steps op s' =>
      Honest [] steps → Begins argv op s'.memory := by
  have hcall := m.callFunction_grows depth hostDepth .host
  exact ⟨fun name texts extra => meets_callWithString hcall name texts extra s,
    fun argv => meets_run hcall argv s⟩

def listTaker : Module :=
  let word (w : UInt32) : Instr := .apply (.const (.i32 w)) []
  let next : Instr := .apply (.globalGet 0) []
  let size : Instr := .apply (.localGet 0) []
  { memory := some ⟨1, none, some Module.memoryExport, none⟩
    table := some ⟨2, some Module.tableExport, [(1, 4)]⟩
    globals := [16]
    data := []
    imports := #[]
    funcs := #[⟨⟨[.i32], [.i32]⟩, [],
        [.apply (.globalSet 0) [.apply (.word .add) [next, size]],
          .apply (.word .sub) [next, size]]⟩,
      ⟨⟨[.i32], []⟩, [], []⟩, ⟨⟨[.i32], [.i32]⟩, [], [word 3]⟩,
      ⟨⟨[.i32, .i32], [.i32]⟩, [], [word 1]⟩, ⟨⟨[.i32, .i32], [.i32]⟩, [], [size]⟩]
    exports := [(allocator, 0), (deallocator, 1), ("dlopen", 2), ("dlsym", 3), ("count", 4)]
    start := none }

def listMachine : Machine :=
  Instantiation.machine (Config.standard.withSmallStringSize 64) { directoryExists := fun _ => true }
    listTaker #[]

def listState : State :=
  { memory := .zeros 1, table := listTaker.initialTable, globals := #[16], fuel := none
    host := { bound := true } }

/-- Both ways, with blocks that are given one after the other. -/
theorem lists_arrive_counting :
    let call := listMachine.callFunction 20 10 .host
    (∃ steps s' argc argv, listMachine.Nears call
      (callWithString "count" (.many ["a", "bc"]) []).run listState steps
        (.call (.entry "count") 4 [.i32 argc, .i32 argv]) s' ∧
      Honest [] steps ∧ ListPassed s'.memory argc argv ["a", "bc"]) ∧
    ∃ steps s' argc argv, listMachine.Nears call (run ["lib", "x"]).run listState steps
        (.call (.entry entryPoint) 4 [.i32 argc, .i32 argv]) s' ∧
      Honest [] steps ∧ ListPassed s'.memory argc argv ["lib", "x"] := by
  intro call
  obtain ⟨hcalls, hruns⟩ := lists_arrive listMachine 20 10 listState
  constructor
  · have hentry : ((listMachine.approach call Request.unsupported "count"
        (callWithString "count" (.many ["a", "bc"]) []).run listState).any fun x =>
          decide (Honest [] x.1) && x.2.1.1 == 4 && x.2.1.2.length == 2) = true := by
      decide +kernel
    obtain ⟨⟨steps, ⟨f, args⟩, s'⟩, hreached, hchecked⟩ := (Option.any_eq_true _ _).mp hentry
    simp only [Bool.and_eq_true, decide_eq_true_eq, beq_iff_eq] at hchecked
    obtain ⟨⟨hhonest, rfl⟩, hlength⟩ := hchecked
    have hnears := Machine.nears_of_approach hreached
    obtain ⟨argc, argv, more, rfl, hpassed⟩ :=
      hcalls "count" ["a", "bc"] [] steps _ s' hnears hhonest _ _ _ _ _ rfl rfl rfl
    obtain rfl := List.length_eq_zero_iff.mp (Nat.succ.inj (Nat.succ.inj hlength))
    exact ⟨steps, s', argc, argv, hnears, hhonest, hpassed⟩
  · have hentry : ((listMachine.approach call Request.unsupported entryPoint
        (run ["lib", "x"]).run listState).any fun x =>
          decide (Honest [] x.1) && x.2.1.1 == 4) = true := by
      decide +kernel
    obtain ⟨⟨steps, ⟨f, args⟩, s'⟩, hreached, hchecked⟩ := (Option.any_eq_true _ _).mp hentry
    simp only [Bool.and_eq_true, decide_eq_true_eq, beq_iff_eq] at hchecked
    obtain ⟨hhonest, rfl⟩ := hchecked
    have hnears := Machine.nears_of_approach hreached
    obtain ⟨argc, argv, rfl, hpassed⟩ := hruns ["lib", "x"] steps _ s' hnears hhonest _ _ rfl
    exact ⟨steps, s', argc, argv, hnears, hhonest, hpassed⟩

end Guest

end SandboxHost

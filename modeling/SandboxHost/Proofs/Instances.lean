import SandboxHost.Instance
import SandboxHost.Proofs.SystemCalls

namespace SandboxHost

/-- Nothing among the entries is supplied by an embedding program. -/
def ImportMap.IsOwn (m : ImportMap) : Prop := ∀ x ∈ m.entries, ¬ x.2.IsSupplied

namespace ImportMap

theorem mem_put {name : String} {f : HostFunction} {entries : List (String × HostFunction)}
    {x : String × HostFunction} (h : x ∈ put name f entries) : x = (name, f) ∨ x ∈ entries := by
  induction entries with
  | nil => exact .inl (List.mem_singleton.mp h)
  | cons first rest ih =>
    obtain ⟨n, g⟩ := first
    rw [put] at h
    split at h
    · exact List.mem_cons.mp h
    · split at h
      · exact (List.mem_cons.mp h).imp_right (List.mem_cons_of_mem _)
      · obtain rfl | h := List.mem_cons.mp h
        · exact .inr List.mem_cons_self
        · exact (ih h).imp_right (List.mem_cons_of_mem _)

theorem IsOwn.insertMissing {m : ImportMap} (hm : m.IsOwn) (name : String) {f : HostFunction}
    (hf : ¬ f.IsSupplied) : (m.insertMissing name f).IsOwn := by
  unfold ImportMap.insertMissing
  split
  · exact hm
  · intro x hx
    obtain rfl | hx := mem_put hx
    · exact hf
    · exact hm x hx

theorem IsOwn.fill {α : Type} {name : α → String} {f : α → HostFunction}
    (hf : ∀ a, ¬ (f a).IsSupplied) (as : List α) {m : ImportMap} (hm : m.IsOwn) :
    (as.foldl (fun m a => m.insertMissing (name a) (f a)) m).IsOwn := by
  induction as generalizing m with
  | nil => exact hm
  | cons a rest ih => exact ih (hm.insertMissing (name a) (hf a))

theorem IsOwn.complete {m : ImportMap} (hm : m.IsOwn) : m.complete.IsOwn :=
  .fill (by rintro _ ⟨_, ⟨⟩⟩) _ (.fill (by rintro _ ⟨_, ⟨⟩⟩) _ hm)

theorem IsOwn.get? {m : ImportMap} (hm : m.IsOwn) {name : String} {f : HostFunction}
    (h : m.get? name = some f) : ¬ f.IsSupplied := by
  obtain ⟨before, after, heq, -⟩ := List.lookup_eq_some_iff.mp h
  exact hm (name, f) (by rw [heq]; simp)

end ImportMap

/-- No function behind the imports is supplied by an embedding program. -/
def Machine.IsOwn (m : Machine) : Prop :=
  ∀ (i : Nat) (f : HostFunction), m.targets[i]? = some (.function f) → ¬ f.IsSupplied

namespace Instantiation

theorem exists_of_mem_mapM {α β : Type} {f : α → Option β} {as : List α} {bs : List β}
    (h : as.mapM f = some bs) {b : β} (hb : b ∈ bs) : ∃ a, f a = some b := by
  induction as generalizing bs with
  | nil =>
    cases h
    cases hb
  | cons a rest ih =>
    simp only [List.mapM_cons, Option.bind_eq_bind, Option.bind_eq_some_iff, Option.pure_def,
      Option.some.injEq] at h
    obtain ⟨b', ha, bs', hrest, rfl⟩ := h
    obtain rfl | hb := List.mem_cons.mp hb
    · exact ⟨a, ha⟩
    · exact ih hrest hb

theorem target?_function {functions : ImportMap} {m : Module} {declared : Import} {f : HostFunction}
    (h : target? functions m declared = some (.function f)) :
    functions.get? declared.name = some f := by
  have hmissing : missing? m declared ≠ some (.function f) := by
    unfold missing?
    dsimp only
    split
    · split <;> nofun
    · nofun
  unfold target? at h
  split at h
  · split at h
    · cases h
    · split at h
      · split at h <;> cases h
        assumption
      · exact absurd h hmissing
  · split at h
    · split at h
      · split at h <;> cases h
      · exact absurd h hmissing
    · exact absurd h hmissing

/-- What is prepared: the machine with what stands behind each import, and a host that keeps
nothing yet. -/
theorem exists_targets_of_prepare {c : Config} {e : Embedding} {m : Module} {machine : Machine}
    {state : State} (h : prepare c e m = .ok (machine, state)) : ∃ targets,
      m.imports.mapM (target? e.imports.complete m) = some targets ∧
        machine = Instantiation.machine c e m targets ∧ state.host = {} := by
  simp only [prepare, bind, Except.bind, pure, Except.pure, throw, throwThe,
    MonadExceptOf.throw] at h
  repeat' split at h
  all_goals cases h
  exact ⟨_, ‹_›, rfl, rfl⟩

theorem isOwn_of_prepare {c : Config} {e : Embedding} {m : Module} {machine : Machine}
    {state : State} (h : prepare c e m = .ok (machine, state)) (hown : e.imports.IsOwn) :
    machine.IsOwn := by
  obtain ⟨targets, htargets, rfl, -⟩ := exists_targets_of_prepare h
  intro i f hf
  have hlist : m.imports.toList.mapM (target? e.imports.complete m) = some targets.toList := by
    rw [← Array.toList_mapM, htargets]
    rfl
  obtain ⟨declared, hdeclared⟩ := exists_of_mem_mapM hlist (Array.mem_of_getElem? hf).val
  exact hown.complete.get? (target?_function hdeclared)

def started (machine : Machine) (state : State) : Option Nat → Dialogue (Except EngineFault State)
  | some f => runStart machine state f
  | none => .done (.ok state)

def bound (loaded : LoadedModule) (machine : Machine) :
    Except EngineFault State → Dialogue (Except Error Instance)
  | .error fault => .done (.error (.engine fault))
  | .ok state =>
    if hasMemory loaded.module then
      ((Instance.mk loaded.name machine state).act Guest.bind).bind fun x =>
        .done (x.1.map fun _ => x.2)
    else .done (.error (.engine .noMemory))

theorem instantiate_of_prepare {c : Config} {e : Embedding} {loaded : LoadedModule}
    {machine : Machine} {state : State}
    (h : prepare c e loaded.module = .ok (machine, state)) :
    instantiate c e loaded =
      (started machine state loaded.module.start).bind (bound loaded machine) := by
  rw [instantiate, h]
  cases loaded.module.start with
  | none =>
    change _ = bound loaded machine (.ok state)
    rw [bound]
    cases hasMemory loaded.module <;> rfl
  | some f =>
    change Dialogue.bind _ _ = Dialogue.bind _ _
    congr 1
    funext r
    cases r with
    | error fault => rfl
    | ok state =>
      rw [bound]
      cases hasMemory loaded.module <;> rfl

theorem instantiate_of_prepare_error {c : Config} {e : Embedding} {loaded : LoadedModule}
    {fault : EngineFault} (h : prepare c e loaded.module = .error fault) :
    instantiate c e loaded = .done (.error (.engine fault)) := by
  rw [instantiate, h]
  rfl

end Instantiation

namespace Guest

/-- Lets system calls reach the instance, and gives what was bound before. -/
def announce : Program Binding := do
  let h ← Program.host
  Program.setHost { h with bound := true }
  return ⟨h.bound, h.constants⟩

def Binding.keep (b : Binding) : Program Unit :=
  Program.modifyHost fun h => { h with bound := b.bound, constants := b.constants }

theorem run_bind : bind.run = announce.bind fun b => b.bind.bind fun x =>
    x.1.keep.bind fun _ => .done x.2 := rfl

structure Binds (B : BlockKind) : Prop where
  quiet : B.Allows (fun _ => True) Op.IsQuiet
  announce : announce.MadeOf B fun _ => True
  keep (b : Binding) : b.keep.MadeOf B fun _ => True

variable {B : BlockKind}

/-- Nothing is fetched a second time. -/
theorem Binding.madeOf_bind (hfetch : Action.MadeOf B (fun _ => True) fetchConstants)
    (b : Binding) : b.bind.MadeOf B fun _ => True := by
  unfold Binding.bind
  split
  · exact .done trivial
  · refine Program.madeOf_bind hfetch fun r _ => ?_
    split <;> exact .done trivial

variable (hB : Binds B)

include hB

theorem madeOf_fetchConstants : Action.MadeOf B (fun _ => True) fetchConstants := by
  have haccess : B.Allows (fun _ => True) Op.IsAccess := hB.quiet.mono Op.IsAccess.isQuiet
  refine Action.madeOf_bind (madeOf_function haccess.lookup coversHost_true _) fun f => ?_
  have hcall := hB.quiet.op (.call .constants f []) trivial trivial
  refine Action.madeOf_bind (madeOf_callRaw _ _ _ hcall) fun result => ?_
  split
  · refine Action.madeOf_guard trivial fun _ => ?_
    refine Action.madeOf_bind (madeOf_readString haccess coversHost_true _) fun text => ?_
    exact Action.madeOf_ofExcept (failsWithin_true _)
  · exact Action.madeOf_throw trivial

theorem madeOf_bind : Action.MadeOf B (fun _ => True) bind := by
  rw [Action.MadeOf, run_bind]
  refine Program.madeOf_bind hB.announce fun b _ => ?_
  refine Program.madeOf_bind (Binding.madeOf_bind (madeOf_fetchConstants hB) b) fun x _ => ?_
  exact Program.madeOf_bind (hB.keep x.1) fun _ _ => .done (failsWithin_true _)

end Guest

end SandboxHost

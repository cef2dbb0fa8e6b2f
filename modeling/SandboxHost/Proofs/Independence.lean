import SandboxHost.Guest.Typing
import SandboxHost.Host.Native
import SandboxHost.Proofs.StaleState

namespace SandboxHost

namespace Typing

variable {σ : Scope}

theorem operator?_globalSet (hnone : σ.module.globals = []) (s : Stack) (i : Nat) :
    operator? σ s (.globalSet i) = none := by
  simp [operator?, operatorType?, hnone]

theorem exists_of_body? {labels : List String} {body : List Instr}
    (h : body? σ labels body = some ()) : ∃ s, instrs? σ labels {} body = some s := by
  rw [body?] at h
  obtain ⟨s, hs, -⟩ := Option.bind_eq_some_iff.mp h
  exact ⟨s, hs⟩

mutual

theorem instr?_uses {kind : Operator → Bool}
    (hkind : ∀ op s s', operator? σ s op = some s' → kind op = false) (i : Instr)
    {labels : List String} {s s' : Stack} (h : instr? σ labels s i = some s') :
    i.uses kind = false := by
  cases i with
  | apply op operands =>
    rw [instr?] at h
    obtain ⟨s₁, hs₁, hop⟩ := Option.bind_eq_some_iff.mp h
    rw [Instr.uses, hkind op _ _ hop, instrs?_uses hkind operands hs₁]
    rfl
  | call function operands =>
    rw [instr?] at h
    obtain ⟨s₁, hs₁, -⟩ := Option.bind_eq_some_iff.mp h
    exact instrs?_uses hkind operands hs₁
  | ifElse condition thenBody elseBody =>
    rw [instr?] at h
    obtain ⟨s₁, hs₁, h⟩ := Option.bind_eq_some_iff.mp h
    obtain ⟨s₂, -, h⟩ := Option.bind_eq_some_iff.mp h
    obtain ⟨⟨⟩, hthen, h⟩ := Option.bind_eq_some_iff.mp h
    obtain ⟨⟨⟩, helse, -⟩ := Option.bind_eq_some_iff.mp h
    obtain ⟨_, hthen⟩ := exists_of_body? hthen
    obtain ⟨_, helse⟩ := exists_of_body? helse
    rw [Instr.uses, instrs?_uses hkind condition hs₁, instrs?_uses hkind thenBody hthen,
      instrs?_uses hkind elseBody helse]
    rfl
  | block label body | loop label body =>
    rw [instr?] at h
    obtain ⟨⟨⟩, hbody, -⟩ := Option.bind_eq_some_iff.mp h
    obtain ⟨_, hbody⟩ := exists_of_body? hbody
    exact instrs?_uses hkind body hbody
  | callIndirect type operands | branch label operands | branchIf label operands | leave operands =>
    rw [instr?] at h
    obtain ⟨s₁, hs₁, -⟩ := Option.bind_eq_some_iff.mp h
    exact instrs?_uses hkind operands hs₁

theorem instrs?_uses {kind : Operator → Bool}
    (hkind : ∀ op s s', operator? σ s op = some s' → kind op = false) (code : List Instr)
    {labels : List String} {s s' : Stack} (h : instrs? σ labels s code = some s') :
    codeUses kind code = false := by
  cases code with
  | nil => rfl
  | cons i rest =>
    rw [instrs?] at h
    obtain ⟨s₁, hs₁, hrest⟩ := Option.bind_eq_some_iff.mp h
    rw [codeUses, instr?_uses hkind i hs₁, instrs?_uses hkind rest hrest]
    rfl

end

theorem uses_eq_false {m : Module} (hm : isModule m = true) {kind : Operator → Bool}
    (hkind : ∀ σ : Scope, σ.module = m → ∀ op s s', operator? σ s op = some s' → kind op = false) :
    m.uses kind = false := by
  simp only [isModule, Bool.and_eq_true, Array.all_eq_true] at hm
  rw [Module.uses, Array.any_eq_false]
  intro i hi
  have hfunc := hm.1.1 i hi
  unfold isFunction at hfunc
  dsimp only at hfunc
  split at hfunc
  · next hs =>
    obtain ⟨_, hbody, -⟩ := Option.bind_eq_some_iff.mp hs
    rw [instrs?_uses (hkind _ rfl) _ hbody]
    exact Bool.false_ne_true
  · cases hfunc

theorem setsGlobal_eq_false {m : Module} (hm : isModule m = true) (hnone : m.globals = []) :
    m.setsGlobal = false := by
  refine uses_eq_false hm fun σ hσ op s s' h => ?_
  cases op with
  -- To set a global that there is none of has no type.
  | globalSet i =>
    rw [operator?_globalSet (by rw [hσ, hnone])] at h
    cases h
  | _ => rfl

end Typing

namespace Page

theorem ext_get {p p' : Page} (h : ∀ i (hi : i < pageSize), p.get i hi = p'.get i hi) : p = p' := by
  obtain ⟨⟨bytes⟩, hsize⟩ := p
  obtain ⟨⟨bytes'⟩, hsize'⟩ := p'
  have hbytes : bytes = bytes' := by
    refine Array.ext (hsize.trans hsize'.symm) fun i hi hi' => ?_
    exact h i (hsize ▸ hi)
  subst hbytes
  rfl

end Page

namespace Memory

theorem ext_get {memory memory' : Memory} (hsize : memory.size = memory'.size)
    (h : ∀ a, a < memory.size → memory.get a = memory'.get a) : memory = memory' := by
  obtain ⟨pages⟩ := memory
  obtain ⟨pages'⟩ := memory'
  have hcount : pages.size = pages'.size := Nat.eq_of_mul_eq_mul_right pageSize_pos hsize
  have hpages : pages = pages' := by
    refine Array.ext hcount fun i hi hi' => Page.ext_get fun j hj => ?_
    -- Byte `j` of page `i` is the byte of the memory at `i * pageSize + j`.
    have hpage : (i * pageSize + j) / pageSize = i := by
      rw [Nat.mul_comm, Nat.mul_add_div pageSize_pos, Nat.div_eq_of_lt hj, Nat.add_zero]
    have hoffset : (i * pageSize + j) % pageSize = j := by
      rw [Nat.mul_comm, Nat.mul_add_mod, Nat.mod_eq_of_lt hj]
    have hin : i * pageSize + j < (Memory.mk pages).size := by
      refine page_lt_iff.mp ?_
      rwa [hpage]
    have hget := h _ hin
    unfold get at hget
    simp only [hpage, hoffset, hi, hi', dif_pos] at hget
    exact hget
  rw [hpages]

end Memory

namespace RolledBack

theorem trans {s s₁ s' : State} (h : RolledBack s s₁) (h' : RolledBack s₁ s') :
    RolledBack s s' where
  size_le := Nat.le_trans h.size_le h'.size_le
  get_below a ha := by
    rw [h'.get_below a (Nat.lt_of_lt_of_le ha h.size_le), h.get_below a ha]
  get_beyond a ha := by
    by_cases hlt : a < s₁.memory.size
    · rw [h'.get_below a hlt, h.get_beyond a ha]
    · exact h'.get_beyond a (Nat.le_of_not_lt hlt)
  pointers := h'.pointers.trans h.pointers

theorem memory_eq {s s' : State} (h : RolledBack s s') (hsize : s'.memory.size = s.memory.size) :
    s'.memory = s.memory :=
  Memory.ext_get hsize fun a ha => h.get_below a (hsize ▸ ha)

end RolledBack

namespace Machine

variable {m : Machine}

/-- A run on an instance, where each request has one answer. -/
def runOnce (m : Machine) (answers : (r : Request) → r.Answer) (argv : List String) (s : State) :
    Option (Except Error Int32 × State) :=
  (m.start (Guest.run argv).run s).answered answers

/-- The state after runs in a row, if each of them ends, however it ends. -/
def runAll (m : Machine) (answers : (r : Request) → r.Answer) : List (List String) → State →
    Option State
  | [], s => some s
  | argv :: rest, s => (m.runOnce answers argv s).bind fun x => m.runAll answers rest x.2

def word (w : UInt32) : Instr := .apply (.const (.i32 w)) []

/-- A module with a loader of one library, whose entry point has this body. The entry point is the
second entry of the call table, and may close descriptors. -/
def loader (entry : List Instr) : Module :=
  { memory := some ⟨1, none, some Module.memoryExport, none⟩
    table := some ⟨2, some Module.tableExport, [(1, 6)]⟩
    globals := []
    data := []
    imports := #[⟨Instantiation.namespaceOfWasi, "fd_close", ⟨[.i32], [.i32]⟩⟩]
    funcs := #[⟨⟨[.i32], [.i32]⟩, [], [word 64]⟩, ⟨⟨[.i32], []⟩, [], []⟩,
      ⟨⟨[.i32], [.i32]⟩, [], [word 3]⟩, ⟨⟨[.i32, .i32], [.i32]⟩, [], [word 1]⟩,
      ⟨⟨[.i32], [.i32]⟩, [], [word 0]⟩, ⟨⟨[.i32, .i32], [.i32]⟩, [], entry⟩]
    exports := [(Guest.allocator, 1), (Guest.deallocator, 2), ("dlopen", 3), ("dlsym", 4),
      ("dlclose", 5)]
    start := none }

def loaderMachine (entry : List Instr) : Machine :=
  Instantiation.machine .standard { directoryExists := fun _ => true } (loader entry)
    #[.wasi .closeDescriptor]

def loaderState (entry : List Instr) : State :=
  { memory := .zeros 1
    table := (loader entry).initialTable
    globals := #[]
    descriptors := Instantiation.openAtFirst Config.standard.grants
    fuel := none
    host := {} }

/-- An entry point that takes itself out of the table is not found by the next run. -/
theorem exists_run_told_table :
    let entry : List Instr := [.apply (.tableSet none) [word 1], word 5]
    let m := loaderMachine entry
    let s := loaderState entry
    Typing.isModule (loader entry) = true ∧ (loader entry).globals = [] ∧
    m.setup.blocking = false ∧
    ∃ s', m.runAll Request.unsupported [["lib"]] s = some s' ∧ s'.memory.size = s.memory.size ∧
      (m.runOnce Request.unsupported ["lib"] s).bind (·.1.toOption) = some 5 ∧
      (m.runOnce Request.unsupported ["lib"] s').bind (·.1.toOption) = some 1 := by
  intro entry m s
  have hruns : (m.runAll Request.unsupported [["lib"]] s).any (fun s' =>
      s'.memory.size == s.memory.size &&
        (m.runOnce Request.unsupported ["lib"] s').bind (·.1.toOption) == some 1) = true := by
    decide +kernel
  obtain ⟨s', hbefore, hchecked⟩ := (Option.any_eq_true _ _).mp hruns
  obtain ⟨hsize, hnext⟩ := (Bool.and_eq_true _ _).mp hchecked
  exact ⟨by cbv, rfl, rfl, s', hbefore, eq_of_beq hsize, by decide +kernel, eq_of_beq hnext⟩

end Machine

end SandboxHost

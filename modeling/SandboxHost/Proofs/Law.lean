import SandboxHost.Proofs.Execution
import SandboxHost.Proofs.Steps

namespace SandboxHost

def FailsWithin (fails : Error → Prop) {α : Type} : Except Error α → Prop
  | .ok _ => True
  | .error e => fails e

theorem failsWithin_true {α : Type} (r : Except Error α) : FailsWithin (fun _ => True) r := by
  cases r <;> trivial

theorem FailsWithin.bind {fails : Error → Prop} {α β : Type} {r : Except Error α}
    {f : α → Except Error β} (hr : FailsWithin fails r) (hf : ∀ a, FailsWithin fails (f a)) :
    FailsWithin fails (r >>= f) := by
  cases r with
  | ok a => exact hf a
  | error e => exact hr

/-- How a stretch of an execution may change the state while it exchanges its trace, and how it may
fail. On its own, guest code leaves the host's state alone, never shrinks memory, comes by no budget,
and fails by traps. -/
structure Law where
  keeps : State → Trace → State → Prop
  fails : Error → Prop
  trans {s s₁ s' : State} {t t' : Trace} : keeps s t s₁ → keeps s₁ t' s' → keeps s (t ++ t') s'
  guest {s s' : State} : s'.host = s.host → s.memory.size ≤ s'.memory.size →
    (s.fuel = none → s'.fuel = none) → keeps s [] s'
  trap (t : Trap) : fails (.trap t)

namespace Law

variable {L : Law} {α β : Type}

theorem refl (s : State) : L.keeps s [] s := L.guest rfl (Nat.le_refl _) id

/-- From this state on, the law is obeyed. -/
def GovernsFrom (L : Law) (s : State) (e : Exec α) : Prop :=
  ∀ t r s', (e.run.run s).Ends t (r, s') → L.keeps s t s' ∧ FailsWithin L.fails r

def Governs (L : Law) (e : Exec α) : Prop := ∀ s, L.GovernsFrom s e

def GovernsCallee (L : Law) (call : Callee) : Prop := ∀ f args, L.Governs (call f args)

/-- The law is obeyed where host programs run, and what they give has the property. -/
def GovernsProgram (L : Law) (m : Machine) (call : Callee) (p : Program α) (P : α → Prop) : Prop :=
  ∀ s t a s', (m.perform call p s).Ends t (a, s') → L.keeps s t s' ∧ P a

theorem governsFrom_bind {s : State} {e : Exec α} {f : α → Exec β} (he : L.GovernsFrom s e)
    (hf : ∀ t a s₁, (e.run.run s).Ends t (.ok a, s₁) → L.GovernsFrom s₁ (f a)) :
    L.GovernsFrom s (e >>= f) := by
  intro t r s' h
  rw [Exec.run_bind, Dialogue.ends_bind] at h
  obtain ⟨t₁, ⟨a | a, s₁⟩, t₂, h₁, h₂, rfl⟩ := h
  · obtain ⟨rfl, h₂⟩ := Dialogue.ends_done.mp h₂
    cases h₂
    rw [List.append_nil]
    exact he t₁ _ s₁ h₁
  · have hkeeps := (he t₁ _ s₁ h₁).1
    obtain ⟨hkeeps', hr⟩ := hf t₁ a s₁ h₁ t₂ r s' h₂
    exact ⟨L.trans hkeeps hkeeps', hr⟩

theorem governs_bind {e : Exec α} {f : α → Exec β} (he : L.Governs e) (hf : ∀ a, L.Governs (f a)) :
    L.Governs (e >>= f) := fun s => governsFrom_bind (he s) fun _ a s₁ _ => hf a s₁

theorem governs_pure (a : α) : L.Governs (pure a : Exec α) := by
  intro s t r s' h
  obtain ⟨rfl, h⟩ := Dialogue.ends_done.mp h
  cases h
  exact ⟨L.refl s, trivial⟩

theorem governs_throw {e : Error} (he : L.fails e) : L.Governs (throw e : Exec α) := by
  intro s t r s' h
  obtain ⟨rfl, h⟩ := Dialogue.ends_done.mp h
  cases h
  exact ⟨L.refl s, he⟩

theorem governs_trap (t : Trap) : L.Governs (Exec.trap t : Exec α) := governs_throw (L.trap t)

theorem governs_charge : L.Governs Exec.charge := by
  intro s t r s' h
  rw [Exec.run_charge] at h
  split at h <;> cases h
  · exact ⟨L.refl _, trivial⟩
  · exact ⟨L.refl _, L.trap .outOfFuel⟩
  · next n hfuel =>
    exact ⟨L.guest rfl (Nat.le_refl _) fun h => (nomatch hfuel.symm.trans h), trivial⟩

theorem governs_growMemory (m : Machine) (delta : UInt32) : L.Governs (m.growMemory delta) := by
  intro s t r s' h
  rw [Machine.run_growMemory] at h
  split at h <;> cases h
  · exact ⟨L.guest rfl (by simp [Memory.size_grow]) id, trivial⟩
  · exact ⟨L.refl _, trivial⟩

theorem governs_changeTable (change : Table → Option Table) :
    L.Governs (Machine.changeTable change) := by
  intro s t r s' h
  rw [Machine.run_changeTable] at h
  split at h <;> cases h
  · exact ⟨L.guest rfl (Nat.le_refl _) id, trivial⟩
  · exact ⟨L.refl _, L.trap .tableAccess⟩

theorem governs_growTable (delta : UInt32) (function : Option Nat) :
    L.Governs (Machine.growTable delta function) := by
  intro s t r s' h
  rw [Machine.run_growTable] at h
  split at h <;> cases h
  · exact ⟨L.guest rfl (Nat.le_refl _) id, trivial⟩
  · exact ⟨L.refl _, trivial⟩

theorem governs_closeDescriptor (descriptor : UInt32) :
    L.Governs (Machine.closeDescriptor descriptor) := by
  intro s t r s' h
  rw [Machine.run_closeDescriptor] at h
  split at h <;> cases h
  · exact ⟨L.guest rfl (Nat.le_refl _) id, trivial⟩
  · exact ⟨L.refl _, trivial⟩

theorem governs_storeBytes (address : UInt32) (bytes : List UInt8) :
    L.Governs (Machine.storeBytes address bytes) := by
  intro s t r s' h
  rw [Machine.run_storeBytes] at h
  split at h <;> cases h
  · exact ⟨L.guest rfl (Nat.le_of_eq (Memory.size_writeAll ..).symm) id, trivial⟩
  · exact ⟨L.refl _, L.trap .memoryAccess⟩

/-- What the machine does by itself obeys every law. -/
theorem composes (m : Machine) : m.Composes fun _ => L.Governs where
  pure := governs_pure
  bind := governs_bind
  trap := governs_trap
  diverge _ _ _ _ h := absurd h Dialogue.not_ends_diverged
  charge := governs_charge
  look hf s := hf s.memory s.table s.globals s
  grow := governs_growMemory m
  store := governs_storeBytes
  setGlobal _ _ _ s t r s' h := by
    cases h
    exact ⟨L.guest rfl (Nat.le_refl _) id, trivial⟩
  changeTable change _ := governs_changeTable change
  growTable delta function _ := governs_growTable delta function
  close descriptor _ := governs_closeDescriptor descriptor

end Law

namespace Machine

variable {L : Law} {m : Machine}

/-- Each import of the instance obeys the law if the guest functions it calls do. -/
def ImportsObey (m : Machine) (L : Law) : Prop :=
  ∀ (i : Nat) (f : HostFunction), m.targets[i]? = some (.function f) →
    ∀ call, L.GovernsCallee call →
      ∀ args, L.GovernsProgram m call (f.program args).run (FailsWithin L.fails)

/-- A law that the imports obey holds of every call, however deep. -/
theorem callFunction_governed (hm : m.ImportsObey L) (depth hostDepth : Nat) (caller : Caller) :
    L.GovernsCallee (m.callFunction depth hostDepth caller) :=
  (Law.composes m).callFunction hm depth hostDepth caller

end Machine

end SandboxHost

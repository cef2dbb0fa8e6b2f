import SandboxHost.Instance
import SandboxHost.Proofs.Runs

namespace SandboxHost

namespace Memory

theorem page_lt_iff {m : Memory} {a : Nat} : a / pageSize < m.pages.size ↔ a < m.size :=
  Nat.div_lt_iff_lt_mul pageSize_pos

theorem get_of_size_le {m : Memory} {a : Nat} (h : m.size ≤ a) : m.get a = 0 := by
  rw [get, dif_neg (mt page_lt_iff.mp (Nat.not_lt.mpr h))]

theorem get_restore_below {m saved : Memory} (hsize : saved.size ≤ m.size) {a : Nat}
    (ha : a < saved.size) : (m.restore saved).get a = saved.get a := by
  have hpages : saved.pages.size ≤ m.pages.size := Nat.le_of_mul_le_mul_right hsize pageSize_pos
  have hnew : a < (m.restore saved).size := by
    rw [size_restore]
    exact Nat.lt_of_lt_of_le ha hsize
  have hold := page_lt_iff.mpr ha
  rw [get, dif_pos (page_lt_iff.mpr hnew), get, dif_pos hold]
  congr 1
  simp [restore, hold, hpages]

theorem get_zero_page (i : Nat) (h : i < pageSize) : Page.zero.get i h = 0 :=
  Array.getElem_replicate ..

theorem get_restore_beyond {m saved : Memory} {a : Nat} (ha : saved.size ≤ a) :
    (m.restore saved).get a = 0 := by
  by_cases hm : a < (m.restore saved).size
  · have hold : saved.pages.size ≤ a / pageSize :=
      Nat.not_lt.mp (mt page_lt_iff.mp (Nat.not_lt.mpr ha))
    have hnew : a / pageSize < (m.restore saved).pages.size := page_lt_iff.mpr hm
    have hzero : (m.restore saved).pages[a / pageSize] = Page.zero := by
      simp only [restore, Array.take_eq_extract]
      rw [Array.getElem_append_right (by simp; omega), Array.getElem_replicate]
    rw [get, dif_pos hnew, hzero, get_zero_page]
  · exact get_of_size_le (Nat.le_of_not_lt hm)

end Memory

def growth : Law where
  keeps s _ s' := s.memory.size ≤ s'.memory.size
  fails _ := True
  trans := Nat.le_trans
  guest _ h _ := h
  trap _ := trivial

namespace Machine

variable {m : Machine} {call : Callee} {α : Type}

theorem performOp_grows (hcall : growth.GovernsCallee call) (op : Op) {s s' : State} {t : Trace}
    {answer : op.Answer} (h : (m.performOp call op s).Ends t (answer, s')) :
    s.memory.size ≤ s'.memory.size := by
  cases op with
  | call purpose f args => exact (hcall f args s t answer s' h).1
  | ask r =>
    obtain ⟨_, _, h, -⟩ := Dialogue.ends_ask.mp h
    cases h
    exact Nat.le_refl _
  | write address bytes =>
    rw [performOp] at h
    split at h
    · cases h
      exact Nat.le_of_eq (Memory.size_writeAll ..).symm
    · cases h
      exact Nat.le_refl _
  | restore saved =>
    cases h
    exact Nat.le_of_eq (Memory.size_restore ..).symm
  | _ =>
    cases h
    exact Nat.le_refl _

theorem perform_grows (hcall : growth.GovernsCallee call) (p : Program α) :
    growth.GovernsProgram m call p fun _ => True := by
  induction p with
  | done a =>
    rintro s t b s' ⟨⟩
    exact ⟨Nat.le_refl _, trivial⟩
  | step op next ih =>
    intro s t a s' h
    rw [perform_step, Dialogue.ends_bind] at h
    obtain ⟨t₁, ⟨answer, s₁⟩, t₂, h₁, h₂, rfl⟩ := h
    exact ⟨Nat.le_trans (performOp_grows hcall op h₁) (ih answer s₁ t₂ a s' h₂).1, trivial⟩

theorem callFunction_grows (m : Machine) (depth hostDepth : Nat) (caller : Caller) :
    growth.GovernsCallee (m.callFunction depth hostDepth caller) := by
  -- No import need be looked at: none of the steps that programs can take shrinks memory.
  refine callFunction_governed ?_ depth hostDepth caller
  intro i f _ call hcall args s t r s' h
  exact ⟨(perform_grows hcall _ s t r s' h).1, failsWithin_true r⟩

end Machine

/-- Nothing is left of what happened in between but more memory, and that is empty. -/
structure RolledBack (s s' : State) : Prop where
  size_le : s.memory.size ≤ s'.memory.size
  get_below (a : Nat) : a < s.memory.size → s'.memory.get a = s.memory.get a
  get_beyond (a : Nat) : s.memory.size ≤ a → s'.memory.get a = 0
  pointers : s'.host.pointers = s.host.pointers

namespace RolledBack

theorem refl (s : State) : RolledBack s s :=
  ⟨Nat.le_refl _, fun _ _ => rfl, fun _ h => Memory.get_of_size_le h, rfl⟩

theorem of_restore {s s₁ s' : State} (hsize : s.memory.size ≤ s₁.memory.size)
    (hm : s'.memory = s₁.memory.restore s.memory) (hp : s'.host.pointers = s.host.pointers) :
    RolledBack s s' where
  size_le := by
    rw [hm, Memory.size_restore]
    exact hsize
  get_below a ha := by rw [hm, Memory.get_restore_below hsize ha]
  get_beyond a ha := by rw [hm, Memory.get_restore_beyond ha]
  pointers := hp

end RolledBack

namespace Guest

variable {m : Machine} {call : Callee} {α : Type}

theorem rolledBack_restores (hcall : growth.GovernsCallee call) (body : Action α) {s s' : State}
    {t : Trace} {r : Except Error α} (h : (m.perform call (rolledBack body).run s).Ends t (r, s')) :
    RolledBack s s' := by
  rw [perform_rolledBack, Dialogue.ends_bind] at h
  obtain ⟨t₁, ⟨r₁, s₁⟩, t₂, h₁, h₂, rfl⟩ := h
  cases h₂
  exact .of_restore (Machine.perform_grows hcall _ s t₁ r₁ s₁ h₁).1 rfl rfl

theorem run_pointers {argv : List String} {s s' : State} {t : Trace} {r : Except Error Int32}
    (h : (m.perform call (run argv).run s).Ends t (r, s')) :
    s'.host.pointers = s.host.pointers := by
  cases argv with
  | nil =>
    cases h
    rfl
  | cons path rest =>
    obtain ⟨t₁, hbody, -⟩ := ends_run h
    rw [perform_rolledBack, Dialogue.ends_bind] at hbody
    obtain ⟨_, _, _, -, hdone, -⟩ := hbody
    cases hdone
    rfl

/-- Whatever a run does, and however it ends, memory and the kept pointers are as they were. -/
theorem run_restores (hcall : growth.GovernsCallee call) (argv : List String) {s s' : State}
    {t : Trace} {r : Except Error Int32} (h : (m.perform call (run argv).run s).Ends t (r, s')) :
    RolledBack s s' := by
  cases argv with
  | nil =>
    cases h
    exact .refl s
  | cons path rest =>
    obtain ⟨t₁, h, -⟩ := ends_run h
    exact rolledBack_restores hcall _ h

/-- At every depth of calls, from every state and whatever the outcome; so too when an embedding
program runs a library. -/
theorem run_always_rolledBack (argv : List String) :
    (∀ (m : Machine) (depth hostDepth : Nat) (s : State),
      (m.perform (m.callFunction depth hostDepth .host) (run argv).run s).Always
        fun (_, s') => RolledBack s s') ∧
    ∀ i : Instance, (i.act (run argv)).Always fun (_, i') => RolledBack i.state i'.state := by
  have hrun (m : Machine) (depth hostDepth : Nat) (s : State) :
      (m.perform (m.callFunction depth hostDepth .host) (run argv).run s).Always
        fun (_, s') => RolledBack s s' :=
    Dialogue.always_iff_ends.mpr fun _ _ h =>
      run_restores (Machine.callFunction_grows m depth hostDepth .host) argv h
  refine ⟨hrun, fun i => ?_⟩
  rw [Instance.act, Instance.perform]
  refine .bind ?_ (hrun i.machine Machine.maxDepth Machine.maxHostDepth i.state)
  exact fun _ h => .done h

end Guest

end SandboxHost

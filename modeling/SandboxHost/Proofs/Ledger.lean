import SandboxHost.Proofs.Resolution
import SandboxHost.Proofs.Scopes

namespace SandboxHost

/-- What a step does with a block of the guest's allocator. -/
inductive BlockEvent where
  | obtained (address : UInt32)
  /-- The block becomes the scratch block. -/
  | kept (address : UInt32)
  | attempted (address : UInt32)

namespace BlockEvent

def obtained? : BlockEvent → Option UInt32
  | .obtained address => some address
  | _ => none

def kept? : BlockEvent → Option UInt32
  | .kept address => some address
  | _ => none

def attempted? : BlockEvent → Option UInt32
  | .attempted address => some address
  | _ => none

end BlockEvent

def Step.block? : Step → Option BlockEvent
  | ⟨.call .allocate _ _, .ok (.i32 address :: _), _, _, _⟩ =>
    if address = 0 then none else some (.obtained address)
  | ⟨.setHost h, _, before, _, _⟩ =>
    match before.host.pointers.scratch, h.pointers.scratch with
    | none, some address => some (.kept address)
    | _, _ => none
  | x => x.op.attempt?.map fun attempt => .attempted attempt.1

def blocks (steps : List Step) : List BlockEvent := steps.filterMap Step.block?

/-- The blocks that are owned in the end, the newest first. There is no end where any but the newest
block is kept or given back. -/
def settle : List UInt32 → List BlockEvent → Option (List UInt32)
  | owned, [] => some owned
  | owned, .obtained address :: rest => settle (address :: owned) rest
  | newest :: owned, .kept address :: rest | newest :: owned, .attempted address :: rest =>
    if newest = address then settle owned rest else none
  | [], _ :: _ => none

def Op.freed? : Op → Option UInt32
  | .call .release _ [.i32 address] => some address
  | _ => none

def freed (steps : List Step) : List UInt32 := steps.filterMap (·.op.freed?)

/-- The blocks whose attempt succeeded. -/
def givenBack (steps : List Step) : List UInt32 :=
  (attempts steps).filterMap fun x => if x.2.isOk then some x.1 else none

@[simp] theorem blocks_append (steps steps' : List Step) :
    blocks (steps ++ steps') = blocks steps ++ blocks steps' := List.filterMap_append ..

@[simp] theorem freed_append (steps steps' : List Step) :
    freed (steps ++ steps') = freed steps ++ freed steps' := List.filterMap_append ..

@[simp] theorem givenBack_append (steps steps' : List Step) :
    givenBack (steps ++ steps') = givenBack steps ++ givenBack steps' := by
  simp [givenBack]

theorem Step.attempted?_block? (x : Step) :
    x.block?.bind BlockEvent.attempted? = x.op.attempt?.map Prod.fst := by
  unfold Step.block?
  split
  · split <;> rfl
  · split <;> rfl
  · cases Op.attempt? _ <;> rfl

theorem attempted_blocks (steps : List Step) :
    (blocks steps).filterMap BlockEvent.attempted? = (attempts steps).map Prod.fst := by
  rw [blocks, attempts, List.filterMap_filterMap, List.map_filterMap]
  congr 1
  funext x
  exact x.attempted?_block?

theorem blocks_edit (h : HostState) (s s' : State) :
    blocks [⟨.getHost, s.host, s, s, []⟩, ⟨.setHost h, (), s, s', []⟩] =
      match s.host.pointers.scratch, h.pointers.scratch with
      | none, some address => [.kept address]
      | _, _ => [] := by
  have hedit : Step.block? ⟨.setHost h, (), s, s', []⟩ =
      match s.host.pointers.scratch, h.pointers.scratch with
      | none, some address => some (.kept address)
      | _, _ => none := rfl
  have hlook : Step.block? ⟨.getHost, s.host, s, s, []⟩ = none := rfl
  rw [blocks, List.filterMap_cons_none hlook]
  cases hs : s.host.pointers.scratch <;> cases hp : h.pointers.scratch <;>
    simp [hedit, hs, hp]

/-- What was obtained is what was kept, what was attempted, and what is owned still. -/
theorem settle_perm {owned owned' : List UInt32} {events : List BlockEvent}
    (h : settle owned events = some owned') :
    (events.filterMap BlockEvent.obtained? ++ owned).Perm
      (events.filterMap BlockEvent.kept? ++
        (events.filterMap BlockEvent.attempted? ++ owned')) := by
  -- On the events: the block an event takes away is the newest that is owned, in front of the rest.
  induction events generalizing owned with
  | nil =>
    cases h
    exact .refl _
  | cons e rest ih =>
    cases e with
    | obtained address =>
      exact List.perm_middle.symm.trans (ih h)
    | kept address =>
      cases owned with
      | nil => cases h
      | cons newest owned =>
        rw [settle] at h
        split at h
        · next heq =>
          subst heq
          exact List.perm_middle.trans ((ih h).cons newest)
        · cases h
    | attempted address =>
      cases owned with
      | nil => cases h
      | cons newest owned =>
        rw [settle] at h
        split at h
        · next heq =>
          subst heq
          exact (List.perm_middle.trans ((ih h).cons newest)).trans List.perm_middle.symm
        · cases h

example : settle [] [.obtained 8, .obtained 16, .kept 16, .attempted 8] = some [] := by decide

theorem attempts_of_blocks {steps : List Step}
    (h : (blocks steps).filterMap BlockEvent.attempted? = []) : attempts steps = [] := by
  rw [attempted_blocks] at h
  exact List.map_eq_nil_iff.mp h

theorem append_eq_append_cons {α : Type} {as bs before after : List α} {x : α}
    (h : as ++ bs = before ++ x :: after) :
    (∃ rest, as = before ++ x :: rest ∧ after = rest ++ bs) ∨
      ∃ rest, before = as ++ rest ∧ bs = rest ++ x :: after := by
  rcases List.append_eq_append_iff.mp h with ⟨rest, hbefore, hrest⟩ | ⟨rest, hfirst, hrest⟩
  · exact .inr ⟨rest, hbefore, hrest⟩
  · cases rest with
    | nil =>
      rw [List.append_nil] at hfirst
      exact .inr ⟨[], by rw [hfirst, List.append_nil], hrest.symm⟩
    | cons y rest =>
      cases hrest
      exact .inl ⟨rest, hfirst, rfl⟩

/-- What came of an attempt to give a block back: of the search for the function that does it, and of
its call if it was found. -/
inductive Attempted (m : Module) (address : UInt32) : List Step → Except Error Unit → Prop where
  | missed {search : List Step} (e : Error) : Sought m Guest.deallocator search (.error e) →
    Attempted m address search (.error e)
  | called {search : List Step} (f : Nat) (returned : Except Error (List Value)) (s s' : State)
    (t : Trace) : Sought m Guest.deallocator search (.ok f) →
    Attempted m address (search ++ [⟨.call .release f [.i32 address], returned, s, s', t⟩])
      (returned.map fun _ => ())

/-- Each attempt that is reported was made in the steps right before. -/
def Answered (m : Module) (steps : List Step) : Prop :=
  ∀ before x after address outcome, steps = before ++ x :: after →
    x.op.attempt? = some (address, outcome) →
    ∃ tried, tried <:+ before ∧ Attempted m address tried outcome

namespace Answered

variable {m : Module} {steps steps' : List Step}

theorem of_attempts_nil (h : attempts steps = []) : Answered m steps := by
  rintro before x after address outcome rfl hx
  have hmem : (address, outcome) ∈ attempts (before ++ x :: after) :=
    List.mem_filterMap.mpr ⟨x, List.mem_append_right _ (.head _), hx⟩
  rw [h] at hmem
  cases hmem

theorem append (h : Answered m steps) (h' : Answered m steps') : Answered m (steps ++ steps') := by
  intro before x after address outcome heq hx
  rcases append_eq_append_cons heq with ⟨rest, rfl, -⟩ | ⟨rest, rfl, rfl⟩
  · exact h before x rest address outcome rfl hx
  · obtain ⟨tried, htried, hattempted⟩ := h' rest x after address outcome rfl hx
    exact ⟨tried, htried.trans (List.suffix_append _ _), hattempted⟩

theorem report {address : UInt32} {outcome : Except Error Unit} {s s' : State} {t : Trace}
    (hnone : attempts steps = []) (h : Attempted m address steps outcome) :
    Answered m (steps ++ [⟨.ask (.report (.released address outcome)), (), s, s', t⟩]) := by
  intro before x after address' outcome' heq hx
  rcases append_eq_append_cons heq with ⟨rest, hsteps, -⟩ | ⟨rest, rfl, hreport⟩
  · exact of_attempts_nil hnone before x rest address' outcome' hsteps hx
  · cases rest with
    | nil =>
      cases hreport
      cases hx
      rw [List.append_nil]
      exact ⟨steps, List.suffix_rfl, h⟩
    | cons y rest =>
      obtain ⟨-, hnil⟩ := List.cons.inj hreport
      cases rest <;> cases hnil

end Answered

def State.scratch (s : State) : Option UInt32 := s.host.pointers.scratch

/-- Steps that owe the blocks `old` to the guest when they begin owe `new` when they end. Scratch is
kept only where there was none; what is given back is what attempts are made for. -/
structure Ledger (m : Module) (old new : List UInt32) (s : State) (steps : List Step) (s' : State) :
    Prop where
  settles (owned : List UInt32) (rest : List BlockEvent) :
    settle (old ++ owned) (blocks steps ++ rest) = settle (new ++ owned) rest
  keeps : (blocks steps).filterMap BlockEvent.kept? = [] ∧ s'.scratch = s.scratch ∨ ∃ address,
    (blocks steps).filterMap BlockEvent.kept? = [address] ∧ s.scratch = none ∧
      s'.scratch = some address
  called : (freed steps).Sublist ((attempts steps).map Prod.fst)
  succeeded : (givenBack steps).Sublist (freed steps)
  answered : Answered m steps

namespace Ledger

variable {m : Module} {old mid new : List UInt32} {s s₁ s' : State} {steps steps' : List Step} {address : UInt32}

theorem trans (h : Ledger m old mid s steps s₁) (h' : Ledger m mid new s₁ steps' s') :
    Ledger m old new s (steps ++ steps') s' where
  settles owned rest := by rw [blocks_append, List.append_assoc, h.settles, h'.settles]
  keeps := by
    rw [blocks_append, List.filterMap_append]
    rcases h.keeps with ⟨hnone, hs₁⟩ | ⟨address, hkept, hs, hs₁⟩
    · rw [hnone, List.nil_append, ← hs₁]
      exact h'.keeps
    · rcases h'.keeps with ⟨hnone', hs'⟩ | ⟨_, _, hs₁', _⟩
      · rw [hkept, hnone']
        exact .inr ⟨address, rfl, hs, hs'.trans hs₁⟩
      · rw [hs₁] at hs₁'
        cases hs₁'
  called := by
    rw [freed_append, attempts_append, List.map_append]
    exact h.called.append h'.called
  succeeded := by
    rw [givenBack_append, freed_append]
    exact h.succeeded.append h'.succeeded
  answered := h.answered.append h'.answered

theorem frame (h : Ledger m old new s steps s') (more : List UInt32) :
    Ledger m (old ++ more) (new ++ more) s steps s' :=
  { h with settles := fun owned rest => by rw [List.append_assoc, h.settles, List.append_assoc] }

theorem of_attempts_nil (hattempts : attempts steps = []) (hfreed : freed steps = [])
    (hsettles : ∀ owned rest,
      settle (old ++ owned) (blocks steps ++ rest) = settle (new ++ owned) rest)
    (hkeeps : (blocks steps).filterMap BlockEvent.kept? = [] ∧ s'.scratch = s.scratch ∨ ∃ address,
      (blocks steps).filterMap BlockEvent.kept? = [address] ∧ s.scratch = none ∧
        s'.scratch = some address) : Ledger m old new s steps s' := by
  refine ⟨hsettles, hkeeps, ?_, ?_, .of_attempts_nil hattempts⟩
  · rw [hfreed]
    exact List.nil_sublist _
  · rw [givenBack, hattempts]
    exact List.nil_sublist _

theorem still (hblocks : blocks steps = []) (hfreed : freed steps = [])
    (hs : s'.scratch = s.scratch) : Ledger m [] [] s steps s' := by
  have hattempts : attempts steps = [] := attempts_of_blocks (by rw [hblocks]; rfl)
  refine of_attempts_nil hattempts hfreed (fun owned rest => ?_) (.inl ⟨?_, hs⟩)
  · rw [hblocks]
    rfl
  · rw [hblocks]
    rfl

theorem nil (s : State) : Ledger m [] [] s [] s := still rfl rfl rfl

theorem obtain (hblocks : blocks steps = [.obtained address]) (hfreed : freed steps = [])
    (hs : s'.scratch = s.scratch) : Ledger m [] [address] s steps s' := by
  have hattempts : attempts steps = [] := attempts_of_blocks (by rw [hblocks]; rfl)
  refine of_attempts_nil hattempts hfreed (fun owned rest => ?_) (.inl ⟨?_, hs⟩)
  · rw [hblocks]
    rfl
  · rw [hblocks]
    rfl

theorem keep (hblocks : blocks steps = [.kept address]) (hfreed : freed steps = [])
    (hs : s.scratch = none) (hs' : s'.scratch = some address) : Ledger m [address] [] s steps s' := by
  have hattempts : attempts steps = [] := attempts_of_blocks (by rw [hblocks]; rfl)
  refine of_attempts_nil hattempts hfreed (fun owned rest => ?_) (.inr ⟨address, ?_, hs, hs'⟩)
  · rw [hblocks]
    exact if_pos rfl
  · rw [hblocks]
    rfl

theorem attempt (outcome : Except Error Unit) (hattempts : attempts steps = [(address, outcome)])
    (hblocks : blocks steps = [.attempted address])
    (hfreed : freed steps = [address] ∨ freed steps = [] ∧ outcome.isOk = false)
    (hanswered : Answered m steps) (hs : s'.scratch = s.scratch) : Ledger m [address] [] s steps s' where
  settles owned rest := by
    rw [hblocks]
    exact if_pos rfl
  keeps := by
    rw [hblocks]
    exact .inl ⟨rfl, hs⟩
  called := by
    rw [hattempts]
    rcases hfreed with hfreed | ⟨hfreed, -⟩
    · rw [hfreed]
      exact List.Sublist.refl _
    · rw [hfreed]
      exact List.nil_sublist _
  succeeded := by
    rw [givenBack, hattempts]
    rcases hfreed with hfreed | ⟨hfreed, hfailed⟩
    · rw [hfreed]
      cases outcome
      · exact List.nil_sublist _
      · exact List.Sublist.refl _
    · -- An attempt that calls nothing fails.
      cases outcome
      · exact List.nil_sublist _
      · cases hfailed
  answered := hanswered

end Ledger

/-- The account of an operation as a whole: what it obtained and did not keep is what it attempted
to give back, each block once, the newest first; only such attempts call the function that gives a
block back; and an attempt comes out as that call did, or fails for want of that function. -/
structure Balanced (m : Module) (steps : List Step) : Prop where
  perm : ((blocks steps).filterMap BlockEvent.obtained?).Perm
    ((blocks steps).filterMap BlockEvent.kept? ++ (attempts steps).map Prod.fst)
  newestFirst : settle [] (blocks steps) = some []
  keepsOne : ((blocks steps).filterMap BlockEvent.kept?).length ≤ 1
  called : (freed steps).Sublist ((attempts steps).map Prod.fst)
  succeeded : (givenBack steps).Sublist (freed steps)
  answered : Answered m steps

/-- Only steps that do something with blocks count. -/
theorem Balanced.around {m : Module} {steps after : List Step} (h : Balanced m steps) (before : List Step)
    (hbefore : blocks before = []) (hbefore' : freed before = [])
    (hafter : blocks after = []) (hafter' : freed after = []) :
    Balanced m (before ++ (steps ++ after)) := by
  have hblocks : blocks (before ++ (steps ++ after)) = blocks steps := by simp [hbefore, hafter]
  have hfreed : freed (before ++ (steps ++ after)) = freed steps := by simp [hbefore', hafter']
  have hnone : attempts before = [] := attempts_of_blocks (by rw [hbefore]; rfl)
  have hnone' : attempts after = [] := attempts_of_blocks (by rw [hafter]; rfl)
  have hattempts : attempts (before ++ (steps ++ after)) = attempts steps := by
    simp [hnone, hnone']
  exact {
    perm := by
      rw [hblocks, hattempts]
      exact h.perm
    newestFirst := by
      rw [hblocks]
      exact h.newestFirst
    keepsOne := by
      rw [hblocks]
      exact h.keepsOne
    called := by
      rw [hfreed, hattempts]
      exact h.called
    succeeded := by
      rw [givenBack, hattempts, hfreed]
      exact h.succeeded
    answered := (Answered.of_attempts_nil hnone).append
      (h.answered.append (.of_attempts_nil hnone')) }

theorem Ledger.balanced {m : Module} {s s' : State} {steps : List Step}
    (h : Ledger m [] [] s steps s') : Balanced m steps := by
  have hsettle : settle [] (blocks steps) = some [] := by simpa [settle] using h.settles [] []
  refine ⟨?_, hsettle, ?_, h.called, h.succeeded, h.answered⟩
  · simpa [attempted_blocks] using settle_perm hsettle
  · rcases h.keeps with ⟨hnone, -⟩ | ⟨address, hkept, -⟩
    · simp [hnone]
    · simp [hkept]

end SandboxHost

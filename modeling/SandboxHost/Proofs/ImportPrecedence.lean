import Mathlib.Data.List.Induction
import Mathlib.Data.String.Basic
import SandboxHost.Proofs.Instances
import SandboxHost.Proofs.Unwinding

namespace SandboxHost

namespace ImportMap

/-- One change that an embedding program makes to its imports. -/
inductive Edit where
  | insert (name : String) (f : HostFunction)
  | insertMissing (name : String) (f : HostFunction)

namespace Edit

def apply (m : ImportMap) : Edit → ImportMap
  | .insert name f => m.insert name f
  | .insertMissing name f => m.insertMissing name f

/-- What the change puts under the name, whatever was there. -/
def replacement? (name : String) : Edit → Option HostFunction
  | .insert n f => if n = name then some f else none
  | .insertMissing _ _ => none

/-- What the change puts under the name if nothing was there. -/
def filling? (name : String) : Edit → Option HostFunction
  | .insert _ _ => none
  | .insertMissing n f => if n = name then some f else none

end Edit

def ofEdits (edits : List Edit) : ImportMap := edits.foldl Edit.apply empty

/-- What an embedding program supplies under a name: the last function that it inserted, or else the
first one that filled the name. -/
def supplied? (edits : List Edit) (name : String) : Option HostFunction :=
  (edits.reverse.findSome? (Edit.replacement? name)).or (edits.findSome? (Edit.filling? name))

/-- What the host has for a name: an import for the call state, or a system call. -/
def builtin? (name : String) : Option HostFunction :=
  ((Callback.all.find? (·.name == name)).map .ofCallback).or
    ((Handler.ofName? name).map .ofHandler)

theorem lookup_put (name other : String) (f : HostFunction)
    (entries : List (String × HostFunction)) :
    (put name f entries).lookup other = if name = other then some f else entries.lookup other := by
  induction entries with
  | nil => grind [put]
  | cons first rest ih =>
    obtain ⟨n, g⟩ := first
    rw [put]
    split_ifs <;> grind

theorem get?_insert (m : ImportMap) (name other : String) (f : HostFunction) :
    (m.insert name f).get? other = if name = other then some f else m.get? other :=
  lookup_put name other f m.entries

theorem get?_insertMissing (m : ImportMap) (name other : String) (f : HostFunction) :
    (m.insertMissing name f).get? other =
      (m.get? other).or (if name = other then some f else none) := by
  unfold insertMissing contains
  by_cases hother : name = other
  · subst hother
    cases hfound : m.get? name <;> simp [hfound, get?_insert]
  · split <;> simp [get?_insert, hother]

/-- Filling a map with a row of functions leaves its entries, and adds the first of each name. -/
theorem get?_fill {α : Type} (name : α → String) (f : α → HostFunction) (as : List α)
    (m : ImportMap) (other : String) :
    (as.foldl (fun m a => m.insertMissing (name a) (f a)) m).get? other =
      (m.get? other).or ((as.find? (name · == other)).map f) := by
  induction as generalizing m with
  | nil => simp
  | cons a rest ih =>
    rw [List.foldl_cons, ih, get?_insertMissing, Option.or_assoc]
    by_cases h : name a = other <;> simp [h]

theorem get?_complete (m : ImportMap) (name : String) :
    m.complete.get? name = (m.get? name).or (builtin? name) := by
  rw [complete, fillHandlers, get?_fill, fillCallbacks, get?_fill, Option.or_assoc]
  rfl

theorem get?_ofEdits (edits : List Edit) (name : String) :
    (ofEdits edits).get? name = supplied? edits name := by
  -- On the changes, the last one first: it goes over what the others made.
  induction edits using List.reverseRecOn with
  | nil => rfl
  | append_singleton edits edit ih =>
    have happly : ofEdits (edits ++ [edit]) = edit.apply (ofEdits edits) :=
      List.foldl_concat Edit.apply empty edit edits
    rw [happly, supplied?, List.reverse_concat, List.findSome?_cons, List.findSome?_append]
    cases edit with
    | insert n f =>
      rw [Edit.apply, get?_insert, ih]
      by_cases h : n = name <;> simp [Edit.replacement?, Edit.filling?, supplied?, h]
    | insertMissing n f =>
      rw [Edit.apply, get?_insertMissing, ih]
      by_cases h : n = name <;>
        simp [Edit.replacement?, Edit.filling?, supplied?, h]

theorem builtin?_callback (c : Callback) : builtin? c.name = some (.ofCallback c) := by
  cases c <;> rfl

theorem builtin?_handler (h : Handler) : builtin? h.name = some (.ofHandler h) := by
  cases h <;> rfl

theorem name_of_builtin? {name : String} {f : HostFunction} (h : builtin? name = some f) :
    (∃ c : Callback, c.name = name) ∨ ∃ h : Handler, h.name = name := by
  rw [builtin?, Option.or_eq_some_iff] at h
  obtain h | ⟨-, h⟩ := h
  · obtain ⟨c, hc, -⟩ := Option.map_eq_some_iff.mp h
    exact .inl ⟨c, by simpa using List.find?_some hc⟩
  · obtain ⟨h, hh, -⟩ := Option.map_eq_some_iff.mp h
    exact .inr ⟨h, by simpa using List.find?_some hh⟩

theorem fill_of_contains {α : Type} {name : α → String} (f : α → HostFunction) {as : List α}
    {m : ImportMap} (h : ∀ a ∈ as, m.contains (name a)) :
    as.foldl (fun m a => m.insertMissing (name a) (f a)) m = m := by
  induction as with
  | nil => rfl
  | cons a rest ih =>
    rw [List.foldl_cons, insertMissing, if_pos (h a List.mem_cons_self)]
    exact ih fun b hb => h b (List.mem_cons_of_mem a hb)

theorem complete_complete (m : ImportMap) : m.complete.complete = m.complete := by
  have hcontains {name : String} {f : HostFunction} (h : builtin? name = some f) :
      m.complete.contains name := by
    rw [contains, get?_complete, h]
    simp
  rw [complete, fillCallbacks, fill_of_contains _ fun c _ => hcontains (builtin?_callback c)]
  exact fill_of_contains _ fun h _ => hcontains (builtin?_handler h)

def IsOrdered (m : ImportMap) : Prop := m.entries.Pairwise (·.1 < ·.1)

theorem IsOrdered.insert {m : ImportMap} (hm : m.IsOrdered) (name : String) (f : HostFunction) :
    (m.insert name f).IsOrdered := by
  obtain ⟨entries⟩ := m
  change (put name f entries).Pairwise (·.1 < ·.1)
  induction entries with
  | nil => exact List.pairwise_singleton _ _
  | cons first rest ih =>
    obtain ⟨n, g⟩ := first
    obtain ⟨hfirst, hrest⟩ := List.pairwise_cons.mp hm
    rw [put]
    split_ifs with hlt heq
    · refine List.pairwise_cons.mpr ⟨fun x hx => ?_, hm⟩
      obtain rfl | hx := List.mem_cons.mp hx
      · exact hlt
      · exact hlt.trans (hfirst x hx)
    · subst heq
      exact List.pairwise_cons.mpr ⟨hfirst, hrest⟩
    · refine List.pairwise_cons.mpr ⟨fun x hx => ?_, ih hrest⟩
      obtain rfl | hx := mem_put hx
      · exact lt_of_le_of_ne (not_lt.mp hlt) (Ne.symm heq)
      · exact hfirst x hx

theorem IsOrdered.insertMissing {m : ImportMap} (hm : m.IsOrdered) (name : String)
    (f : HostFunction) : (m.insertMissing name f).IsOrdered := by
  unfold ImportMap.insertMissing
  split
  · exact hm
  · exact hm.insert name f

theorem IsOrdered.fill {α : Type} (name : α → String) (f : α → HostFunction) (as : List α)
    {m : ImportMap} (hm : m.IsOrdered) :
    (as.foldl (fun m a => m.insertMissing (name a) (f a)) m).IsOrdered := by
  induction as generalizing m with
  | nil => exact hm
  | cons a rest ih => exact ih (hm.insertMissing (name a) (f a))

theorem IsOrdered.complete {m : ImportMap} (hm : m.IsOrdered) : m.complete.IsOrdered :=
  .fill _ _ _ (.fill _ _ _ hm)

theorem isOrdered_ofEdits (edits : List Edit) : (ofEdits edits).IsOrdered := by
  induction edits using List.reverseRecOn with
  | nil => exact List.Pairwise.nil
  | append_singleton edits edit ih =>
    rw [ofEdits, List.foldl_concat]
    cases edit with
    | insert name f => exact ih.insert name f
    | insertMissing name f => exact ih.insertMissing name f

end ImportMap

namespace HostFunction

def answer (f : HostFunction) : Except Error (Option Value) → Except Error (List Value)
  | .ok given =>
    match Machine.importResults f.type.results given with
    | some results => .ok results
    | none => .error (.trap .badResult)
  | .error e => .error e

end HostFunction

namespace Machine

def served (m : Machine) (f : HostFunction) (args : List Value) : Nat → Nat → Exec (List Value)
  | depth + 1, hostDepth + 1 => m.hostCall (m.callFunction depth hostDepth .host) f args
  | _, _ => Exec.trap .callDepth

/-- A call that happens in an instance, with so many levels left for calls and for imports. It is
that of the start function, it is made by an operation from outside, or it is made in the course of
another call, by a host program behind an import or by guest code. -/
inductive Nested (m : Machine) : Nat → Nat → Caller → Called → Prop where
  | start {c : Called} : c.Of m.callFromOutside → Nested m maxDepth maxHostDepth .host c
  | operation {α : Type} {p : Program α} {s s' : State} {a : α} {c : Called} {steps : List Step}
    {purpose : Purpose} : m.Takes m.callFromOutside p s steps a s' → c.step purpose ∈ steps →
    Nested m maxDepth maxHostDepth .host c
  | host {depth hostDepth : Nat} {caller : Caller} {c c' : Called} {f : HostFunction}
    {steps : List Step} {purpose : Purpose} {r : Except Error (Option Value)} :
    Nested m (depth + 1) (hostDepth + 1) caller c →
    m.Serves (m.callFunction depth hostDepth .host) c f steps r → c'.step purpose ∈ steps →
    Nested m depth hostDepth .host c'
  | guest {depth hostDepth : Nat} {caller : Caller} {c c' : Called} {func : Func}
    {calls : List Called} : Nested m (depth + 1) hostDepth caller c →
    m.EntersGuest c.function c.args func →
    m.Makes (m.callFunction depth hostDepth .guest)
      (m.enter (m.callFunction depth hostDepth .guest) func c.args) c.before calls c.answer
      c.after →
    c' ∈ calls → Nested m depth hostDepth .guest c'

/-- A call of a function of the host, with so many levels left, was refused for want of levels or
ran the program of the function. -/
inductive ServedBy (m : Machine) (f : HostFunction) : Nat → Nat → Called → Prop where
  | refused {depth hostDepth : Nat} {c : Called} : depth = 0 ∨ hostDepth = 0 →
    c.answer = .error (.trap .callDepth) → c.after = c.before → ServedBy m f depth hostDepth c
  | ran {depth hostDepth : Nat} {c : Called} {steps : List Step}
    {r : Except Error (Option Value)} :
    m.Serves (m.callFunction depth hostDepth .host) c f steps r → c.answer = f.answer r →
    ServedBy m f (depth + 1) (hostDepth + 1) c

/-- Behind the import is this function of the same type, and every call of it runs its program. -/
structure Runs (m : Machine) (i : Nat) (f : HostFunction) : Prop where
  type : (m.setup.module.imports[i]?).map Import.type = some f.type
  /-- Whoever calls, and however many levels are left. -/
  called {args : List Value} : typesOf args = f.type.params → ∀ depth hostDepth caller,
    m.callFunction depth hostDepth caller i args = m.served f args depth hostDepth
  /-- In the start function, in the entry point of a run, in the allocator, and in all that these
  call. -/
  nested {depth hostDepth : Nat} {caller : Caller} {c : Called} :
    m.Nested depth hostDepth caller c → c.function = i → typesOf c.args = f.type.params →
    m.ServedBy f depth hostDepth c

variable {m : Machine} {f : HostFunction} {i depth hostDepth : Nat} {caller : Caller}
  {args : List Value} {c : Called}

theorem EntersHost.callFunction_eq (h : m.EntersHost i args f) (depth hostDepth : Nat)
    (caller : Caller) :
    m.callFunction depth hostDepth caller i args = m.served f args depth hostDepth := by
  cases depth with
  | zero =>
    rw [callFunction_zero]
    rfl
  | succ depth =>
    cases hostDepth with
    | zero =>
      rw [callFunction_succ m depth 0 caller h.type, if_pos h.lt]
      rfl
    | succ hostDepth => exact h.callFunction depth hostDepth caller

theorem Takes.of_mem {call : Callee} {α : Type} {p : Program α} {s s' : State} {a : α}
    {steps : List Step} {purpose : Purpose} (h : m.Takes call p s steps a s')
    (hmem : c.step purpose ∈ steps) : c.Of call := by
  obtain ⟨before, after, rfl⟩ := List.append_of_mem hmem
  exact Program.of_step h

theorem Nested.of (h : m.Nested depth hostDepth caller c) :
    c.Of (m.callFunction depth hostDepth caller) := by
  cases h with
  | start hc => exact hc
  | operation htakes hmem => exact htakes.of_mem hmem
  | host _ hserves hmem => exact hserves.takes.of_mem hmem
  | guest _ _ hmakes hmem => exact hmakes.of_mem hmem

theorem run_hostCall (m : Machine) (call : Callee) (f : HostFunction) (args : List Value)
    (s : State) : (m.hostCall call f args).run.run s =
      (m.perform call (f.program args).run s).bind fun x => .done (f.answer x.1, x.2) := by
  rw [hostCall, Exec.run_bind]
  refine congrArg _ (funext fun x => ?_)
  obtain ⟨r, s₁⟩ := x
  cases r with
  | error e => rfl
  | ok given =>
    dsimp only [HostFunction.answer]
    cases importResults f.type.results given <;> rfl

theorem EntersHost.servedBy (h : m.EntersHost c.function c.args f)
    (hc : c.Of (m.callFunction depth hostDepth caller)) : m.ServedBy f depth hostDepth c := by
  rw [Called.Of, h.callFunction_eq] at hc
  unfold served at hc
  split at hc
  · rw [run_hostCall, Dialogue.ends_bind] at hc
    obtain ⟨t, ⟨r, s⟩, _, hprogram, hdone, htrace⟩ := hc
    obtain ⟨rfl, hafter⟩ := Dialogue.ends_done.mp hdone
    obtain ⟨hanswer, rfl⟩ := Prod.mk.inj hafter
    obtain ⟨steps, htakes, rfl⟩ := ends_perform.mp hprogram
    exact .ran ⟨h, htakes, by rw [htrace, List.append_nil]⟩ hanswer
  · next hlevels =>
    obtain ⟨hanswer, hafter⟩ := Prod.mk.inj (Dialogue.ends_done.mp hc).2
    refine .refused ?_ hanswer hafter
    by_contra hpositive
    obtain ⟨hdepth, hhost⟩ := not_or.mp hpositive
    obtain ⟨depth, rfl⟩ := Nat.exists_eq_succ_of_ne_zero hdepth
    obtain ⟨hostDepth, rfl⟩ := Nat.exists_eq_succ_of_ne_zero hhost
    exact hlevels depth hostDepth rfl rfl

theorem runs_of_target (htype : (m.setup.module.imports[i]?).map Import.type = some f.type)
    (htarget : m.targets[i]? = some (.function f)) : m.Runs i f := by
  have henters {args : List Value} (hargs : typesOf args = f.type.params) :
      m.EntersHost i args f := by
    obtain ⟨declared, hdeclared, heq⟩ := Option.map_eq_some_iff.mp htype
    obtain ⟨hlt, -⟩ := Array.getElem?_eq_some_iff.mp hdeclared
    refine ⟨?_, hlt, htarget⟩
    rw [Module.funcType?, if_pos hlt, htype, hargs]
    rfl
  refine ⟨htype, fun hargs => (henters hargs).callFunction_eq, fun hc hi hargs => ?_⟩
  subst hi
  exact (henters hargs).servedBy hc.of

end Machine

namespace Instantiation

theorem exists_getElem?_of_mapM {α β : Type} {f : α → Option β} {as : List α} {bs : List β}
    (h : as.mapM f = some bs) {i : Nat} {a : α} (hi : as[i]? = some a) :
    ∃ b, f a = some b ∧ bs[i]? = some b := by
  induction as generalizing i bs with
  | nil => cases hi
  | cons first rest ih =>
    simp only [List.mapM_cons, Option.bind_eq_bind, Option.bind_eq_some_iff, Option.pure_def,
      Option.some.injEq] at h
    obtain ⟨b, hb, bs, hrest, rfl⟩ := h
    cases i with
    | zero =>
      cases hi
      exact ⟨b, hb, rfl⟩
    | succ i => exact ih hrest hi

/-- An import of a name that the map has is served by its entry, and by that only if the types
agree. -/
theorem target?_of_get? {functions : ImportMap} {module : Module} {declared : Import}
    {f : HostFunction} {target : Target} (hspace : declared.space = namespaceOfHandlers)
    (hf : functions.get? declared.name = some f)
    (h : target? functions module declared = some target) :
    f.type = declared.type ∧ target = .function f := by
  rw [target?, if_pos hspace, hf] at h
  split at h
  · cases h
  · dsimp only at h
    split at h
    · next htype =>
      cases h
      exact ⟨htype, rfl⟩
    · cases h

/-- The entry of an import's name runs at every call of the import. -/
theorem runs_of_prepare {c : Config} {e : Embedding} {module : Module} {m : Machine} {s : State}
    (h : prepare c e module = .ok (m, s)) {i : Nat} {declared : Import} {f : HostFunction}
    (hi : module.imports[i]? = some declared) (hspace : declared.space = namespaceOfHandlers)
    (hf : e.imports.complete.get? declared.name = some f) : m.Runs i f := by
  obtain ⟨targets, htargets, rfl, -⟩ := exists_targets_of_prepare h
  have hlist : module.imports.toList.mapM (target? e.imports.complete module) =
      some targets.toList := by
    rw [← Array.toList_mapM, htargets]
    rfl
  obtain ⟨target, htarget, hfound⟩ :=
    exists_getElem?_of_mapM hlist ((Array.getElem?_toList).trans hi)
  obtain ⟨htype, rfl⟩ := target?_of_get? hspace hf htarget
  refine Machine.runs_of_target ?_ ((Array.getElem?_toList).symm.trans hfound)
  change (module.imports[i]?).map Import.type = some f.type
  rw [hi, htype]
  rfl

end Instantiation

namespace ImportMap

/-- Which functions stand behind names, and that they run at every call, for the imports that these
changes make. -/
structure Precedence (edits : List Edit) : Prop where
  /-- What is supplied comes first, then what the host has, and nothing else is there. -/
  entry (name : String) :
    (ofEdits edits).complete.get? name = (supplied? edits name).or (builtin? name)
  callback (c : Callback) : builtin? c.name = some (.ofCallback c)
  handler (h : Handler) : builtin? h.name = some (.ofHandler h)
  builtin {name : String} {f : HostFunction} : builtin? name = some f →
    (∃ c : Callback, c.name = name) ∨ ∃ h : Handler, h.name = name
  ordered : (ofEdits edits).complete.IsOrdered
  again : (ofEdits edits).complete.complete = (ofEdits edits).complete
  runs {c : Config} {e : Embedding} {module : Module} {m : Machine} {s : State} :
    Instantiation.prepare c { e with imports := ofEdits edits } module = .ok (m, s) →
    ∀ {i : Nat} {declared : Import} {f : HostFunction}, module.imports[i]? = some declared →
      declared.space = Instantiation.namespaceOfHandlers →
      (ofEdits edits).complete.get? declared.name = some f → m.Runs i f

/-- For every map that an embedding program can make. -/
theorem supplied_functions_come_first (edits : List Edit) : Precedence edits where
  entry name := by rw [get?_complete, get?_ofEdits]
  callback := builtin?_callback
  handler := builtin?_handler
  builtin := name_of_builtin?
  ordered := (isOrdered_ofEdits edits).complete
  again := complete_complete (ofEdits edits)
  runs h _ _ _ := Instantiation.runs_of_prepare h

def numbered : Module :=
  { memory := some ⟨1, none, some Module.memoryExport, none⟩
    table := none
    globals := [0]
    data := []
    imports := #[⟨Instantiation.namespaceOfHandlers, Handler.getpid.name, ⟨[], [.i32]⟩⟩]
    funcs := #[⟨⟨[], []⟩, [], [.apply (.globalSet 0) [.call 0 []]]⟩]
    exports := []
    start := some 1 }

def chosen (w : UInt32) : HostFunction :=
  ⟨⟨[], [.i32]⟩, .supplied fun _ => .done (.ok (some (.i32 w)))⟩

/-- The start function gets the number that was inserted last. -/
theorem supplied_functions_come_first_at_start :
    let edits := [Edit.insertMissing Handler.getpid.name (chosen 3),
      .insert Handler.getpid.name (chosen 5), .insert Handler.getpid.name (chosen 7),
      .insertMissing Handler.getpid.name (chosen 9)]
    let e : Embedding := { directoryExists := fun _ => true }
    ∃ m s t s', Instantiation.prepare .standard { e with imports := ofEdits edits } numbered =
        .ok (m, s) ∧ m.Runs 0 (chosen 7) ∧
      ((m.callFromOutside 1 []).run.run s).Ends t (.ok [], s') ∧ s'.globals = #[7] := by
  intro edits e
  let prepared := Instantiation.prepare .standard { e with imports := ofEdits edits } numbered
  have hcheck : prepared.toOption.any (fun made =>
      (((made.1.callFromOutside 1 []).run.run made.2).answered Request.unsupported).any
        fun x => x.1.toOption == some [] && x.2.globals == #[7]) = true := by
    decide +kernel
  obtain ⟨⟨m, s⟩, hmade, hstart⟩ := (Option.any_eq_true _ _).mp hcheck
  obtain ⟨t, ⟨answer, s'⟩, hends, hanswer⟩ := Dialogue.exists_ends_of_any_answered hstart
  obtain ⟨hreturned, hglobals⟩ := (Bool.and_eq_true _ _).mp hanswer
  cases hprepare : prepared with
  | error _ =>
    rw [hprepare] at hmade
    cases hmade
  | ok made =>
    rw [hprepare] at hmade
    cases hmade
    cases answer with
    | error _ => cases hreturned
    | ok values =>
      cases eq_of_beq hreturned
      let declared : Import :=
        ⟨Instantiation.namespaceOfHandlers, Handler.getpid.name, ⟨[], [.i32]⟩⟩
      have himport : numbered.imports[0]? = some declared := rfl
      have hentry := (supplied_functions_come_first edits).entry declared.name
      have hruns := (supplied_functions_come_first edits).runs hprepare himport rfl hentry
      exact ⟨m, s, t, s', hprepare, hruns, hends, eq_of_beq hglobals⟩

end ImportMap

end SandboxHost

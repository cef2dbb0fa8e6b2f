import SandboxHost.Proofs.Interruption

namespace SandboxHost

/-- What the guest has set for the call in flight. -/
structure CallState where
  result : Option Json
  exception : Bool

namespace CallState

def fresh : CallState := ⟨none, false⟩

end CallState

def HostState.callState (h : HostState) : CallState := ⟨h.result, h.exception⟩

namespace Signal

def apply (c : CallState) : Signal → CallState
  | .exception => { c with exception := true }
  | .result value => { c with result := some value }

def isException : Signal → Bool
  | .exception => true
  | .result _ => false

def value? : Signal → Option Json
  | .exception => none
  | .result value => some value

theorem exception_foldl (signals : List Signal) (c : CallState) :
    (signals.foldl apply c).exception = (c.exception || signals.any isException) := by
  induction signals generalizing c with
  | nil => simp
  | cons s rest ih =>
    rw [List.foldl_cons, ih, List.any_cons]
    cases s <;> simp [apply, isException]

theorem result_foldl (signals : List Signal) (c : CallState) :
    (signals.foldl apply c).result = (signals.filterMap value?).getLast?.or c.result := by
  induction signals generalizing c with
  | nil => simp
  | cons s rest ih =>
    rw [List.foldl_cons, ih]
    cases s with
    | exception => simp [apply, value?]
    | result value =>
      have hcons : (Signal.result value :: rest).filterMap value? =
        value :: rest.filterMap value? := rfl
      rw [hcons, List.getLast?_cons]
      cases h : (rest.filterMap value?).getLast? <;> simp [apply]

end Signal

namespace Trace

theorem signals_append {t : Trace} (h : WellNested t.events) (t' : Trace) :
    signals (t ++ t') = t.signals ++ t'.signals := by
  rw [signals, events_append]
  exact h.append 0 _

theorem signals_ask {r : Request} (h : (Op.ask r).IsPlain) (answer : r.Answer) :
    signals [⟨r, answer⟩] = [] := by
  rw [signals, events_single]
  cases r with
  | report e =>
    cases e with
    | signal _ | runBegan _ | runEnded => exact h.elim
    | _ => rfl
  | _ => rfl

end Trace

/-- The call state changes by the signals outside of runs, and by nothing else. -/
def tracking : Law where
  keeps s t s' :=
    WellNested t.events ∧ s'.host.callState = t.signals.foldl Signal.apply s.host.callState
  fails _ := True
  trans := by
    rintro s s₁ s' t t' ⟨hnested, hstate⟩ ⟨hnested', hstate'⟩
    refine ⟨?_, ?_⟩
    · rw [Trace.events_append]
      exact hnested.concat hnested'
    · rw [hstate', hstate, Trace.signals_append hnested, List.foldl_append]
  guest h _ _ := ⟨.nil, by rw [h]; rfl⟩
  trap _ := trivial

variable {m : Machine} {call : Callee}

theorem tracking_nests (hcall : tracking.GovernsCallee call) : nested.GovernsCallee call :=
  fun f args s t r s' h => ⟨(hcall f args s t r s' h).1.1, failsWithin_true r⟩

namespace Callback

theorem perform_readBytes (args : List Value) (s : State) :
    ∃ r, m.perform call (readBytes args).run s = .done (r, s) := by
  rw [readBytes, Syscall.readMemory, Action.perform_bind, Syscall.perform_requireBound]
  split
  · rw [Dialogue.bind, Guest.readMemory, Action.run_lift_bind, Machine.perform_bind, Program.memory,
      Machine.perform_ofOp, Machine.performOp, Dialogue.bind]
    dsimp only
    split
    · exact ⟨_, Action.perform_pure m call _ s⟩
    · exact ⟨_, Action.perform_throw m call _ s⟩
  · exact ⟨_, rfl⟩

theorem ends_setSignal {signal : Signal} {s s' : State} {t : Trace} {r : Except Error Unit}
    (h : (m.perform call (liftM (setSignal signal) : Action Unit).run s).Ends t (r, s')) :
    r = .ok () ∧ t = [⟨.report (.signal signal), ()⟩] := by
  obtain ⟨⟨⟩, t₁, hdone, rfl⟩ := Dialogue.ends_ask.mp h
  cases hdone
  exact ⟨rfl, rfl⟩

/-- Setting something is signalled once if it succeeds, and not at all if it fails. -/
theorem signals_once (c : Callback) (args : List Value) {s s' : State} {t : Trace}
    {r : Except Error Unit} (h : (m.perform call (c.program args).run s).Ends t (r, s')) :
    (∃ e, r = .error e ∧ t = []) ∨ ∃ signal : Signal, r = .ok () ∧
      t = [⟨.report (.signal signal), ()⟩] ∧ (signal.isException ↔ c = .exception) := by
  obtain ⟨given, hgiven⟩ : ∃ given, m.perform call (readBytes args).run s = .done (given, s) :=
    perform_readBytes args s
  have hset {value : Json} (h : (m.perform call (setResult value).run s).Ends t (r, s'))
      (hc : c ≠ .exception) : ∃ signal : Signal, r = .ok () ∧ t = [⟨.report (.signal signal), ()⟩] ∧
        (signal.isException ↔ c = .exception) := by
    obtain ⟨hr, ht⟩ := ends_setSignal h
    exact ⟨.result value, hr, ht, by simp [Signal.isException, hc]⟩
  cases c with
  | exception =>
    obtain ⟨hr, ht⟩ := ends_setSignal h
    exact .inr ⟨.exception, hr, ht, by simp [Signal.isException]⟩
  | int =>
    unfold program at h
    dsimp only at h
    split at h <;> exact .inr (hset h nofun)
  | string =>
    rw [program, Action.perform_bind, hgiven] at h
    cases given with
    | error e =>
      cases h
      exact .inl ⟨e, rfl, rfl⟩
    | ok bytes => exact .inr (hset h nofun)
  | json =>
    rw [program, Action.perform_bind, hgiven] at h
    cases given with
    | error e =>
      cases h
      exact .inl ⟨e, rfl, rfl⟩
    | ok bytes =>
      dsimp only [Dialogue.bind] at h
      split at h
      · exact .inr (hset h nofun)
      · cases h
        exact .inl ⟨_, rfl, rfl⟩

end Callback

theorem Guest.signals_run (hcall : nested.GovernsCallee call) {argv : List String} {s s' : State}
    {t : Trace} {r : Except Error Int32} (h : (m.perform call (run argv).run s).Ends t (r, s')) :
    WellNested t.events ∧ t.signals = [] := by
  refine ⟨(Machine.governs_run coversHost_true hcall (fun _ => trivial) s t r s' h).1, ?_⟩
  cases argv with
  | nil =>
    cases h
    rfl
  | cons path rest =>
    obtain ⟨t₁, hbody, rfl⟩ := ends_run h
    have hnested : WellNested (Trace.events t₁) :=
      (Machine.governs_rolledBack coversHost_true hcall path (path :: rest) s t₁ r s' hbody).1
    show outerSignals 0 (.runBegan (path :: rest) :: Trace.events (t₁ ++ _)) = []
    rw [Trace.events_append]
    exact hnested.signals_run 0 []

/-- Every block of a system call tracks: setting something signals it, and a run puts back what was
set. -/
theorem Serving.tracks (hcall : tracking.GovernsCallee call) (β : Type) (p : Program β)
    (R : β → Prop) (h : Serving m.setup (fun _ => True) β p R) :
    tracking.GovernsProgram m call p R := by
  cases h with
  | op op h =>
    have hask (s : State) (r : Request) (answer : r.Answer) (hr : (Op.ask r).IsPlain) :
        tracking.keeps s [⟨r, answer⟩] s := by
      refine ⟨Trace.wellNested_ask hr.isInner answer, ?_⟩
      rw [Trace.signals_ask hr]
      rfl
    exact Machine.governs_plain hask hcall h.isPlain
  | setup => exact Machine.governs_setup
  | look _ => exact Machine.governs_look
  | edit hsame _ =>
    rintro s t _ s' ⟨⟩
    refine ⟨⟨.nil, ?_⟩, trivial⟩
    show CallState.mk _ _ = CallState.mk _ _
    rw [(hsame s.host).result, (hsame s.host).exception]
  | signal signal =>
    intro s t _ s' h
    obtain ⟨⟨⟩, t₁, hdone, rfl⟩ := Dialogue.ends_ask.mp h
    obtain ⟨rfl, hs'⟩ := Dialogue.ends_done.mp hdone
    cases hs'
    refine ⟨⟨.signal signal, ?_⟩, trivial⟩
    cases signal <;> rfl
  | run _ =>
    intro s t r s' h
    obtain ⟨rfl, -, rfl⟩ | ⟨s₁, hrun, rfl⟩ := Syscall.ends_run h
    · exact ⟨tracking.refl s', failsWithin_true r⟩
    · -- The run may have changed the call state meanwhile; nothing is known of that, nor needed.
      obtain ⟨hnested, hsignals⟩ := Guest.signals_run (tracking_nests hcall) hrun
      refine ⟨⟨hnested, ?_⟩, failsWithin_true r⟩
      rw [hsignals]
      rfl

/-- At every depth of calls. -/
theorem Machine.callFunction_tracks (m : Machine) (depth hostDepth : Nat) (caller : Caller) :
    tracking.GovernsCallee (m.callFunction depth hostDepth caller) :=
  governs_calls coversHost_true (fun _ _ _ _ _ => trivial) (fun _ => Serving.tracks) depth hostDepth
    caller

end SandboxHost

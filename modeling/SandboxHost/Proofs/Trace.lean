import SandboxHost.Host.Dialogue

namespace SandboxHost

namespace Request

def isForOwner : Request → Bool
  | .pause _ | .awaitInput => true
  | _ => false

/-- Whether this waits for time to pass or for input to come. -/
def waits : Request → Bool
  | .sleep _ | .readStdin _ => true
  | _ => false

end Request

structure Exchange where
  request : Request
  answer : request.Answer

abbrev Trace := List Exchange

namespace Dialogue

variable {α β : Type}

/-- The dialogue ends with a value after these exchanges. -/
inductive Ends : Dialogue α → Trace → α → Prop where
  | done (a : α) : Ends (.done a) [] a
  | ask {r : Request} {next : r.Answer → Dialogue α} {answer : r.Answer} {t : Trace} {a : α} :
    Ends (next answer) t a → Ends (.ask r next) (⟨r, answer⟩ :: t) a

@[simp] theorem ends_done {a b : α} {t : Trace} : (Dialogue.done a).Ends t b ↔ t = [] ∧ b = a := by
  constructor
  · rintro ⟨⟩
    exact ⟨rfl, rfl⟩
  · rintro ⟨rfl, rfl⟩
    exact .done _

@[simp] theorem not_ends_diverged {a : α} {t : Trace} :
    ¬ (Dialogue.diverged : Dialogue α).Ends t a := by
  rintro ⟨⟩

@[simp] theorem ends_ask {r : Request} {next : r.Answer → Dialogue α} {t : Trace} {a : α} :
    (Dialogue.ask r next).Ends t a ↔
      ∃ answer t', (next answer).Ends t' a ∧ t = ⟨r, answer⟩ :: t' := by
  constructor
  · rintro ⟨⟩
    exact ⟨_, _, ‹_›, rfl⟩
  · rintro ⟨answer, t', h, rfl⟩
    exact .ask h

theorem ends_bind {d : Dialogue α} {f : α → Dialogue β} {t : Trace} {b : β} :
    (d.bind f).Ends t b ↔ ∃ t₁ a t₂, d.Ends t₁ a ∧ (f a).Ends t₂ b ∧ t = t₁ ++ t₂ := by
  induction d generalizing t with
  | done a =>
    constructor
    · exact fun h => ⟨[], a, t, .done a, h, rfl⟩
    · rintro ⟨_, _, t₂, ⟨⟩, h, rfl⟩
      exact h
  | diverged => simp [Dialogue.bind]
  | ask r next ih =>
    simp only [Dialogue.bind, ends_ask, ih]
    constructor
    · rintro ⟨answer, _, ⟨t₁, a, t₂, h₁, h₂, rfl⟩, rfl⟩
      exact ⟨_, a, t₂, ⟨answer, t₁, h₁, rfl⟩, h₂, rfl⟩
    · rintro ⟨_, a, t₂, ⟨answer, t₁, h₁, rfl⟩, h₂, rfl⟩
      exact ⟨answer, _, ⟨t₁, a, t₂, h₁, h₂, rfl⟩, rfl⟩

theorem always_iff_ends {P : α → Prop} {d : Dialogue α} :
    Always P d ↔ ∀ t a, d.Ends t a → P a := by
  constructor
  · intro h
    induction h with
    | done hp =>
      rintro t a ⟨⟩
      exact hp
    | diverged => simp
    | ask _ ih =>
      intro t a h
      obtain ⟨answer, t', h, -⟩ := ends_ask.mp h
      exact ih answer t' a h
  · intro h
    induction d with
    | done a => exact .done (h [] a (.done a))
    | diverged => exact .diverged
    | ask r next ih => exact .ask fun answer => ih answer fun t a ha => h _ a (.ask ha)

theorem always_bind {Q : β → Prop} {f : α → Dialogue β} (hf : ∀ a, Always Q (f a))
    (d : Dialogue α) : Always Q (d.bind f) := by
  induction d with
  | done a => exact hf a
  | diverged => exact .diverged
  | ask r next ih => exact .ask ih

theorem always_done {P : α → Prop} {a : α} : Always P (.done a) ↔ P a := by
  constructor
  · rintro ⟨⟩
    assumption
  · exact .done

theorem always_ask {P : α → Prop} {r : Request} {next : r.Answer → Dialogue α} :
    Always P (.ask r next) ↔ ∀ answer, Always P (next answer) := by
  constructor
  · rintro ⟨⟩
    assumption
  · exact .ask

inductive Reaches : Dialogue α → Trace → Dialogue α → Prop where
  | refl (d : Dialogue α) : Reaches d [] d
  | ask {r : Request} {next : r.Answer → Dialogue α} {answer : r.Answer} {t : Trace}
    {d : Dialogue α} : Reaches (next answer) t d → Reaches (.ask r next) (⟨r, answer⟩ :: t) d

theorem Reaches.answer {d : Dialogue α} {t : Trace} {r : Request} {next : r.Answer → Dialogue α}
    (h : d.Reaches t (.ask r next)) (answer : r.Answer) :
    d.Reaches (t ++ [⟨r, answer⟩]) (next answer) := by
  generalize hd : Dialogue.ask r next = d' at h
  induction h with
  | refl =>
    subst hd
    exact .ask (.refl _)
  | ask _ ih => exact .ask (ih hd)

theorem Reaches.ends {d d' : Dialogue α} {t t' : Trace} {a : α} (h : d.Reaches t d')
    (h' : d'.Ends t' a) : d.Ends (t ++ t') a := by
  induction h with
  | refl => exact h'
  | ask _ ih => exact .ask (ih h')

/-- What a dialogue comes to where every request has one answer, unless it never ends. -/
def answered (answers : (r : Request) → r.Answer) : Dialogue α → Option α
  | .done a => some a
  | .diverged => none
  | .ask r next => (next (answers r)).answered answers

theorem exists_ends_of_answered {answers : (r : Request) → r.Answer} {d : Dialogue α} {a : α}
    (h : d.answered answers = some a) : ∃ t, d.Ends t a := by
  induction d with
  | done b =>
    cases h
    exact ⟨[], .done _⟩
  | diverged => cases h
  | ask r next ih =>
    obtain ⟨t, ht⟩ := ih (answers r) h
    exact ⟨_, .ask ht⟩

theorem exists_ends_of_any_answered {answers : (r : Request) → r.Answer} {d : Dialogue α}
    {p : α → Bool} (h : (d.answered answers).any p = true) : ∃ t a, d.Ends t a ∧ p a = true := by
  cases hanswered : d.answered answers with
  | none =>
    rw [hanswered] at h
    cases h
  | some a =>
    obtain ⟨t, ht⟩ := exists_ends_of_answered hanswered
    rw [hanswered, Option.any_some] at h
    exact ⟨t, a, ht, h⟩

end Dialogue

def Exchange.event? (x : Exchange) : Option Event :=
  match x.request with
  | .report e => some e
  | _ => none

namespace Trace

def events (t : Trace) : List Event := t.filterMap Exchange.event?

@[simp] theorem events_append (t t' : Trace) : events (t ++ t') = events t ++ events t' :=
  List.filterMap_append ..

end Trace

/-- The signals outside of all runs, where `depth` runs have begun before. -/
def outerSignals : Nat → List Event → List Signal
  | _, [] => []
  | depth, .runBegan _ :: rest => outerSignals (depth + 1) rest
  | depth, .runEnded :: rest => outerSignals (depth - 1) rest
  | 0, .signal s :: rest => s :: outerSignals 0 rest
  | depth, _ :: rest => outerSignals depth rest

def Trace.signals (t : Trace) : List Signal := outerSignals 0 t.events

/-- Each run that begins here ends here, and no other run does. -/
structure WellNested (es : List Event) : Prop where
  append (depth : Nat) (rest : List Event) :
    outerSignals depth (es ++ rest) = outerSignals depth es ++ outerSignals depth rest
  inner (depth : Nat) : outerSignals (depth + 1) es = []

namespace WellNested

theorem nil : WellNested [] := ⟨fun _ _ => rfl, fun _ => rfl⟩

theorem concat {es es' : List Event} (h : WellNested es) (h' : WellNested es') :
    WellNested (es ++ es') where
  append depth rest := by
    rw [List.append_assoc, h.append, h'.append, h.append, List.append_assoc]
  inner depth := by rw [h.append, h.inner, h'.inner, List.append_nil]

theorem signal (s : Signal) : WellNested [.signal s] where
  append depth rest := by cases depth <;> rfl
  inner _ := rfl

theorem released (address : UInt32) (outcome : Except Error Unit) :
    WellNested [.released address outcome] where
  append depth rest := by cases depth <;> rfl
  inner _ := rfl

theorem delivered (d : Delivery) : WellNested [.delivered d] where
  append depth rest := by cases depth <;> rfl
  inner _ := rfl

theorem note (message : Json) : WellNested [.note message] where
  append depth rest := by cases depth <;> rfl
  inner _ := rfl

theorem signals_run {argv : List String} {es : List Event} (h : WellNested es) (depth : Nat)
    (rest : List Event) :
    outerSignals depth (.runBegan argv :: (es ++ .runEnded :: rest)) = outerSignals depth rest := by
  rw [outerSignals, h.append, h.inner]
  simp only [outerSignals, Nat.add_sub_cancel, List.nil_append]

example : outerSignals 0
    [.runBegan ["ls"], .signal .exception, .runEnded, .signal (.result .null)] =
    [.result .null] := rfl

theorem run {argv : List String} {es : List Event} (h : WellNested es) :
    WellNested (.runBegan argv :: (es ++ [.runEnded])) where
  append depth rest := by
    rw [h.signals_run depth [], List.cons_append, List.append_assoc]
    exact h.signals_run depth rest
  inner depth := h.signals_run (depth + 1) []

end WellNested

end SandboxHost

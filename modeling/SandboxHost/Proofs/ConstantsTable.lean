import Mathlib.Data.List.Dedup
import SandboxHost.Proofs.ErrorNumbers
import SandboxHost.Proofs.JsonTexts
import SandboxHost.Proofs.KeptBinding

namespace SandboxHost

namespace Constants

section Entries

variable {name : String} {value : Int32} {entries : List (String × Int32)}

theorem lookup_put (other : String) : (put name value entries).lookup other =
    if other = name then some value else entries.lookup other := by
  induction entries with
  | nil => grind [put]
  | cons entry rest ih =>
    obtain ⟨n, v⟩ := entry
    rw [put]
    split_ifs <;> grind

theorem mem_names_put {other : String} : other ∈ (put name value entries).map Prod.fst ↔
    other = name ∨ other ∈ entries.map Prod.fst := by
  induction entries with
  | nil => simp [put]
  | cons entry rest ih =>
    rw [put]
    split
    · simp
    · split
      · next heq =>
        subst heq
        simp
      · simp [ih, or_left_comm]

def InOrder (entries : List (String × Int32)) : Prop := entries.Pairwise (·.1 < ·.1)

theorem inOrder_put (h : InOrder entries) : InOrder (put name value entries) := by
  induction entries with
  | nil => exact List.pairwise_singleton ..
  | cons entry rest ih =>
    obtain ⟨hfirst, hrest⟩ := List.pairwise_cons.mp h
    rw [put]
    split
    · next hlt =>
      refine List.pairwise_cons.mpr ⟨fun x hx => ?_, h⟩
      rcases List.mem_cons.mp hx with rfl | hx
      · exact hlt
      · exact String.lt_trans hlt (hfirst x hx)
    · split
      · next hnot heq =>
        subst heq
        exact List.pairwise_cons.mpr ⟨hfirst, hrest⟩
      · next hnot hne =>
        refine List.pairwise_cons.mpr ⟨fun x hx => ?_, ih hrest⟩
        have hname := mem_names_put.mp (List.mem_map_of_mem (f := Prod.fst) hx)
        rcases hname with hname | hname
        · rw [hname]
          grind
        · obtain ⟨y, hy, hyx⟩ := List.mem_map.mp hname
          rw [← hyx]
          exact hfirst y hy

end Entries

theorem ofPairs_concat (pairs : List (String × Int32)) (name : String) (value : Int32) :
    ofPairs (pairs ++ [(name, value)]) = (ofPairs pairs).insert name value := by
  rw [ofPairs, List.foldl_append]
  rfl

theorem get?_ofPairs (pairs : List (String × Int32)) (name : String) :
    (ofPairs pairs).get? name = pairs.reverse.lookup name := by
  induction pairs using List.reverseRecOn with
  | nil => rfl
  | append_singleton pairs entry ih =>
    obtain ⟨n, v⟩ := entry
    have hput : ((ofPairs pairs).insert n v).get? name = if name = n then some v else
        (ofPairs pairs).get? name := lookup_put name
    rw [ofPairs_concat, hput, List.reverse_concat, ih]
    grind

theorem names_ofPairs (pairs : List (String × Int32)) : InOrder (ofPairs pairs).entries ∧
    ∀ name, name ∈ (ofPairs pairs).entries.map Prod.fst ↔ name ∈ pairs.map Prod.fst := by
  induction pairs using List.reverseRecOn with
  | nil => exact ⟨List.Pairwise.nil, fun _ => Iff.rfl⟩
  | append_singleton pairs entry ih =>
    obtain ⟨n, v⟩ := entry
    rw [ofPairs_concat]
    refine ⟨inOrder_put ih.1, fun name => mem_names_put.trans ?_⟩
    rw [ih.2, List.map_append, List.mem_append, or_comm]
    simp

theorem size_ofPairs (pairs : List (String × Int32)) :
    (ofPairs pairs).size = (pairs.map Prod.fst).dedup.length := by
  obtain ⟨horder, hnames⟩ := names_ofPairs pairs
  have hnodup : ((ofPairs pairs).entries.map Prod.fst).Nodup := by
    rw [List.Nodup, List.pairwise_map]
    refine List.Pairwise.imp (fun {x y} hlt heq => ?_) horder
    rw [heq] at hlt
    exact String.lt_irrefl y.1 hlt
  have hperm : ((ofPairs pairs).entries.map Prod.fst).Perm (pairs.map Prod.fst).dedup := by
    refine (List.perm_ext_iff_of_nodup hnodup (List.nodup_dedup _)).mpr fun name => ?_
    rw [hnames, List.mem_dedup]
  rw [size, ← hperm.length_eq, List.length_map]

/-- The table gives each name the value at the last place of the name, and has no other names. -/
structure Pairs (c : Constants) (names : List String) (values : List Int32) : Prop where
  last (i : Nat) (name : String) : names[i]? = some name → (∀ j, i < j → names[j]? ≠ some name) →
    c.get? name = values[i]?
  other (name : String) : name ∉ names → c.get? name = none
  size : c.size = names.dedup.length

theorem pairs_ofPairs {names : List String} {values : List Int32}
    (h : names.length = values.length) : (ofPairs (names.zip values)).Pairs names values := by
  have hnames : (names.zip values).map Prod.fst = names := List.map_fst_zip (Nat.le_of_eq h)
  constructor
  · intro i name hi hlast
    obtain ⟨hlt, hname⟩ := List.getElem?_eq_some_iff.mp hi
    obtain ⟨value, hvalue⟩ : ∃ value, values[i]? = some value :=
      ⟨_, List.getElem?_eq_getElem (h ▸ hlt)⟩
    -- Before the last place of the name, seen from the end, there are other names.
    have hzip : (names.zip values)[i]? = some (name, value) :=
      List.getElem?_zip_eq_some.mpr ⟨hi, hvalue⟩
    obtain ⟨hbound, helem⟩ := List.getElem?_eq_some_iff.mp hzip
    have hsplit : (names.zip values).reverse = ((names.zip values).drop (i + 1)).reverse ++
        (name, value) :: ((names.zip values).take i).reverse := by
      conv => lhs; rw [← List.take_append_drop i (names.zip values), List.drop_eq_getElem_cons hbound,
        helem]
      simp
    rw [get?_ofPairs, hvalue, List.lookup_eq_some_iff]
    refine ⟨_, _, hsplit, fun x hx => ?_⟩
    obtain ⟨k, hk⟩ := List.mem_iff_getElem?.mp (List.mem_reverse.mp hx)
    rw [List.getElem?_drop] at hk
    have hother := hlast (i + 1 + k) (by omega)
    rw [(List.getElem?_zip_eq_some.mp hk).1] at hother
    exact bne_iff_ne.mpr fun heq => hother (congrArg some heq.symm)
  · intro name hnot
    rw [get?_ofPairs, List.lookup_eq_none_iff]
    intro x hx
    have hmem : x.1 ∈ (names.zip values).map Prod.fst :=
      List.mem_map_of_mem (List.mem_reverse.mp hx)
    rw [hnames] at hmem
    simpa using fun heq : name = x.1 => hnot (heq ▸ hmem)
  · rw [size_ofPairs, hnames]

inductive Field where
  | names
  | values

namespace Field

def name : Field → String
  | .names => "names"
  | .values => "values"

section

variable (names : List String) (values : List Int32)

def Writes : Field → List Char → Prop
  | .names => Json.WritesList Json.WritesText names
  | .values => Json.WritesList (fun v => Json.WritesInteger v.toInt) values

def value : Field → Json
  | .names => .arr (names.map .str)
  | .values => .arr (values.map fun v => .int v.toInt)

end

end Field

/-- A JSON text of the two lists: an object of both, in either order. -/
inductive WritesTable (names : List String) (values : List Int32) (text : String) : Prop where
  | object {fields : List Field} : fields = [.names, .values] ∨ fields = [.values, .names] →
    Json.Spaced (Json.WritesObject Field.name (Field.Writes names values) fields) text.toList →
    WritesTable names values text

section Reading

variable {names : List String} {values : List Int32} {text : String}

theorem natAbs_toInt (v : Int32) : v.toInt.natAbs ≤ 0x80000000 := by
  have := v.toInt_lt
  have := v.le_toInt
  omega

theorem int32?_int (v : Int32) : (Json.int v.toInt).int32? = some v := by
  have := v.toInt_lt
  have := v.le_toInt
  rw [Json.int32?, Json.integer?, if_pos (by omega), Option.map_some, Int32.ofInt_toInt]

theorem list?_map {α : Type} {value : α → Json} {item : Json → Option α}
    (h : ∀ a, item (value a) = some a) (as : List α) :
    (Json.arr (as.map value)).list? item = some as := by
  change (as.map value).mapM item = some as
  induction as with
  | nil => rfl
  | cons a rest ih => simp [h, ih]

theorem lists?_obj {fields : List Field}
    (h : fields = [.names, .values] ∨ fields = [.values, .names]) :
    lists? (.obj (fields.map fun f => (f.name, f.value names values))) = some (names, values) := by
  have hfields : (Json.obj (fields.map fun f => (f.name, f.value names values))).fields? fieldNames =
      some [some (Field.names.value names values), some (Field.values.value names values)] := by
    rcases h with rfl | rfl <;> rfl
  have hnames : (Field.names.value names values).list? Json.string? = some names :=
    list?_map (fun text => (rfl : (Json.str text).string? = some text)) names
  have hvalues : (Field.values.value names values).list? Json.int32? = some values :=
    list?_map int32?_int values
  rw [lists?, hfields]
  simp [Json.required, hnames, hvalues]

theorem reads_field {length depth : Nat} (hnames : names.length ≤ length)
    (hvalues : values.length ≤ length) (field : Field) :
    Json.ReadsAs (Json.readValue length (depth + 1) .any) (field.Writes names values)
      (field.value names values) := by
  cases field with
  | names => exact Json.reads_list (fun text => Json.reads_text text .any) hnames
  | values =>
    refine Json.reads_list (fun v => Json.reads_integer ?_ .any) hvalues
    have := natAbs_toInt v
    omega

/-- What the guest wrote is read as what it is. -/
theorem parse_of_writes (h : WritesTable names values text) : parse text = ofLists names values := by
  obtain ⟨hfields, hspaced⟩ := h
  rename_i fields
  have hmem (field : Field) : field ∈ fields := by
    rcases hfields with rfl | rfl <;> cases field <;> simp
  obtain ⟨written, hobject, hle⟩ := hspaced.exists_length_le
  have hinside (field : Field) : ∃ inner, field.Writes names values inner ∧
      inner.length ≤ text.toList.length := by
    obtain ⟨inner, hwritten, hinner⟩ := hobject.exists_of_mem (hmem field)
    exact ⟨inner, hwritten, hinner.trans hle⟩
  obtain ⟨inner, hlist, hinner⟩ := hinside .names
  have hnames : names.length ≤ text.toList.length :=
    (Json.WritesList.length_le hlist).trans hinner
  obtain ⟨inner', hlist', hinner'⟩ := hinside .values
  have hvalues : values.length ≤ text.toList.length :=
    (Json.WritesList.length_le hlist').trans hinner'
  have hshape (field : Field) : (Json.Shape.ofFields fieldNames).member? field.name = some .any := by
    cases field <;> rfl
  have hlength : fields.length ≤ text.toList.length := hobject.length_le.trans hle
  have hreads : Json.ReadsAs (Json.readValue text.toList.length Json.maxDepth _) _ _ :=
    Json.reads_object (reads_field hnames hvalues) hshape hlength
  have hend : Json.EndsNumber [] := nofun
  obtain ⟨after, hafter, hread⟩ := Json.reads_spaced hreads hspaced hend
  rw [List.append_nil, List.append_nil] at hread
  have hparsed : Json.parseAs? (.ofFields fieldNames) text =
      some (.obj (fields.map fun f => (f.name, f.value names values))) := by
    rw [Json.parseAs?, Json.parseWithin, hread]
    simp [Json.skipSpace_of_isBlank hafter]
  rw [parse, hparsed, Option.bind_some, lists?_obj hfields]

theorem null_notMem_of_writes (h : WritesTable names values text) : '\x00' ∉ text.toList := by
  obtain ⟨-, hspaced⟩ := h
  refine hspaced.null_notMem fun written hobject => hobject.null_notMem fun field written h => ?_
  cases field with
  | names => exact Json.WritesList.null_notMem (fun _ _ h => h.null_notMem) h
  | values => exact Json.WritesList.null_notMem (fun _ _ h => h.null_notMem) h

end Reading

end Constants

/-- At the address lie the bytes of the text and then a zero byte. -/
def Memory.KeepsText (memory : Memory) (address : UInt32) (text : String) : Prop :=
  memory.read? address.toNat ((Utf8.encode text).length + 1) = some (Utf8.encode text ++ [0])

instance (memory : Memory) (address : UInt32) (text : String) :
    Decidable (memory.KeepsText address text) := inferInstanceAs (Decidable (_ = _))

/-- A text without that byte in it is read back. -/
theorem Memory.KeepsText.textAt {memory : Memory} {address : UInt32} {text : String}
    (h : memory.KeepsText address text) (hnull : '\x00' ∉ text.toList) :
    Syscall.textAt memory address = .ok text := by
  unfold KeepsText read? at h
  split at h
  · next hfits =>
    have hbytes : memory.cstring? address.toNat = some (Utf8.encode text) :=
      cstring?_of_slice hfits (Option.some.inj h) (Utf8.zero_notMem_encodeChars hnull)
    rw [Syscall.textAt_of_cstring? hbytes, Utf8.encode, Utf8.decodeLossy_encodeChars,
      String.ofList_toList]
  · cases h

structure State.Has (s : State) (c : Constants) : Prop where
  bound : s.host.bound = true
  constants : s.host.constants = some c

theorem State.SameBinding.has {s s' : State} {c : Constants} (h : s.SameBinding s') (hs : s.Has c) :
    s'.Has c := ⟨h.bound.trans hs.bound, h.constants.trans hs.constants⟩

/-- The steps by which a function of an embedding program reports an error of its own. -/
inductive Supplied.Op.Reports (e : Errno) : Supplied.Op → Prop where
  | setErrno : Reports e (.setErrno e)
  | fail (returned : Int32) : Reports e (.fail (.os e) returned)

namespace Machine

/-- An error is reported by this number. If all that is called for that, with so many levels left for
calls and for imports, stays inside the guest, it is the last error afterwards. -/
structure Reports (m : Machine) (depth hostDepth : Nat) (number : Int32) (steps : List Step)
    (s' : State) : Prop extends Relays m.setup.module true number steps s' where
  inside : (∀ c purpose, c.step purpose ∈ steps → m.StaysInside depth hostDepth c) →
    s'.host.lastErrno = number

/-- From this state on, errors that have a name in the table are reported by the number that the table
has for it. -/
structure Upholds (m : Machine) (s₀ : State) (c : Constants) : Prop where
  /-- Whatever is called later, at whatever depth, finds the table, -/
  later {depth hostDepth : Nat} {k : Called} : m.Later s₀ depth hostDepth k → k.before.Has c
  /-- and so do all steps of a function behind an import. -/
  during {depth hostDepth : Nat} {k : Called} {f : HostFunction} {steps : List Step}
    {r : Except Error (Option Value)} : m.Later s₀ (depth + 1) (hostDepth + 1) k →
    m.Serves (m.callFunction depth hostDepth .host) k f steps r → ∀ x ∈ steps, x.before.Has c
  /-- So a handler that the guest calls reports a failure by that number, -/
  served {depth hostDepth : Nat} {k : Called} {h : Handler} {steps : List Step}
    {r : Except Error (Option Value)} {e : Errno} {value : Int32} :
    m.Later s₀ (depth + 1) (hostDepth + 1) k →
    m.Serves (m.callFunction depth hostDepth .host) k (.ofHandler h) steps r → h.isHostBacked →
    (∃ x ∈ steps, x.FailedBy (k.args.map Value.int32) e) → c.get? e.name = some value →
    m.Reports depth hostDepth value steps k.after
  /-- and so does one that a function of an embedding program calls, -/
  handled {depth hostDepth : Nat} {s : State} {h : Handler} {args : List Int32} {e : Errno}
    {value : Int32} : s.Has c → h.isHostBacked → c.get? e.name = some value →
    m.Records (m.callFunction depth hostDepth .host) (h.program args).run s fun steps _ s' =>
      (∃ x ∈ steps, x.FailedBy args e) → m.Reports depth hostDepth value steps s'
  /-- and such a function itself. -/
  supplied {depth hostDepth : Nat} {s : State} {op : Supplied.Op} {e : Errno} {value : Int32} :
    s.Has c → op.Reports e → c.get? e.name = some value →
    m.Records (m.callFunction depth hostDepth .host) op.program s fun steps _ s' =>
      m.Reports depth hostDepth value steps s'

variable {m : Machine} {c : Constants} {depth hostDepth : Nat}

theorem reports_of_relays {s s' : State} {e : Errno} {value : Int32} {steps : List Step}
    (hs : s.Has c) (hvalue : c.get? e.name = some value)
    (h : Relays m.setup.module s.host.bound (e.guestNumber s.host.constants) steps s') :
    m.Reports depth hostDepth value steps s' := by
  have hnumber : e.guestNumber s.host.constants = value := by
    rw [hs.constants]
    exact congrArg (Option.getD · e.toInt32) hvalue
  rw [hnumber, hs.bound] at h
  refine ⟨h, fun hinside => h.lastErrno fun x hx hcall => ?_⟩
  obtain ⟨op, answer, s₁, s₂, t⟩ := x
  cases op with
  | call purpose f args =>
    exact congrArg HostState.lastErrno (hinside ⟨f, args, s₁, t, answer, s₂⟩ purpose hx).host
  | _ => cases hcall

theorem records_handler_reports {s : State} {h : Handler} {args : List Int32} {e : Errno}
    {value : Int32} (hs : s.Has c) (hh : h.isHostBacked) (hvalue : c.get? e.name = some value) :
    m.Records (m.callFunction depth hostDepth .host) (h.program args).run s fun steps _ s' =>
      (∃ x ∈ steps, x.FailedBy args e) → m.Reports depth hostDepth value steps s' :=
  (h.relaysNumber hh args e s).relayed.mono fun _ _ _ hrelays hfailed =>
    reports_of_relays hs hvalue (hrelays hfailed)

theorem Serves.reports {k : Called} {h : Handler} {steps : List Step}
    {r : Except Error (Option Value)} {e : Errno} {value : Int32}
    (hserves : m.Serves (m.callFunction depth hostDepth .host) k (.ofHandler h) steps r)
    (hk : k.before.Has c) (hh : h.isHostBacked)
    (hfailed : ∃ x ∈ steps, x.FailedBy (k.args.map Value.int32) e)
    (hvalue : c.get? e.name = some value) : m.Reports depth hostDepth value steps k.after := by
  have hprogram : m.Records (m.callFunction depth hostDepth .host)
      ((HostFunction.ofHandler h).program k.args).run k.before fun steps _ s' =>
        (∃ x ∈ steps, x.FailedBy (k.args.map Value.int32) e) →
          m.Reports depth hostDepth value steps s' := by
    change m.Records _ (h.program _ >>= fun value => pure (some (.ofInt32 value)) :
      Action (Option Value)).run _ _
    rw [Action.records_bind]
    refine (records_handler_reports hk hh hvalue).mono fun steps r s' hreports => ?_
    cases r with
    | error _ => exact hreports
    | ok _ =>
      refine Machine.records_done.mpr ?_
      rw [List.append_nil]
      exact hreports
  exact hprogram steps r k.after hserves.takes hfailed

theorem upholds {s₀ : State} (hs : s₀.Has c) : m.Upholds s₀ c := by
  refine ⟨fun hk => hk.sameBinding.has hs, ?_, fun hk hserves hh hfailed hvalue => ?_,
    records_handler_reports, fun hs hop hvalue => ?_⟩
  · intro depth hostDepth k f steps r hk hserves x hx
    have hcall := m.callFunction_keepsBinding depth hostDepth .host
    have hstays := (HostFunction.bindingKept hcall _ _ _ _ _ _ hserves.takes).1
    exact (hk.sameBinding.trans (hstays.before x hx)).has hs
  · exact hserves.reports (hk.sameBinding.has hs) hh hfailed hvalue
  · cases hop with
    | setErrno =>
      exact (Syscall.records_setErrno_relays _ _).mono fun _ _ _ => reports_of_relays hs hvalue
    | fail returned =>
      exact (Syscall.records_fail_relays _ returned _).mono fun _ _ _ => reports_of_relays hs hvalue

end Machine

namespace Guest

/-- What the guest wrote is the table. -/
theorem tableAt_of_writes {names : List String} {values : List Int32} {text : String}
    {memory : Memory} {address : UInt32} (hwrites : Constants.WritesTable names values text)
    (hkeeps : memory.KeepsText address text) :
    tableAt memory address = Constants.ofLists names values := by
  rw [tableAt, hkeeps.textAt (Constants.null_notMem_of_writes hwrites)]
  exact Constants.parse_of_writes hwrites

section

variable {m : Machine} {call : Callee}

theorem madeOf_look (address : UInt32) : Action.MadeOf (StepsOf (· = .memory) fun _ => True)
    (fun _ => True) (readString address) := by
  refine Action.madeOf_lift_bind (Program.madeOf_block (.op .memory rfl)) fun memory _ => ?_
  refine Action.madeOf_guard trivial fun _ => ?_
  split
  · exact Action.madeOf_pure _
  · exact Action.madeOf_throw trivial

/-- The function for the constants is entered once, and nothing is called after it. -/
theorem meets_fetchConstants (s : State) : m.Meets call fetchConstants.run s fun steps op _ =>
    op.isCall → fetched? steps = none := by
  have hfunction : Action.MadeOf (StepsOf (Op.Seeks constantsExport) fun _ => True) (fun _ => True)
      (function constantsExport) := by
    refine Action.madeOf_lift_bind (madeOf_seek id) fun found _ => ?_
    cases found with
    | none => exact Action.madeOf_throw trivial
    | some f => exact Action.madeOf_pure f
  rw [fetchConstants]
  refine Action.meets_bind.mpr ⟨?_, ?_⟩
  · refine (Machine.meets_sorted_steps hfunction s).mono fun steps op _ hseeks _ => ?_
    exact fetched?_eq_none fun x hx => fetched?_of_seeks (hseeks x hx)
  · rintro steps r s₁ htakes f rfl
    have hseeks := hfunction.sorted m call s steps _ s₁ htakes
    have hnone := fetched?_eq_none fun x hx => fetched?_of_seeks (hseeks x hx)
    refine Action.meets_bind.mpr ⟨Action.meets_bind.mpr ⟨?_, ?_⟩, ?_⟩
    · refine Machine.meets_step.mpr ⟨fun _ => ?_, fun _ _ _ _ => Machine.meets_done _⟩
      rw [List.append_nil]
      exact hnone
    · exact fun _ _ _ _ _ _ => Machine.meets_done _
    · rintro steps' r s₂ - raw -
      have hmeets {p : Program (Except Error Constants)}
          (hp : p.MadeOf (StepsOf (· = .memory) fun _ => True) (FailsWithin fun _ => True)) :
          m.Meets call p s₂ fun steps'' op _ => op.isCall →
            fetched? (steps ++ (steps' ++ steps'')) = none := by
        refine (Machine.meets_sorted hp s₂).mono fun _ op _ hop hcall => ?_
        rw [hop] at hcall
        cases hcall
      refine hmeets ?_
      split
      · refine Action.madeOf_guard trivial fun _ => ?_
        refine Action.madeOf_bind (madeOf_look _) fun text => ?_
        exact Action.madeOf_ofExcept (failsWithin_true _)
      · exact Action.madeOf_throw trivial

theorem meets_bind_once {s : State} (hb : s.host.bound = false) :
    m.Meets call bind.run s fun steps op _ => op.isCall → fetched? steps = none := by
  have hnotes {steps : List Step} {op : Op} (hop : op.IsNote) :
      op.isCall → fetched? steps = none := by
    cases op with
    | getHost | setHost _ => rintro ⟨⟩
    | _ => exact hop.elim
  rw [run_bind, Machine.meets_bind]
  refine ⟨?_, (records_announce s).mono ?_⟩
  · refine Machine.meets_op rfl (hnotes trivial) (Machine.meets_op rfl (hnotes trivial) ?_)
    exact Machine.meets_done _
  rintro before b s₁ ⟨hbefore, rfl⟩
  rw [hb, Machine.meets_bind]
  refine ⟨?_, fun steps x s₂ _ => ?_⟩
  · have hearlier (steps : List Step) : fetched? (before ++ steps) = fetched? steps := by
      have := (fetched?_notes steps hbefore (List.forall_mem_nil _)).1
      rwa [List.append_nil] at this
    change m.Meets call (fetchConstants.run.bind _) s₁ _
    rw [Machine.meets_bind]
    refine ⟨(meets_fetchConstants s₁).mono fun steps op _ hfetched => ?_, fun steps r s₂ _ => ?_⟩
    · rw [hearlier]
      exact hfetched
    · dsimp only
      split <;> exact Machine.meets_done _
  · refine Machine.meets_bind.mpr ⟨?_, fun _ _ _ _ => Machine.meets_done _⟩
    refine Machine.meets_op rfl (hnotes trivial) (Machine.meets_op rfl (hnotes trivial) ?_)
    exact Machine.meets_done _

/-- Once the function for the constants has returned, binding comes to its end with what was
returned. -/
theorem exists_takes_bind {s s₁ s₂ : State} (hb : s.host.bound = false) {before : List Step} {f : Nat}
    {t : Trace} {results : List Value}
    (henters : m.Nears call bind.run s before (.call .constants f []) s₁)
    (hreturns : ((call f []).run.run s₁).Ends t (.ok results, s₂)) :
    let entry : Step := ⟨.call .constants f [], .ok results, s₁, s₂, t⟩
    (∃ after outcome s', m.Takes call bind.run s (before ++ entry :: after) outcome s') ∧
      ∀ after, fetched? (before ++ entry :: after) = some (.ok results, s₂) := by
  have hbefore : fetched? before = none := meets_bind_once hb _ _ _ henters rfl
  have hfetched (after : List Step) :
      fetched? (before ++ ⟨.call .constants f [], .ok results, s₁, s₂, t⟩ :: after) =
        some (.ok results, s₂) := by
    rw [fetched?, List.findSome?_append, show before.findSome? Step.fetched? = none from hbefore,
      Option.none_or]
    rfl
  refine ⟨henters.exists_takes hreturns fun rest purpose f' args s' hnears => ?_, hfetched⟩
  have hnone := meets_bind_once hb _ _ _ hnears rfl
  rw [List.append_assoc, List.singleton_append, hfetched] at hnone
  cases hnone

end

/-- Let the guest's function for the constants return an address that is not zero, at which it keeps a
text of two lists. Then binding comes to its end. If the lists are of one length, each name stands for
the value at its last place, no other name stands for anything, and the table has as many entries as
there are different names; and it is upheld. Otherwise binding fails, and says what the lengths are. -/
theorem bind_takes_written_table {m : Machine} {s s₁ s₂ : State} (hb : s.host.bound = false)
    {before : List Step} {f : Nat} {t : Trace} {results : List Value}
    (henters : m.Nears m.callFromOutside bind.run s before (.call .constants f []) s₁)
    (hreturns : ((m.callFromOutside f []).run.run s₁).Ends t (.ok results, s₂))
    (haddress : returnedAddress results ≠ 0) {names : List String} {values : List Int32}
    {text : String} (hwrites : Constants.WritesTable names values text)
    (hkeeps : s₂.memory.KeepsText (returnedAddress results) text) :
    let entry : Step := ⟨.call .constants f [], .ok results, s₁, s₂, t⟩
    (∃ after outcome s',
      m.Takes m.callFromOutside bind.run s (before ++ entry :: after) outcome s') ∧
    ∀ after outcome s', m.Takes m.callFromOutside bind.run s (before ++ entry :: after) outcome s' →
      (names.length = values.length → outcome = .ok () ∧
        ∃ c, s'.host.constants = some c ∧ c.Pairs names values ∧ m.Upholds s' c) ∧
      (names.length ≠ values.length →
        outcome = .error (.protocol (.constantsLength names.length values.length))) := by
  intro entry
  obtain ⟨hends, hfetched⟩ := exists_takes_bind hb henters hreturns
  refine ⟨hends, fun after outcome s' htakes => ?_⟩
  have hjudged := (records_bind_judges hb _ _ _ htakes).table results s₂ (hfetched after) haddress
  obtain ⟨-, -, hbound⟩ := records_bind_fetched hb _ _ _ htakes
  rw [tableAt_of_writes hwrites hkeeps, Constants.ofLists] at hjudged
  constructor
  · intro hlength
    rw [if_pos hlength] at hjudged
    cases outcome with
    | error _ => cases hjudged
    | ok _ =>
      have hconstants := Except.ok.inj hjudged
      exact ⟨rfl, _, hconstants, Constants.pairs_ofPairs hlength,
        Machine.upholds ⟨hbound, hconstants⟩⟩
  · intro hlength
    rw [if_neg hlength] at hjudged
    cases outcome with
    | error _ => exact congrArg Except.error (Except.error.inj hjudged)
    | ok _ => cases hjudged

end Guest

namespace Instantiation

def toldAddress? : Step → Option UInt32
  | ⟨.call .constants _ [], .ok results, _, _, _⟩ => some (Guest.returnedAddress results)
  | _ => none

theorem exists_of_toldAddress? {x : Step} {address : UInt32} (h : toldAddress? x = some address) :
    ∃ f results s s' t, x = ⟨.call .constants f [], .ok results, s, s', t⟩ ∧
      Guest.returnedAddress results = address := by
  unfold toldAddress? at h
  split at h
  · exact ⟨_, _, _, _, _, rfl, Option.some.inj h⟩
  · cases h

/-- A table in which the number of one name was corrected by naming it once more. -/
def correctedTable : String :=
  "\x7b\"names\":[\"ESRCH\",\"EPERM\",\"ESRCH\"],\"values\":[3,63,71]\x7d"

theorem writesTable_corrected :
    Constants.WritesTable ["ESRCH", "EPERM", "ESRCH"] [3, 63, 71] correctedTable := by
  have htext {name : String} (h : name.toList.all Json.isPlain) :
      Json.Spaced (Json.WritesText name) _ := .bare (.plain h)
  have hnames : Json.WritesList Json.WritesText ["ESRCH", "EPERM", "ESRCH"] _ :=
    .items (.more (htext (by decide)) (.more (htext (by decide)) (.last (htext (by decide)))))
  have hvalues : Json.WritesList (fun v : Int32 => Json.WritesInteger v.toInt) [3, 63, 71] _ :=
    .items (.more (.bare .decimal) (.more (.bare .decimal) (.last (.bare .decimal))))
  have hblank : Json.IsBlank [] := List.forall_mem_nil _
  have hobject : Json.WritesObject Constants.Field.name
      (Constants.Field.Writes ["ESRCH", "EPERM", "ESRCH"] [3, 63, 71]) [.names, .values] _ :=
    .members (.more (.bare (.member (.plain (by decide)) hblank hblank hnames))
      (.last (.bare (.member (.plain (by decide)) hblank hblank hvalues))))
  exact .object (.inl rfl) (.bare hobject)

def corrector : Module :=
  { teller false with data := [(64, Utf8.encode correctedTable ++ [0])] }

/-- The last one of the two values counts. -/
theorem bind_takes_written_table_corrector :
    let e : Embedding := { directoryExists := fun _ => true }
    ∃ machine state, prepare .standard e corrector = .ok (machine, state) ∧
      state.host.bound = false ∧ ∃ before f s₁ t results s₂,
        machine.Nears machine.callFromOutside Guest.bind.run state before (.call .constants f []) s₁ ∧
        ((machine.callFromOutside f []).run.run s₁).Ends t (.ok results, s₂) ∧
        Guest.returnedAddress results = 64 ∧
        Constants.WritesTable ["ESRCH", "EPERM", "ESRCH"] [3, 63, 71] correctedTable ∧
        s₂.memory.KeepsText 64 correctedTable ∧
        ∃ steps s' c, machine.Takes machine.callFromOutside Guest.bind.run state steps (.ok ()) s' ∧
          s'.host.constants = some c ∧ c.get? "ESRCH" = some 71 ∧ c.get? "EPERM" = some 63 ∧
          c.size = 2 ∧ machine.Upholds s' c := by
  intro e
  obtain ⟨machine, state, hprepare, steps, outcome, s', htakes, hcheck⟩ := exists_takes_of_check
    corrector e
    (fun steps _ _ => steps.any fun x =>
      toldAddress? x == some 64 && decide (x.after.memory.KeepsText 64 correctedTable))
    (by decide +kernel)
  obtain ⟨x, hx, hcheck⟩ := List.any_eq_true.mp hcheck
  simp only [Bool.and_eq_true, beq_iff_eq, decide_eq_true_eq] at hcheck
  obtain ⟨htold, hkeeps⟩ := hcheck
  obtain ⟨f, results, s₁, s₂, t, rfl, haddress⟩ := exists_of_toldAddress? htold
  obtain ⟨before, after, rfl⟩ := List.append_of_mem hx
  have hbound : state.host.bound = false := by
    obtain ⟨_, -, -, hhost⟩ := exists_targets_of_prepare hprepare
    rw [hhost]
  have henters := htakes.nears
  have hreturns : ((machine.callFromOutside f []).run.run s₁).Ends t (.ok results, s₂) :=
    Program.of_step (c := ⟨f, [], s₁, t, .ok results, s₂⟩) htakes
  have hkept := hkeeps
  rw [← haddress] at hkeeps
  have hne : Guest.returnedAddress results ≠ 0 := by
    rw [haddress]
    decide
  obtain ⟨-, hbinds⟩ := Guest.bind_takes_written_table hbound henters hreturns hne
    writesTable_corrected hkeeps
  obtain ⟨hsame, -⟩ := hbinds after outcome s' htakes
  obtain ⟨rfl, c, hconstants, hpairs, hupholds⟩ := hsame rfl
  have hesrch : c.get? "ESRCH" = some 71 := by
    refine hpairs.last 2 "ESRCH" rfl fun j hj => ?_
    rw [List.getElem?_eq_none hj]
    exact nofun
  have heperm : c.get? "EPERM" = some 63 := by
    refine hpairs.last 1 "EPERM" rfl fun j hj => ?_
    obtain rfl | hj : j = 2 ∨ 2 < j := by omega
    · decide
    · rw [List.getElem?_eq_none hj]
      exact nofun
  exact ⟨machine, state, hprepare, hbound, before, f, s₁, t, results, s₂, henters, hreturns, haddress,
    writesTable_corrected, hkept, _, s', c, htakes, hconstants, hesrch, heperm, hpairs.size, hupholds⟩

end Instantiation

end SandboxHost

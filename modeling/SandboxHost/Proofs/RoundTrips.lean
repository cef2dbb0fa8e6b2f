import SandboxHost.Proofs.JsonForms
import SandboxHost.Worker.Message

namespace SandboxHost

namespace Json

section Written

variable {α β : Type}

theorem string?_str (text : String) : string? (.str text) = some text := rfl

theorem uint8?_written (n : UInt8) : uint8? (.int n.toNat) = some n := by
  have hn : n.toNat < 256 := n.toNat_lt
  have hbound : (n.toNat : Int) ≤ 255 := by omega
  simp [uint8?, integer?, hbound]

theorem uint64?_written (n : UInt64) : uint64? (.int n.toNat) = some n := by
  have hn : n.toNat < 0x10000000000000000 := n.toNat_lt
  have hbound : (n.toNat : Int) ≤ maxUInt64 := by
    unfold maxUInt64
    omega
  simp [uint64?, integer?, hbound]

theorem int64?_written (n : Int64) : int64? (.int n.toInt) = some n := by
  have hlow : minInt64 ≤ n.toInt := n.le_toInt
  have hhigh : n.toInt ≤ maxInt64 := Int.le_of_lt_add_one n.toInt_lt
  simp [int64?, integer?, hlow, hhigh]

theorem list?_written {item : Json → Option α} (encode : α → Json)
    (h : ∀ a, item (encode a) = some a) (l : List α) :
    list? item (.arr (l.map encode)) = some l := by
  rw [list?]
  induction l with
  | nil => rfl
  | cons a rest ih => simp [h a, ih]

theorem texts_written (l : List String) : list? string? (.arr (l.map .str)) = some l :=
  list?_written .str string?_str l

theorem nullable?_of_ne_null {value : Json → Option α} {j : Json} (h : j ≠ .null) :
    nullable? value j = (value j).map some := by
  cases j with
  | null => exact absurd rfl h
  | _ => rfl

/-- Null stands for no value, and no value may be written as null. -/
theorem nullable?_written {value : Json → Option α} (encode : α → Json)
    (h : ∀ a, value (encode a) = some a) (hnull : ∀ a, encode a ≠ .null) (o : Option α) :
    nullable? value ((o.map encode).getD .null) = some o := by
  cases o with
  | none => rfl
  | some a => simp [nullable?_of_ne_null (hnull a), h a]

end Written

end Json

open Json

namespace Grants

theorem stable_ofJson : Stable ofJson? := stable_fields fun found => by
  have hassignments := stable_list (stable_pair stable_string stable_string)
  have htexts := stable_list stable_string
  split
  · exact (carries_optional stable_bool _ _).bind fun _ =>
      (carries_optional stable_bool _ _).bind fun _ =>
      (carries_optional stable_bool _ _).bind fun _ =>
      (carries_optional htexts _ _).bind fun _ => (carries_optional htexts _ _).bind fun _ =>
      (carries_optional hassignments _ _).bind fun _ =>
      (carries_optional htexts _ _).bind fun _ => .refl _
  · exact .none _

theorem ofJson?_toJson (g : Grants) : ofJson? g.toJson = some g := by
  have hassignment : ∀ a : String × String,
      pair? string? string? (.arr [.str a.1, .str a.2]) = some a := fun _ => rfl
  have hassignments := list?_written _ hassignment g.environment
  simp [ofJson?, toJson, fields?, fieldNames, single?, Json.optional, bool?, texts_written,
    hassignments]

end Grants

namespace Config

theorem stable_ofJson : Stable ofJson? := stable_fields fun found => by
  split
  · exact (carries_optional Grants.stable_ofJson _ _).bind fun _ =>
      (carries_optional stable_uint64 _ _).bind fun _ =>
      (carries_optional (stable_nullable stable_uint64) _ _).bind fun _ =>
      (carries_optional stable_uint8 _ _).bind fun _ =>
      (carries_optional stable_bool _ _).bind fun _ =>
      (carries_optional stable_uint64 _ _).bind fun _ =>
      (carries_optional (stable_nullable stable_string) _ _).bind fun _ => .refl _
  · exact .none _

theorem ofJson?_toJson (c : Config) : ofJson? c.toJson = some c := by
  have hfuel := nullable?_written (fun n : UInt64 => .int n.toNat) uint64?_written
    (fun _ => Json.noConfusion) c.fuelLimit
  have hcache := nullable?_written Json.str string?_str (fun _ => Json.noConfusion) c.cachePath
  simp [ofJson?, toJson, fields?, fieldNames, single?, Json.optional, bool?, uint8?_written,
    uint64?_written, Grants.ofJson?_toJson, hfuel, hcache]

end Config

namespace Worker

namespace Options

theorem stable_ofJson : Stable ofJson? := stable_fields fun found => by
  split
  · exact (carries_optional Config.stable_ofJson _ _).bind fun _ =>
      (carries_optional stable_uint64 _ _).bind fun _ => .refl _
  · exact .none _

theorem ofJson?_toJson (o : Options) : ofJson? o.toJson = some o := by
  simp [ofJson?, toJson, fields?, fieldNames, single?, Json.optional, uint64?_written,
    Config.ofJson?_toJson]

end Options

theorem stable_stringArg : Stable stringArgOfJson? := by
  intro j
  have hmany := (stable_list stable_string j).map Guest.StringArg.many
  cases j with
  | str text =>
    rw [canonical]
    exact .refl _
  | _ =>
    rw [canonical] at hmany ⊢
    exact hmany

theorem stringArgOfJson?_toJson (arg : Guest.StringArg) :
    stringArgOfJson? (stringArgToJson arg) = some arg := by
  cases arg with
  | one text => rfl
  | many texts => simp [stringArgToJson, stringArgOfJson?, texts_written]

theorem numbers?_numbers (args : List Int64) : numbers? (numbers args) = some args :=
  list?_written (fun n : Int64 => .int n.toInt) int64?_written args

namespace Job

theorem stable_ofJson : Stable ofJson? := stable_tagged fun tag rest =>
  (stable_string tag).bind fun kind => by
    have hnumbers := carries_optional (stable_list stable_int64) []
    split
    · refine stable_fields (fun found => ?_) rest
      split
      · exact (carries_required stable_string _).bind fun _ =>
          (carries_required Options.stable_ofJson _).bind fun _ => .refl _
      · exact .none _
    · refine stable_fields (fun found => ?_) rest
      split
      · exact (carries_required stable_string _).bind fun _ => (hnumbers _).bind fun _ =>
          (carries_required stable_uint64 _).bind fun _ => .refl _
      · exact .none _
    · refine stable_fields (fun found => ?_) rest
      split
      · exact (carries_required stable_string _).bind fun _ =>
          (carries_required stable_stringArg _).bind fun _ => (hnumbers _).bind fun _ =>
          (carries_required stable_uint64 _).bind fun _ => .refl _
      · exact .none _
    · exact .none _

theorem ofJson?_toJson (job : Job) : ofJson? job.toJson = some job := by
  cases job <;> simp [ofJson?, toJson, tagged?, string?, fields?, single?, Json.optional, required,
    numbers?_numbers, uint64?_written, Options.ofJson?_toJson, stringArgOfJson?_toJson]

end Job

namespace LoadStatus

theorem ofField?_toJson (status : LoadStatus) : ofField? status.toJson = some status := by
  cases status <;> rfl

theorem stable_ofField : Stable ofField? := by
  intro j
  unfold ofField?
  split
  · simp [canonical, canonicalMembers, insertMember, Carries.refl]
  · unfold ofJson?
    split
    · simp [canonical, Carries.refl]
    · simp [canonical, canonicalMembers, insertMember, Carries.refl]
    · exact .none _

end LoadStatus

namespace Notice

theorem Kind.stable_ofTag : Stable ofTag? := by
  intro j
  cases j with
  | str name =>
    rw [canonical]
    exact .refl _
  | _ => exact .none _

theorem Kind.stable_ofTagOrPosition : Stable ofTagOrPosition? := by
  intro j
  cases j with
  | str name | int n =>
    rw [canonical]
    exact .refl _
  | _ => exact .none _

theorem stable_ofFields (kind : Kind) : Stable (ofFields? kind) := by
  cases kind with
  | loaded =>
    refine stable_fields fun found => ?_
    split
    · exact (carries_required LoadStatus.stable_ofField _).bind fun _ =>
        (carries_optional (stable_nullable stable_string) _ _).bind fun _ => .refl _
    · exact .none _
  | sleep =>
    refine stable_fields fun found => ?_
    split
    · exact (carries_required stable_uint64 _).bind fun _ => .refl _
    · exact .none _
  | waitForInput =>
    exact fun j => (stable_empty j).bind fun _ => .refl _

theorem stable_ofJsonBy {kind? : Json → Option Kind} (h : Stable kind?) :
    Stable (ofJsonBy? kind?) :=
  stable_tagged fun tag rest => (h tag).bind fun kind => stable_ofFields kind rest

theorem ofJsonBy?_toJson {kind? : Json → Option Kind}
    (h : ∀ tag, Carries (Kind.ofTag? (.str tag)) (kind? (.str tag))) (notice : Notice) :
    ofJsonBy? kind? notice.toJson = some notice := by
  have hloaded := h "init" _ rfl
  have hsleep := h "sleep" _ rfl
  have hwait := h "waitForStdin" _ rfl
  cases notice with
  | loaded status error =>
    cases error <;> simp [ofJsonBy?, toJson, textField, tagged?, hloaded, ofFields?, fields?,
      single?, required, Json.optional, nullable?, string?, LoadStatus.ofField?_toJson]
  | sleep milliseconds =>
    simp [ofJsonBy?, toJson, tagged?, hsleep, ofFields?, fields?, single?, required,
      uint64?_written]
  | waitForInput => simp [ofJsonBy?, toJson, tagged?, hwait, ofFields?, empty?]

end Notice

namespace Reply

theorem stable_ofJson : Stable ofJson? := stable_fields fun found => by
  split
  · exact (carries_required stable_uint64 _).bind fun _ =>
      (carries_optional stable_value _ _).bind fun _ =>
      (carries_optional (stable_nullable stable_string) _ _).bind fun _ => .refl _
  · exact .none _

def canonical (r : Reply) : Reply := { r with output := r.output.canonical }

theorem canonical_of_settled {r : Reply} (h : r.output.Settled) : r.canonical = r := by
  rw [canonical, show r.output.canonical = r.output from h]

theorem ofJson?_toJson (r : Reply) : ofJson? r.toJson = some r.canonical := by
  obtain ⟨id, output, error⟩ := r
  cases error <;> simp [ofJson?, toJson, textField, fields?, fieldNames, single?, required,
    Json.optional, value?, nullable?, string?, uint64?_written, canonical]

/-- A record without an id is no reply. -/
theorem reads_none {j : Json} {output error : Option Json}
    (h : j.fields? fieldNames = some [none, output, error]) : Reads ofJson? j none := by
  have hcanonical := fields?_canonical h
  simp [Reads, ofJson?, h, hcanonical, required]

theorem not_notice (kind? : Json → Option Notice.Kind) (r : Reply) :
    Reads (Notice.ofJsonBy? kind?) r.toJson none := by
  obtain ⟨id, output, error⟩ := r
  have habsent : ∀ m ∈ [("id", Json.int id.toNat), ("output", output)] ++ textField "error" error,
      m.1 ≠ "event" := by
    cases error <;> simp [textField]
  obtain ⟨hwritten, hcanonical⟩ := tagged?_of_absent habsent
  exact ⟨by rw [Notice.ofJsonBy?, toJson, hwritten]; rfl,
    by rw [Notice.ofJsonBy?, toJson, hcanonical]; rfl⟩

end Reply

theorem Notice.not_reply (notice : Notice) : Reads Reply.ofJson? notice.toJson none := by
  cases notice with
  | loaded status error => cases error <;> exact Reply.reads_none rfl
  | _ => exact Reply.reads_none rfl

namespace Message

def canonical : Message → Message
  | .notice n => .notice n
  | .reply r => .reply r.canonical

/-- The output of the message, if it has one, has its members in order. -/
def Settled : Message → Prop
  | .notice _ => True
  | .reply r => r.output.Settled

theorem canonical_of_settled {m : Message} (h : m.Settled) : m.canonical = m := by
  cases m with
  | notice n => rfl
  | reply r => rw [canonical, Reply.canonical_of_settled h]

-- `ofJson?` is not stable: where the tag of a notice is repeated, it is one only in order.
theorem reads_toJson (m : Message) : Reads ofJson? m.toJson (some m.canonical) := by
  cases m with
  | notice n =>
    have hnames : ∀ tag, Carries (Notice.Kind.ofTag? (.str tag))
        (Notice.Kind.ofTagOrPosition? (.str tag)) := fun _ => .refl _
    have hread := (Notice.stable_ofJsonBy Notice.Kind.stable_ofTagOrPosition).reads
      (Notice.ofJsonBy?_toJson hnames n)
    exact ⟨by rw [ofJson?, toJson, hread.1]; rfl, by rw [ofJson?, toJson, hread.2]; rfl⟩
  | reply r =>
    have hnotice := r.not_notice Notice.Kind.ofTagOrPosition?
    have hreply := Reply.stable_ofJson.reads r.ofJson?_toJson
    exact ⟨by simp [ofJson?, toJson, hnotice.1, hreply.1, canonical],
      by simp [ofJson?, toJson, hnotice.2, hreply.2, canonical]⟩

end Message

/-- Jobs, payloads, notices, replies and messages are read back as they were sent, a list of texts
as that list. An output comes back with its members in order, which is how a value has them anyway.
No reply is a notice, whatever its output holds, and no notice is a reply. -/
theorem messages_read_back :
    (∀ job : Job, Reads Job.ofJson? job.toJson (some job)) ∧
    (∀ arg, Reads stringArgOfJson? (stringArgToJson arg) (some arg)) ∧
    (∀ notice : Notice, Reads Notice.ofJson? notice.toJson (some notice) ∧
      Reads Reply.ofJson? notice.toJson none) ∧
    (∀ reply : Reply, Reads Reply.ofJson? reply.toJson (some reply.canonical) ∧
      (reply.output.Settled → reply.canonical = reply) ∧
      ∀ kind?, Reads (Notice.ofJsonBy? kind?) reply.toJson none) ∧
    (∀ m : Message, Reads Message.ofJson? m.toJson (some m.canonical) ∧
      (m.Settled → m.canonical = m)) ∧
    ∀ j : Json, j.canonical.Settled := by
  refine ⟨fun job => Job.stable_ofJson.reads job.ofJson?_toJson,
    fun arg => stable_stringArg.reads (stringArgOfJson?_toJson arg), fun notice => ?_,
    fun reply => ?_, fun m => ⟨m.reads_toJson, Message.canonical_of_settled⟩, settled_canonical⟩
  · have hread : Notice.ofJson? notice.toJson = some notice :=
      Notice.ofJsonBy?_toJson (fun _ => .refl _) notice
    exact ⟨(Notice.stable_ofJsonBy Notice.Kind.stable_ofTag).reads hread, notice.not_reply⟩
  · exact ⟨Reply.stable_ofJson.reads reply.ofJson?_toJson, Reply.canonical_of_settled,
      fun kind? => reply.not_notice kind?⟩

/-- A reply with the members of a notice in its output. -/
def disguisedReply : Reply := ⟨7, .obj [("event", .str "sleep"), ("time", .int 5)], none⟩

theorem messages_read_back_disguised : (Message.reply disguisedReply).Settled ∧
    Reads Message.ofJson? (Message.reply disguisedReply).toJson (some (.reply disguisedReply)) := by
  have hsettled : (Message.reply disguisedReply).Settled :=
    settled_obj (List.pairwise_pair.mpr (by decide)) (by simp [Json.Settled, Json.canonical])
  obtain ⟨hread, hsame⟩ := messages_read_back.2.2.2.2.1 (.reply disguisedReply)
  rw [hsame hsettled] at hread
  exact ⟨hsettled, hread⟩

end Worker

end SandboxHost

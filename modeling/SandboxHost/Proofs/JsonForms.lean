import SandboxHost.Json.Decoder

namespace SandboxHost.Json

section Order

variable {key : String} {value : Json} {members placed : List (String × Json)}

def InOrder (members : List (String × Json)) : Prop := members.Pairwise (·.1 < ·.1)

theorem mem_insertMember {m : String × Json} (hm : m ∈ insertMember key value placed) :
    m = (key, value) ∨ m ∈ placed := by
  fun_induction insertMember key value placed <;> grind

theorem insertMember_first (h : ∀ m ∈ placed, key < m.1) :
    insertMember key value placed = (key, value) :: placed := by
  cases placed with
  | nil => rfl
  | cons m rest => rw [insertMember, if_pos (h m List.mem_cons_self)]

theorem insertMember_last (h : ∀ m ∈ placed, m.1 < key) :
    insertMember key value placed = placed ++ [(key, value)] := by
  induction placed with
  | nil => rfl
  | cons m rest ih =>
    have hm : m.1 < key := h m List.mem_cons_self
    rw [insertMember, if_neg (String.lt_asymm hm), if_neg (by grind),
      ih fun n hn => h n (List.mem_cons_of_mem _ hn), List.cons_append]

theorem inOrder_insertMember (h : InOrder placed) : InOrder (insertMember key value placed) := by
  induction placed with
  | nil => exact List.pairwise_singleton ..
  | cons m rest ih =>
    obtain ⟨hfirst, hrest⟩ := List.pairwise_cons.mp h
    rw [insertMember]
    split
    · case isTrue hlt =>
      refine List.pairwise_cons.mpr ⟨fun n hn => ?_, h⟩
      rcases List.mem_cons.mp hn with rfl | hn
      · exact hlt
      · exact String.lt_trans hlt (hfirst n hn)
    · split
      · case isTrue heq =>
        subst heq
        exact List.pairwise_cons.mpr ⟨hfirst, hrest⟩
      · refine List.pairwise_cons.mpr ⟨fun n hn => ?_, ih hrest⟩
        rcases mem_insertMember hn with rfl | hn
        · grind
        · exact hfirst n hn

theorem inOrder_canonicalMembers (members : List (String × Json)) {placed : List (String × Json)}
    (h : InOrder placed) : InOrder (canonicalMembers members placed) := by
  induction members generalizing placed with
  | nil => rwa [canonicalMembers]
  | cons m rest ih =>
    rw [canonicalMembers]
    exact ih (inOrder_insertMember h)

theorem filter_insertMember (p : String → Bool) (h : InOrder placed) :
    (insertMember key value placed).filter (fun m => p m.1) =
      if p key then insertMember key value (placed.filter fun m => p m.1)
      else placed.filter fun m => p m.1 := by
  induction placed with
  | nil => cases hp : p key <;> simp [insertMember, hp]
  | cons m rest ih =>
    obtain ⟨hfirst, hrest⟩ := List.pairwise_cons.mp h
    rw [insertMember]
    split
    · case isTrue hlt =>
      -- What comes after the new member may be dropped, and it still comes first.
      have hafter : ∀ n ∈ (m :: rest).filter (fun m => p m.1), key < n.1 := by
        intro n hn
        rcases List.mem_cons.mp (List.mem_filter.mp hn).1 with rfl | hn
        · exact hlt
        · exact String.lt_trans hlt (hfirst n hn)
      rw [List.filter_cons, insertMember_first hafter]
    · case isFalse hnot =>
      split
      · case isTrue heq =>
        subst heq
        cases hp : p m.1 <;> simp [hp, insertMember]
      · case isFalse hne =>
        rw [List.filter_cons, ih hrest]
        cases hp : p m.1 <;> cases hk : p key <;> simp [hp, insertMember, hnot, hne]

theorem filter_canonicalMembers (p : String → Bool) (members : List (String × Json))
    {placed : List (String × Json)} (h : InOrder placed) :
    (canonicalMembers members placed).filter (fun m => p m.1) =
      canonicalMembers (members.filter fun m => p m.1) (placed.filter fun m => p m.1) := by
  induction members generalizing placed with
  | nil => simp [canonicalMembers]
  | cons m rest ih =>
    rw [canonicalMembers, ih (inOrder_insertMember h), filter_insertMember p h, List.filter_cons]
    cases hp : p m.1 <;> simp [canonicalMembers]

end Order

section Settled

/-- A value with the members of its objects in order. -/
def Settled (j : Json) : Prop := j.canonical = j

theorem canonicalItems_eq_map (items : List Json) : canonicalItems items = items.map canonical := by
  induction items with
  | nil => rw [canonicalItems, List.map_nil]
  | cons j rest ih => rw [canonicalItems, ih, List.map_cons]

theorem canonicalMembers_settled {members placed : List (String × Json)}
    (horder : InOrder (placed ++ members)) (hsettled : ∀ m ∈ members, m.2.Settled) :
    canonicalMembers members placed = placed ++ members := by
  induction members generalizing placed with
  | nil => rw [canonicalMembers, List.append_nil]
  | cons m rest ih =>
    have hbefore : ∀ n ∈ placed, n.1 < m.1 := fun n hn =>
      (List.pairwise_append.mp horder).2.2 n hn m List.mem_cons_self
    have hm : m.2.canonical = m.2 := hsettled m List.mem_cons_self
    rw [canonicalMembers, hm, insertMember_last hbefore,
      ih (by simpa using horder) fun n hn => hsettled n (List.mem_cons_of_mem _ hn)]
    simp

theorem settled_obj {members : List (String × Json)} (horder : InOrder members)
    (hsettled : ∀ m ∈ members, m.2.Settled) : (obj members).Settled := by
  have hplaced : canonicalMembers members [] = members := by
    rw [canonicalMembers_settled (by rwa [List.nil_append]) hsettled, List.nil_append]
  rw [Settled, canonical, hplaced]

-- The members that are placed already are in their canonical form, which is what the recursion over
-- members keeps.
mutual

theorem settled_canonical : ∀ j : Json, j.canonical.Settled
  | .null | .bool _ | .int _ | .float _ | .str _ => by simp [Settled, canonical]
  | .arr items => by
    rw [Settled, canonical, canonical, settled_canonicalItems items]
  | .obj members => by
    rw [canonical]
    exact settled_obj (inOrder_canonicalMembers members List.Pairwise.nil)
      (settled_canonicalMembers members [] fun _ hm => nomatch hm)

theorem settled_canonicalItems :
    ∀ items : List Json, canonicalItems (canonicalItems items) = canonicalItems items
  | [] => by simp only [canonicalItems]
  | j :: rest => by
    rw [canonicalItems, canonicalItems, settled_canonicalItems rest, settled_canonical j]

theorem settled_canonicalMembers : ∀ members placed : List (String × Json),
    (∀ m ∈ placed, m.2.Settled) → ∀ m ∈ canonicalMembers members placed, m.2.Settled
  | [], placed, h => by simpa only [canonicalMembers] using h
  | (k, v) :: rest, placed, h => by
    rw [canonicalMembers]
    refine settled_canonicalMembers rest _ fun m hm => ?_
    rcases mem_insertMember hm with rfl | hm
    · exact settled_canonical v
    · exact h m hm

end

end Settled

section Carries

variable {α β : Type}

/-- What the first reads, the second reads too. -/
def Carries (x y : Option α) : Prop := ∀ a, x = some a → y = some a

theorem Carries.refl (x : Option α) : Carries x x := fun _ h => h

theorem Carries.none (y : Option α) : Carries none y := fun _ h => nomatch h

theorem Carries.bind {x y : Option α} {f g : α → Option β} (h : Carries x y)
    (hthen : ∀ a, Carries (f a) (g a)) : Carries (x >>= f) (y >>= g) := by
  intro b hb
  obtain ⟨a, ha, hb⟩ := Option.bind_eq_some_iff.mp hb
  exact Option.bind_eq_some_iff.mpr ⟨a, h a ha, hthen a b hb⟩

theorem Carries.map {x y : Option α} (f : α → β) (h : Carries x y) :
    Carries (x.map f) (y.map f) := by
  intro b hb
  obtain ⟨a, ha, rfl⟩ := Option.map_eq_some_iff.mp hb
  exact Option.map_eq_some_iff.mpr ⟨a, h a ha, rfl⟩

end Carries

section Stable

variable {α β : Type} {decode : Json → Option α}

/-- A decoder that reads a value in order just as it reads the value as written. -/
def Stable (decode : Json → Option α) : Prop := ∀ j, Carries (decode j) (decode j.canonical)

/-- What a decoder makes of a value, as it is written and with its members in order. -/
def Reads (decode : Json → Option α) (j : Json) (result : Option α) : Prop :=
  decode j = result ∧ decode j.canonical = result

theorem Stable.reads (h : Stable decode) {j : Json} {a : α} (hj : decode j = some a) :
    Reads decode j (some a) :=
  ⟨hj, h j a hj⟩

theorem stable_bool : Stable bool? := by
  rintro (_ | _ | _ | _ | _ | _ | _) <;> simp [Carries, bool?, canonical]

theorem stable_string : Stable string? := by
  rintro (_ | _ | _ | _ | _ | _ | _) <;> simp [Carries, string?, canonical]

theorem stable_integer (low high : Int) : Stable (integer? low high) := by
  rintro (_ | _ | _ | _ | _ | _ | _) <;> simp [Carries, integer?, canonical]

theorem stable_uint8 : Stable uint8? := fun j => (stable_integer _ _ j).map _

theorem stable_uint64 : Stable uint64? := fun j => (stable_integer _ _ j).map _

theorem stable_int64 : Stable int64? := fun j => (stable_integer _ _ j).map _

theorem stable_value : Stable value? := by
  intro j a h
  rw [value?, settled_canonical j]
  exact h

theorem stable_empty : Stable empty? := by
  intro j
  unfold empty?
  split
  · simp [canonical, Carries.refl]
  · simp [canonical, canonicalItems, Carries.refl]
  · exact .none _

theorem carries_mapM (h : Stable decode) (items : List Json) :
    Carries (items.mapM decode) ((items.map canonical).mapM decode) := by
  induction items with
  | nil => exact .refl _
  | cons j rest ih =>
    simp only [List.map_cons, List.mapM_cons]
    exact (h j).bind fun _ => ih.bind fun _ => .refl _

theorem stable_list (h : Stable decode) : Stable (list? decode) := by
  intro j
  cases j with
  | arr items =>
    rw [canonical, canonicalItems_eq_map]
    exact carries_mapM h items
  | _ => exact .none _

theorem stable_pair {second : Json → Option β} (hfirst : Stable decode) (hsecond : Stable second) :
    Stable (pair? decode second) := by
  intro j
  unfold pair?
  split
  · case h_1 a b =>
    simp only [canonical, canonicalItems]
    exact (hfirst a).bind fun _ => (hsecond b).bind fun _ => .refl _
  · exact .none _

theorem stable_nullable (h : Stable decode) : Stable (nullable? decode) := by
  intro j
  have hsome := (h j).map some
  cases j with
  | null =>
    rw [canonical]
    exact .refl _
  | _ =>
    rw [canonical] at hsome ⊢
    exact hsome

theorem carries_required (h : Stable decode) (field : Option Json) :
    Carries (required decode field) (required decode (field.map canonical)) := by
  cases field with
  | none => exact .none _
  | some j => exact h j

theorem carries_optional (h : Stable decode) (default : α) (field : Option Json) :
    Carries (optional decode default field) (optional decode default (field.map canonical)) := by
  cases field with
  | none => exact .refl _
  | some j => exact h j

end Stable

section Fields

variable {α : Type} {members : List (String × Json)}

theorem single?_canonicalMembers {name : String} {found : Option Json}
    (h : single? members name = some found) :
    single? (canonicalMembers members []) name = some (found.map canonical) := by
  have hfilter := filter_canonicalMembers (· == name) members List.Pairwise.nil
  unfold single? at h ⊢
  rw [hfilter]
  split at h
  · case h_1 hnone =>
    cases h
    simp [hnone, canonicalMembers]
  · case h_2 k v hone =>
    cases h
    simp [hone, canonicalMembers, insertMember]
  · cases h

/-- The fields of a record are found whatever the order of its members. -/
theorem fields?_canonical {names : List String} {j : Json} {found : List (Option Json)}
    (h : j.fields? names = some found) :
    j.canonical.fields? names = some (found.map (·.map canonical)) := by
  cases j with
  | obj members =>
    simp only [fields?, canonical] at h ⊢
    induction names generalizing found with
    | nil =>
      cases h
      rfl
    | cons name rest ih =>
      rw [List.mapM_cons] at h ⊢
      obtain ⟨first, hfirst, h⟩ := Option.bind_eq_some_iff.mp h
      obtain ⟨others, hothers, h⟩ := Option.bind_eq_some_iff.mp h
      cases h
      simp [single?_canonicalMembers hfirst, ih hothers]
  | arr items =>
    simp only [fields?, canonical, canonicalItems_eq_map, List.length_map] at h ⊢
    split at h
    · case isTrue hlength =>
      cases h
      simp [hlength]
    · cases h
  | _ => cases h

theorem stable_fields {names : List String} {read : List (Option Json) → Option α}
    (h : ∀ found, Carries (read found) (read (found.map (·.map canonical)))) :
    Stable fun j => j.fields? names >>= read := by
  intro j a ha
  obtain ⟨found, hfound, ha⟩ := Option.bind_eq_some_iff.mp ha
  exact Option.bind_eq_some_iff.mpr ⟨_, fields?_canonical hfound, h found a ha⟩

/-- A tag is found whatever the order of the members, and so is what is left. -/
theorem tagged?_canonical {tag : String} {j v rest : Json} (h : j.tagged? tag = some (v, rest)) :
    j.canonical.tagged? tag = some (v.canonical, rest.canonical) := by
  cases j with
  | obj members =>
    have htag := filter_canonicalMembers (· == tag) members List.Pairwise.nil
    have hrest := filter_canonicalMembers (· != tag) members List.Pairwise.nil
    simp only [tagged?, canonical] at h ⊢
    rw [htag, hrest]
    split at h
    · case h_1 k w hone =>
      cases h
      simp [hone, canonicalMembers, insertMember, canonical]
    · cases h
  | arr items =>
    cases items with
    | nil => cases h
    | cons w others =>
      cases h
      simp [tagged?, canonical, canonicalItems]
  | _ => cases h

theorem stable_tagged {tag : String} {read : Json × Json → Option α}
    (h : ∀ v rest, Carries (read (v, rest)) (read (v.canonical, rest.canonical))) :
    Stable fun j => j.tagged? tag >>= read := by
  intro j a ha
  obtain ⟨⟨v, rest⟩, htag, ha⟩ := Option.bind_eq_some_iff.mp ha
  exact Option.bind_eq_some_iff.mpr ⟨_, tagged?_canonical htag, h v rest a ha⟩

theorem tagged?_of_absent {tag : String} (h : ∀ m ∈ members, m.1 ≠ tag) :
    (obj members).tagged? tag = none ∧ (obj members).canonical.tagged? tag = none := by
  have hnone : members.filter (·.1 == tag) = [] := by simpa [List.filter_eq_nil_iff] using h
  have hcanonical := filter_canonicalMembers (· == tag) members List.Pairwise.nil
  simp [tagged?, canonical, hcanonical, hnone, canonicalMembers]

end Fields

end SandboxHost.Json

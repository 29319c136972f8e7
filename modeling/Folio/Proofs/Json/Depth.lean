import Folio.Proofs.Json.Records

/-!
# Depth

The parts of a value nest less deeply than the value itself. A legible value is legible within its
own depth already, whatever bound it was first shown to keep; so a limit on the depth of a whole is
a limit on each of its parts, however far inside they stand.
-/

namespace Folio.Json

variable {limit limit' : Nat}

namespace Value

/-- Values nest within a limit when each of them does. -/
theorem depthAll_le_iff {items : List Value} :
    depthAll items ≤ limit ↔ ∀ v ∈ items, v.depth ≤ limit := by
  induction items with
  | nil => simp [depthAll]
  | cons v items ih => rw [depthAll, Nat.max_le, ih, List.forall_mem_cons]

/-- Members nest within a limit when the value of each of them does. -/
theorem depthMembers_le_iff {members : List (String × Value)} :
    depthMembers members ≤ limit ↔ ∀ m ∈ members, m.2.depth ≤ limit := by
  induction members with
  | nil => simp [depthMembers]
  | cons m members ih => rw [depthMembers, Nat.max_le, ih, List.forall_mem_cons]

/-- An array is deeper than its items. -/
theorem depthAll_lt_array (items : List Value) : depthAll items < (array items).depth := by
  rw [depth]
  omega

/-- The value of a field is a member of the record. -/
theorem exists_mem_members {fields : List String} {slots : List (Option Value)} {v : Value}
    (hlength : slots.length = fields.length) (h : some v ∈ slots) :
    ∃ field, (field, v) ∈ members fields slots := by
  induction fields generalizing slots with
  | nil =>
    obtain rfl := List.length_eq_zero_iff.mp hlength
    cases h
  | cons field fields ih =>
    cases slots with
    | nil => cases h
    | cons slot slots =>
      rw [members_cons]
      rcases List.mem_cons.mp h with rfl | h
      · exact ⟨field, List.mem_append_left _ (List.mem_singleton_self _)⟩
      · obtain ⟨other, hother⟩ := ih (Nat.succ.inj hlength) h
        exact ⟨other, List.mem_append_right _ hother⟩

/-- A record is deeper than the values in its fields. -/
theorem depth_lt_record {fields : List String} {slots : List (Option Value)} {v : Value}
    (hlength : slots.length = fields.length) (h : some v ∈ slots) :
    v.depth < (record fields slots).depth := by
  obtain ⟨field, hmem⟩ := exists_mem_members hlength h
  have hle : v.depth ≤ depthMembers (members fields slots) :=
    depthMembers_le_iff.mp (Nat.le_refl _) (field, v) hmem
  simp only [record, depth]
  omega

/-- The kind of a record takes no part in its depth. -/
theorem depth_lt_tagged {kind : String} {fields : List String} {slots : List (Option Value)}
    {v : Value} (hlength : slots.length = fields.length) (h : some v ∈ slots) :
    v.depth < (tagged kind fields slots).depth := by
  rw [tagged_eq_record]
  apply depth_lt_record
  · simp only [List.length_cons, hlength]
  · exact List.mem_cons_of_mem _ h

/-- Legible values are legible within their own depth. -/
theorem Legible.within {v : Value} (h : v.Legible limit) (hdepth : v.depth ≤ limit') :
    v.Legible limit' := by
  induction h generalizing limit' with
  | null => exact .null
  | bool b => exact .bool b
  | number hn hrange => exact .number hn hrange
  | text s => exact .text s
  | @array _ items _ ih =>
    simp only [depth] at hdepth
    obtain ⟨room, rfl⟩ := Nat.exists_eq_add_of_le' (Nat.le_trans (Nat.le_add_left 1 _) hdepth)
    have hitems := depthAll_le_iff.mp (Nat.le_of_succ_le_succ hdepth)
    exact .array fun v hv => ih v hv (hitems v hv)
  | @object _ members _ ih =>
    simp only [depth] at hdepth
    obtain ⟨room, rfl⟩ := Nat.exists_eq_add_of_le' (Nat.le_trans (Nat.le_add_left 1 _) hdepth)
    have hmembers := depthMembers_le_iff.mp (Nat.le_of_succ_le_succ hdepth)
    exact .object fun m hm => ih m hm (hmembers m hm)

end Value

/-- A value that is read back needs no more than its own depth. -/
theorem Faithful.within {α : Type} {read : Value → Option α} {v : Value} {a : α}
    (h : Faithful limit read v a) (hdepth : v.depth ≤ limit') : Faithful limit' read v a :=
  ⟨h.legible.within hdepth, h.reads⟩

/-- A record is faithful within its own depth, however deep its fields are. -/
theorem Value.faithful_record_own {α : Type} {fields : List String} {slots : List (Option Value)}
    {a : α} {read : List (Option Value) → Option α} (hfields : fields.Nodup)
    (hlength : slots.length = fields.length)
    (hlegible : ∀ slot ∈ slots, ∃ limit, ∀ v ∈ slot, v.Legible limit)
    (hread : read slots = some a) :
    Faithful (record fields slots).depth (fun v => (v.slots? fields).bind read)
      (record fields slots) a := by
  refine Value.faithful_record hfields hlength (fun slot hslot v hv => ?_) hread
  obtain ⟨limit, hlimit⟩ := hlegible slot hslot
  have hlt := depth_lt_record hlength ((Option.mem_def.mp hv) ▸ hslot)
  exact (hlimit v hv).within (Nat.le_of_lt_succ hlt)

/-- A list is faithful within its own depth when its elements are within theirs. -/
theorem Faithful.ownList {α : Type} {read : Value → Option α} {write : α → Value} {items : List α}
    (h : ∀ a ∈ items, Faithful (write a).depth read (write a) a) :
    Faithful (Value.ofList write items).depth (Value.list? read) (.ofList write items) items := by
  refine Faithful.list fun a ha => (h a ha).within ?_
  have hle := Value.depthAll_le_iff.mp (Nat.le_refl (Value.depthAll (items.map write)))
  exact hle (write a) (List.mem_map_of_mem ha)

end Folio.Json

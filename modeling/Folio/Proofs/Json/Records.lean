import Folio.Json.Record
import Folio.Proofs.Json.RoundTrip
import Folio.Proofs.Outcome

/-!
# Faithful records

A value stands faithfully for some data when the data is read from it and it is legible, so that it
survives being written and read. Fields, lists and dictionaries are faithful when their parts are;
the fields of a record are found again under their names, and those left out are not there.
-/

namespace Folio.Json

variable {α : Type} {limit : Nat}

/-- A legible value from which some data is read. -/
structure Faithful (limit : Nat) (read : Value → Option α) (v : Value) (a : α) : Prop where
  legible : v.Legible limit
  reads : read v = some a

/-- A field, there or left out, from which some data is read. -/
structure FaithfulField (limit : Nat) (read : Option Value → Option α) (field : Option Value)
    (a : α) : Prop where
  legible : ∀ v ∈ field, v.Legible limit
  reads : read field = some a

/-- What is read back within a limit is read back within a greater one. -/
theorem Faithful.mono {read : Value → Option α} {v : Value} {a : α} {limit' : Nat}
    (h : Faithful limit read v a) (hle : limit ≤ limit') : Faithful limit' read v a :=
  ⟨h.legible.mono hle, h.reads⟩

/-- A field that is read back within a limit is read back within a greater one. -/
theorem FaithfulField.mono {read : Option Value → Option α} {field : Option Value} {a : α}
    {limit' : Nat} (h : FaithfulField limit read field a) (hle : limit ≤ limit') :
    FaithfulField limit' read field a :=
  ⟨fun v hv => (h.legible v hv).mono hle, h.reads⟩

/-- What is faithful within the limit on nesting is read from its text. -/
theorem Faithful.reads_print {read : Value → Option α} {v : Value} {a : α}
    (h : Faithful limit read v a) (hlimit : limit ≤ Value.nestingLimit) (spacing : Spacing) :
    (Value.parse? (v.print spacing)).bind read = some a := by
  rw [(h.legible.mono hlimit).parse?_print, Option.bind_some, h.reads]

namespace Faithful

/-- A text is read back from its value. -/
theorem text (s : String) (limit : Nat) : Faithful limit Value.text? (.text s) s := ⟨.text s, rfl⟩

/-- A truth value is read back from its value. -/
theorem bool (b : Bool) (limit : Nat) : Faithful limit Value.bool? (.bool b) b := ⟨.bool b, rfl⟩

/-- A number below a bound is read back under that bound. -/
theorem nat {bound n : Nat} (h : n < bound) (hbound : bound ≤ UInt64.size) :
    Faithful limit (Value.natBelow? bound) (.ofNat n) n := by
  have hn := Nat.lt_of_lt_of_le h hbound
  refine ⟨.number (Numeral.wellFormed_ofNat n) (Numeral.inRange_ofNat hn), ?_⟩
  simp only [Value.natBelow?, Value.ofNat, Numeral.toNat?_ofNat hn, Option.bind_some, h, ite_true]

/-- A number of one byte is read back from its value. -/
theorem uint8 (n : UInt8) (limit : Nat) : Faithful limit Value.uint8? (.ofNat n.toNat) n := by
  have hn : Faithful limit (Value.natBelow? UInt8.size) (.ofNat n.toNat) n.toNat :=
    .nat n.toNat_lt (by decide)
  refine ⟨hn.legible, ?_⟩
  rw [Value.uint8?, hn.reads, Option.map_some, UInt8.ofNat_toNat]

/-- A number of four bytes is read back from its value. -/
theorem uint32 (n : UInt32) (limit : Nat) : Faithful limit Value.uint32? (.ofNat n.toNat) n := by
  have hn : Faithful limit (Value.natBelow? UInt32.size) (.ofNat n.toNat) n.toNat :=
    .nat n.toNat_lt (by decide)
  refine ⟨hn.legible, ?_⟩
  rw [Value.uint32?, hn.reads, Option.map_some, UInt32.ofNat_toNat]

end Faithful

/-- The text that is written for a length is read as that length. -/
def ReadsBack (x : Float32) : Prop :=
  ∀ n, Numeral.ofFloat32? x = some n → (Numeral.ofText? n.text).bind Numeral.toFloat32? = some x

instance (x : Float32) : Decidable (ReadsBack x) :=
  inferInstanceAs (Decidable (∀ n ∈ Numeral.ofFloat32? x, _))

/-- A finite length is not left out. -/
theorem Value.ofFloat32_ne_null {x : Float32} (h : x.isFinite = true) :
    Value.ofFloat32 x ≠ .null := by
  obtain ⟨n, hn⟩ := Numeral.exists_ofFloat32?_eq h
  unfold Value.ofFloat32
  rw [hn]
  nofun

/-- A finite number is read back if its decimal reads back. -/
theorem Faithful.float32 {x : Float32} (hfinite : x.isFinite = true) (hback : ReadsBack x) :
    Faithful limit Value.float32? (.ofFloat32 x) x := by
  obtain ⟨n, hn⟩ := Numeral.exists_ofFloat32?_eq hfinite
  have hformed := Numeral.wellFormed_of_ofFloat32? hn
  have hread := hback n hn
  rw [hformed.ofText?_text, Option.bind_some] at hread
  have hvalue : Value.ofFloat32 x = .number n := by
    unfold Value.ofFloat32
    rw [hn]
  rw [hvalue]
  exact ⟨.number hformed (Numeral.inRange_of_toFloat32? hread), hread⟩

/-- A list is read back if each of its items is. -/
theorem Faithful.list {read : Value → Option α} {write : α → Value} {items : List α}
    (h : ∀ a ∈ items, Faithful limit read (write a) a) :
    Faithful (limit + 1) (Value.list? read) (.ofList write items) items := by
  constructor
  · refine .array fun v hv => ?_
    obtain ⟨a, ha, rfl⟩ := List.mem_map.mp hv
    exact (h a ha).legible
  · show (items.map write).mapM read = some items
    induction items with
    | nil => rfl
    | cons a items ih =>
      obtain ⟨ha, hitems⟩ := List.forall_mem_cons.mp h
      simp only [List.map_cons, List.mapM_cons, ha.reads, ih hitems, Option.bind_eq_bind,
        Option.bind_some, Option.pure_def]

/-- A dictionary is read back if each of its values is. -/
theorem Faithful.dict {read : Value → Option α} {write : α → Value} {d : Dict α}
    (h : ∀ a, Faithful limit read (write a) a) :
    Faithful (limit + 1) (Value.dict? read) (.ofDict write d) d := by
  constructor
  · refine .object fun m hm => ?_
    obtain ⟨e, _, rfl⟩ := List.mem_map.mp hm
    exact (h e.2).legible
  · have hentries : (d.entries.map fun e => (e.1, write e.2)).mapM
        (fun (m : String × Value) => (read m.2).map fun a => (m.1, a)) = some d.entries := by
      induction d.entries with
      | nil => rfl
      | cons e entries ih =>
        simp only [List.map_cons, List.mapM_cons, (h e.2).reads, ih, Option.map_some,
          Option.bind_eq_bind, Option.bind_some, Option.pure_def]
    show Option.map Dict.ofList _ = some d
    rw [hentries, Option.map_some, Dict.ofList_entries]

/-- What is read back can be read. -/
theorem Faithful.forall_legible {read : Value → Option α} {v : Value} {a : α}
    (h : Faithful limit read v a) : ∀ w ∈ some v, w.Legible limit := by
  rintro _ ⟨⟩
  exact h.legible

/-- A required field is read back from its value. -/
theorem Faithful.required {read : Value → Option α} {v : Value} {a : α}
    (h : Faithful limit read v a) : FaithfulField limit (Value.required read) (some v) a :=
  ⟨h.forall_legible, h.reads⟩

/-- What may be left out is written as something else than null where it is there. -/
theorem FaithfulField.optional {read : Value → Option α} {write : α → Value} {x : Option α}
    (h : ∀ a ∈ x, Faithful limit read (write a) a) (hnull : ∀ a ∈ x, write a ≠ .null) :
    FaithfulField limit (Value.optional read) (x.map write) x := by
  cases x with
  | none => exact ⟨nofun, rfl⟩
  | some a =>
    have ha := h a rfl
    refine ⟨ha.forall_legible, ?_⟩
    rw [Option.map_some, Value.optional, ha.reads, Option.map_some]
    · exact hnull a rfl

/-- A field with a default is read back from its value. -/
theorem Faithful.orElse {read : Value → Option α} {v : Value} {a : α} (default : α)
    (h : Faithful limit read v a) : FaithfulField limit (Value.orElse read default) (some v) a :=
  ⟨h.forall_legible, h.reads⟩

/-- A field that is left out where it has the value that it is then read as. -/
theorem Faithful.onlyIf {read : Value → Option α} {v : Value} {a default : α} {condition : Bool}
    (h : Faithful limit read v a) (hdefault : condition = false → a = default) :
    FaithfulField limit (Value.orElse read default) (Value.onlyIf condition v) a := by
  cases condition with
  | false => exact ⟨nofun, congrArg some (hdefault rfl).symm⟩
  | true => exact h.orElse default

namespace Value

/-- A member of a record is a value in the slot of its field. -/
theorem mem_members {fields : List String} {slots : List (Option Value)} {m : String × Value}
    (h : m ∈ members fields slots) : m.1 ∈ fields ∧ some m.2 ∈ slots := by
  obtain ⟨⟨field, slot⟩, hzip, hm⟩ := List.mem_filterMap.mp h
  obtain ⟨v, rfl, rfl⟩ := Option.map_eq_some_iff.mp hm
  exact ⟨List.of_mem_zip hzip |>.1, List.of_mem_zip hzip |>.2⟩

theorem members_cons (field : String) (fields : List String) (slot : Option Value)
    (slots : List (Option Value)) :
    members (field :: fields) (slot :: slots) =
      (slot.map fun v => (field, v)).toList ++ members fields slots := by
  cases slot <;> rfl

/-- A record is legible when its fields are. -/
theorem Legible.record {fields : List String} {slots : List (Option Value)}
    (h : ∀ slot ∈ slots, ∀ v ∈ slot, v.Legible limit) :
    (record fields slots).Legible (limit + 1) :=
  .object fun m hm => h _ (mem_members hm).2 m.2 rfl

/-- A member of another name does not count. -/
theorem slot?_append_of_ne {front rest : List (String × Value)} {field : String}
    (h : ∀ m ∈ front, m.1 ≠ field) : slot? (front ++ rest) field = slot? rest field := by
  have hfront : front.filter (·.1 == field) = [] := by
    simpa [List.filter_eq_nil_iff] using fun name v hm => h (name, v) hm
  unfold slot?
  rw [List.filter_append, hfront, List.nil_append]

/-- The first field is found where no other has its name. -/
theorem slot?_members_cons {field : String} {fields : List String} (hfield : field ∉ fields)
    (slot : Option Value) (slots : List (Option Value)) :
    slot? (members (field :: fields) (slot :: slots)) field = some slot := by
  have hrest : (members fields slots).filter (·.1 == field) = [] := by
    refine List.filter_eq_nil_iff.mpr fun m hm heq => hfield ?_
    exact beq_iff_eq.mp heq ▸ (mem_members hm).1
  unfold slot?
  rw [members_cons, List.filter_append, hrest, List.append_nil]
  cases slot with
  | none => rfl
  | some v => simp

/-- The fields of a record are found again in their order. -/
theorem slots?_record {fields : List String} {slots : List (Option Value)} (hfields : fields.Nodup)
    (hlength : slots.length = fields.length) :
    (record fields slots).slots? fields = some slots := by
  show fields.mapM (slot? (members fields slots)) = some slots
  induction fields generalizing slots with
  | nil =>
    obtain rfl := List.length_eq_zero_iff.mp hlength
    rfl
  | cons field fields ih =>
    cases slots with
    | nil => cases hlength
    | cons slot slots =>
      obtain ⟨hfield, hfields⟩ := List.nodup_cons.mp hfields
      have hothers : ∀ other ∈ fields,
          slot? (members (field :: fields) (slot :: slots)) other =
            slot? (members fields slots) other := by
        intro other hother
        rw [members_cons]
        refine slot?_append_of_ne fun m hm heq => hfield ?_
        obtain ⟨v, _, rfl⟩ := Option.map_eq_some_iff.mp (Option.mem_toList.mp hm)
        exact (show field = other from heq) ▸ hother
      rw [List.mapM_cons, slot?_members_cons hfield, mapM_congr_of_mem hothers,
        ih hfields (Nat.succ.inj hlength)]
      rfl

/-- A record is faithful when the data is read from its fields. -/
theorem faithful_record {fields : List String} {slots : List (Option Value)} {a : α}
    {read : List (Option Value) → Option α} (hfields : fields.Nodup)
    (hlength : slots.length = fields.length)
    (hlegible : ∀ slot ∈ slots, ∀ v ∈ slot, v.Legible limit) (hread : read slots = some a) :
    Faithful (limit + 1) (fun v => (v.slots? fields).bind read) (record fields slots) a := by
  refine ⟨.record hlegible, ?_⟩
  rw [slots?_record hfields hlength, Option.bind_some, hread]

/-- Values can be read when each of them can. -/
theorem allReadable_iff {items : List Value} :
    allReadable items = true ↔ ∀ v ∈ items, v.isReadable = true := by
  induction items with
  | nil => simp [allReadable]
  | cons v items ih => simp [allReadable, ih]

/-- Members can be read when the value of each of them can. -/
theorem membersReadable_iff {members : List (String × Value)} :
    membersReadable members = true ↔ ∀ m ∈ members, m.2.isReadable = true := by
  induction members with
  | nil => simp [membersReadable]
  | cons m members ih => simp [membersReadable, ih]

/-- All of a legible value can be read. -/
theorem Legible.isReadable {v : Value} (h : v.Legible limit) : v.isReadable = true := by
  induction h with
  | array _ ih => exact allReadable_iff.mpr ih
  | object _ ih => exact membersReadable_iff.mpr ih
  | _ => rfl

/-- The kind stands in front of the fields as one of them. -/
theorem tagged_eq_record (kind : String) (fields : List String) (slots : List (Option Value)) :
    tagged kind fields slots = record ("type" :: fields) (some (.text kind) :: slots) := rfl

/-- A tagged record can be read if what is in its slots can. -/
theorem Legible.tagged {kind : String} {fields : List String} {slots : List (Option Value)}
    (h : ∀ slot ∈ slots, ∀ v ∈ slot, v.Legible limit) :
    (tagged kind fields slots).Legible (limit + 1) := by
  rw [tagged_eq_record]
  refine .record (List.forall_mem_cons.mpr ⟨?_, h⟩)
  rintro _ ⟨⟩
  exact .text kind

/-- The kind of a record is found beside the record, where no field has the name of the kind. -/
theorem tagged?_tagged {kind : String} {fields : List String} {slots : List (Option Value)}
    (h : ∀ slot ∈ slots, ∀ v ∈ slot, v.Legible limit) (htype : "type" ∉ fields)
    (mode : Strictness) (kinds : List String) :
    (tagged kind fields slots).tagged? mode kinds = some (kind, record fields slots) := by
  have hreadable : (tagged kind fields slots).isReadable = true := (Legible.tagged h).isReadable
  have hkind := slot?_members_cons htype (some (.text kind)) slots
  have hothers : (members ("type" :: fields) (some (.text kind) :: slots)).filter (·.1 != "type") =
      members fields slots := by
    rw [members_cons, List.filter_append]
    refine List.filter_eq_self.mpr fun m hm => bne_iff_ne.mpr fun heq => htype ?_
    exact heq ▸ (mem_members hm).1
  unfold tagged?
  rw [if_pos hreadable, tagged_eq_record]
  unfold record
  dsimp only
  rw [hkind]
  dsimp only
  rw [hothers]
  rfl

/-- A record of a kind is legible, and its kind and its fields are found again. -/
theorem tagged_parts (kind : String) (fields : List String) {slots : List (Option Value)}
    (h : ∀ slot ∈ slots, ∀ v ∈ slot, v.Legible limit) (hfields : ("type" :: fields).Nodup)
    (hlength : slots.length = fields.length) :
    (tagged kind fields slots).Legible (limit + 1) ∧
      (∀ mode kinds, (tagged kind fields slots).tagged? mode kinds =
        some (kind, record fields slots)) ∧
      (record fields slots).slots? fields = some slots := by
  obtain ⟨htype, hfields⟩ := List.nodup_cons.mp hfields
  exact ⟨.tagged h, tagged?_tagged h htype, slots?_record hfields hlength⟩

/-- A kind may stand alone. -/
theorem tagged_nil_parts (kind : String) (limit : Nat) :
    (tagged kind [] []).Legible (limit + 1) ∧
      ∀ mode kinds, (tagged kind [] []).tagged? mode kinds = some (kind, record [] []) := by
  have hslots : ∀ slot ∈ ([] : List (Option Value)), ∀ v ∈ slot, v.Legible limit :=
    List.forall_mem_nil _
  obtain ⟨hlegible, hkind, _⟩ := tagged_parts kind [] hslots (by decide) rfl
  exact ⟨hlegible, hkind⟩

end Value

end Folio.Json

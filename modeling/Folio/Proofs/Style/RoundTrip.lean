import Folio.Proofs.Json.Scalars
import Folio.Style.Json

/-!
# Reading written styles

Declared properties are read from what is written for them, however few there are: a kind of
properties that declares nothing is left out and read as the empty one. Properties in effect are
read with all their fields.
-/

namespace Folio

open Json

theorem Alignment.faithful (a : Alignment) (mode : Strictness) (limit : Nat) :
    Faithful limit (ofJson? mode) a.toJson a :=
  ⟨.text a.name, by cases a <;> rfl⟩

/-- The scalars of declared properties of characters. -/
def RunProperties.scalars (p : RunProperties) : List Scalar :=
  p.sizePt.toList.map .length ++ p.color.toList.flatMap ColorRef.scalars

/-- The scalars of declared properties of paragraphs. -/
def ParagraphProperties.scalars (p : ParagraphProperties) : List Scalar :=
  p.spacingBeforePt.toList.map .length ++ p.spacingAfterPt.toList.map .length

/-- The scalars of declared properties. -/
def StyleProperties.scalars (p : StyleProperties) : List Scalar :=
  p.run.scalars ++ p.paragraph.scalars

/-- The scalars of a style. -/
def StyleDefinition.scalars (d : StyleDefinition) : List Scalar := d.properties.scalars

theorem RunProperties.eq_empty_of_isEmpty {p : RunProperties} (h : p.isEmpty = true) : p = {} := by
  simp only [isEmpty, Bool.and_eq_true, Option.isNone_iff_eq_none] at h
  obtain ⟨⟨⟨⟨⟨hfont, hsize⟩, hbold⟩, hitalic⟩, hunderline⟩, hcolor⟩ := h
  cases p
  simp_all only

theorem ParagraphProperties.eq_empty_of_isEmpty {p : ParagraphProperties}
    (h : p.isEmpty = true) : p = {} := by
  simp only [isEmpty, Bool.and_eq_true, Option.isNone_iff_eq_none] at h
  obtain ⟨⟨⟨halignment, hbefore⟩, hafter⟩, hlevel⟩ := h
  cases p
  simp_all only

theorem StyleProperties.eq_empty_of_isEmpty {p : StyleProperties} (h : p.isEmpty = true) :
    p = {} := by
  obtain ⟨hrun, hparagraph⟩ := Bool.and_eq_true_iff.mp h
  have hrun := RunProperties.eq_empty_of_isEmpty hrun
  have hparagraph := ParagraphProperties.eq_empty_of_isEmpty hparagraph
  cases p
  simp_all only

theorem RunProperties.faithful {p : RunProperties} (h : ∀ x ∈ p.scalars, x.Portable) :
    Faithful 2 ofJson? p.toJson p := by
  rw [scalars, List.forall_mem_append] at h
  obtain ⟨hsize, hcolor⟩ := h
  have hfont : FaithfulField 1 (Value.optional FontRef.ofJson?) (p.font.map FontRef.toJson)
      p.font := by
    refine .optional (fun f _ => f.faithful) fun f _ => ?_
    cases f <;> nofun
  have hsize := optional_length hsize 1
  have hbold := optional_bool p.bold 1
  have hitalic := optional_bool p.italic 1
  have hunderline := optional_bool p.underline 1
  have hcolor := optional_colorRef hcolor 0
  refine Value.faithful_record (by decide) rfl ?_ ?_
  · simp only [List.forall_mem_cons]
    exact ⟨hfont.legible, hsize.legible, hbold.legible, hitalic.legible, hunderline.legible,
      hcolor.legible, List.forall_mem_nil _⟩
  · simp only [hfont.reads, hsize.reads, hbold.reads, hitalic.reads, hunderline.reads,
      hcolor.reads, Option.bind_eq_bind, Option.bind_some, Option.pure_def]

theorem ParagraphProperties.faithful {p : ParagraphProperties}
    (h : ∀ x ∈ p.scalars, x.Portable) (mode : Strictness) :
    Faithful 1 (ofJson? mode) p.toJson p := by
  rw [scalars, List.forall_mem_append] at h
  obtain ⟨hbefore, hafter⟩ := h
  have halignment : FaithfulField 0 (Value.optional (Alignment.ofJson? mode))
      (p.alignment.map Alignment.toJson) p.alignment :=
    .optional (fun a _ => a.faithful mode 0) nofun
  have hbefore := optional_length hbefore 0
  have hafter := optional_length hafter 0
  have hlevel := optional_uint8 p.outlineLevel 0
  refine Value.faithful_record (by decide) rfl ?_ ?_
  · simp only [List.forall_mem_cons]
    exact ⟨halignment.legible, hbefore.legible, hafter.legible, hlevel.legible,
      List.forall_mem_nil _⟩
  · simp only [halignment.reads, hbefore.reads, hafter.reads, hlevel.reads, Option.bind_eq_bind,
      Option.bind_some, Option.pure_def]

namespace StyleProperties

variable {p : StyleProperties} (h : ∀ x ∈ p.scalars, x.Portable)

include h

/-- A kind of properties is left out when it declares nothing. -/
theorem parts_faithful (mode : Strictness) :
    FaithfulField 2 (Value.orElse RunProperties.ofJson? {})
        (Value.onlyIf (!p.run.isEmpty) p.run.toJson) p.run ∧
      FaithfulField 2 (Value.orElse (ParagraphProperties.ofJson? mode) {})
        (Value.onlyIf (!p.paragraph.isEmpty) p.paragraph.toJson) p.paragraph := by
  rw [scalars, List.forall_mem_append] at h
  obtain ⟨hrun, hparagraph⟩ := h
  constructor
  · refine (RunProperties.faithful hrun).onlyIf fun hempty => ?_
    exact RunProperties.eq_empty_of_isEmpty (Bool.not_eq_eq_eq_not.mp hempty)
  · have hfaithful := (ParagraphProperties.faithful hparagraph mode).mono (show 1 ≤ 2 by decide)
    refine hfaithful.onlyIf fun hempty => ?_
    exact ParagraphProperties.eq_empty_of_isEmpty (Bool.not_eq_eq_eq_not.mp hempty)

theorem slots_legible : ∀ slot ∈ p.slots, ∀ v ∈ slot, v.Legible 2 := by
  obtain ⟨hrun, hparagraph⟩ := parts_faithful h .strict
  simp only [slots, List.forall_mem_cons]
  exact ⟨hrun.legible, hparagraph.legible, List.forall_mem_nil _⟩

theorem ofSlots?_slots (mode : Strictness) :
    ofSlots? mode (Value.onlyIf (!p.run.isEmpty) p.run.toJson)
      (Value.onlyIf (!p.paragraph.isEmpty) p.paragraph.toJson) = some p := by
  obtain ⟨hrun, hparagraph⟩ := parts_faithful h mode
  simp only [ofSlots?, hrun.reads, hparagraph.reads, Option.bind_eq_bind, Option.bind_some,
    Option.pure_def]

theorem faithful (mode : Strictness) : Faithful 3 (ofJson? mode) p.toJson p := by
  refine Value.faithful_record (by decide) rfl (slots_legible h) ?_
  simp only [slots, ofSlots?_slots h]

/-- Overrides are left out when they declare nothing. -/
theorem slot_faithful (mode : Strictness) :
    FaithfulField 3 (Value.orElse (ofJson? mode) {}) p.slot p := by
  refine (faithful h mode).onlyIf fun hempty => ?_
  exact eq_empty_of_isEmpty (Bool.not_eq_eq_eq_not.mp hempty)

end StyleProperties

/-- The properties of a style stand beside its own fields. -/
theorem StyleDefinition.faithful {d : StyleDefinition} (h : ∀ x ∈ d.scalars, x.Portable) :
    Faithful 3 ofJson? d.toJson d := by
  have hid := (Faithful.text d.id 2).required
  have hname := optional_text d.name 2
  have hbasedOn := optional_text d.basedOn 2
  have hnext := optional_text d.next 2
  have hlegible : d.toJson.Legible 3 := by
    refine .record ?_
    rw [List.forall_mem_append]
    refine ⟨?_, StyleProperties.slots_legible h⟩
    simp only [List.forall_mem_cons]
    exact ⟨hid.legible, hname.legible, hbasedOn.legible, hnext.legible, List.forall_mem_nil _⟩
  refine ⟨hlegible, ?_⟩
  have hslots : d.toJson.slots? fields = some ([some (.text d.id), d.name.map .text,
      d.basedOn.map .text, d.next.map .text] ++ d.properties.slots) :=
    Value.slots?_record (by decide) rfl
  have hproperties := StyleProperties.ofSlots?_slots h .lenient
  unfold toJson Value.record at hlegible hslots ⊢
  simp only [StyleProperties.slots, List.cons_append, List.nil_append] at hlegible hslots ⊢
  simp only [ofJson?, hlegible.isReadable, hslots, hid.reads, hname.reads, hbasedOn.reads,
    hnext.reads, hproperties, Bool.not_true, Bool.false_eq_true, ite_false, Option.bind_eq_bind,
    Option.bind_some, Option.pure_def]

/-- The scalars of properties of characters. -/
def RunStyle.scalars (s : RunStyle) : List Scalar := [.length s.sizePt, .color s.color]

/-- The scalars of properties of paragraphs. -/
def ParagraphStyle.scalars (s : ParagraphStyle) : List Scalar :=
  [.length s.spacingBeforePt, .length s.spacingAfterPt]

/-- The scalars of properties in effect. -/
def EffectiveStyle.scalars (s : EffectiveStyle) : List Scalar :=
  s.run.scalars ++ s.paragraph.scalars

namespace RunStyle

variable {s : RunStyle} (h : ∀ x ∈ s.scalars, x.Portable)

include h

theorem parts_faithful :
    FaithfulField 0 (Value.required Value.float32?) (some (.ofFloat32 s.sizePt)) s.sizePt ∧
      FaithfulField 0 (Value.required Color.ofJson?) (some s.color.toJson) s.color := by
  simp only [scalars, List.forall_mem_cons] at h
  exact ⟨(h.1.length 0).required, (h.2.1.color 0).required⟩

theorem slots_legible : ∀ slot ∈ s.slots, ∀ v ∈ slot, v.Legible 0 := by
  obtain ⟨hsize, hcolor⟩ := parts_faithful h
  simp only [slots, List.forall_mem_cons]
  exact ⟨(Faithful.text s.font 0).forall_legible, hsize.legible,
    (Faithful.bool s.bold 0).forall_legible, (Faithful.bool s.italic 0).forall_legible,
    (Faithful.bool s.underline 0).forall_legible, hcolor.legible, List.forall_mem_nil _⟩

theorem ofSlots?_slots : ofSlots? s.slots = some s := by
  obtain ⟨hsize, hcolor⟩ := parts_faithful h
  simp only [ofSlots?, slots, hsize.reads, hcolor.reads, (Faithful.text s.font 0).required.reads,
    (Faithful.bool s.bold 0).required.reads, (Faithful.bool s.italic 0).required.reads,
    (Faithful.bool s.underline 0).required.reads, Option.bind_eq_bind, Option.bind_some,
    Option.pure_def]

theorem faithful : Faithful 1 ofJson? s.toJson s :=
  Value.faithful_record (by decide) rfl (slots_legible h) (ofSlots?_slots h)

end RunStyle

theorem ParagraphStyle.faithful {s : ParagraphStyle} (h : ∀ x ∈ s.scalars, x.Portable)
    (mode : Strictness) : Faithful 1 (ofJson? mode) s.toJson s := by
  simp only [scalars, List.forall_mem_cons] at h
  obtain ⟨hbefore, hafter, _⟩ := h
  have halignment := (s.alignment.faithful mode 0).required
  have hbefore := (hbefore.length 0).required
  have hafter := (hafter.length 0).required
  have hlevel := optional_uint8 s.outlineLevel 0
  refine Value.faithful_record (by decide) rfl ?_ ?_
  · simp only [List.forall_mem_cons]
    exact ⟨halignment.legible, hbefore.legible, hafter.legible, hlevel.legible,
      List.forall_mem_nil _⟩
  · simp only [halignment.reads, hbefore.reads, hafter.reads, hlevel.reads, Option.bind_eq_bind,
      Option.bind_some, Option.pure_def]

theorem EffectiveStyle.faithful {s : EffectiveStyle} (h : ∀ x ∈ s.scalars, x.Portable)
    (mode : Strictness) : Faithful 2 (ofJson? mode) s.toJson s := by
  rw [scalars, List.forall_mem_append] at h
  have hrun := (RunStyle.faithful h.1).required
  have hparagraph := (ParagraphStyle.faithful h.2 mode).required
  refine Value.faithful_record (by decide) rfl ?_ ?_
  · simp only [List.forall_mem_cons]
    exact ⟨hrun.legible, hparagraph.legible, List.forall_mem_nil _⟩
  · simp only [hrun.reads, hparagraph.reads, Option.bind_eq_bind, Option.bind_some,
      Option.pure_def]

end Folio

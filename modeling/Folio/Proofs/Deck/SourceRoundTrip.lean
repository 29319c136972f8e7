import Folio.Proofs.Deck.RoundTrip
import Folio.Proofs.Document.RoundTrip

/-!
# Reading written decks

A deck is read from its text as it was, whatever its slides show. Nothing in a deck stands inside
another thing of its kind, so the depth of its text is bounded once for all. The number in a
statement is that bound.
-/

namespace Folio

open Json

/-- The scalars of an outline. -/
def LineSpec.scalars (l : LineSpec) : List Scalar := .length l.widthPt :: l.color.scalars

/-- The scalars of a shape. -/
def ShapeSpec.scalars (s : ShapeSpec) : List Scalar :=
  Box.scalars s.frame ++ s.fill.toList.flatMap ColorRef.scalars ++
    s.line.toList.flatMap LineSpec.scalars

/-- The scalars of a frame of text. -/
def TextFrame.scalars (t : TextFrame) : List Scalar :=
  Box.scalars t.frame ++ t.overrides.scalars ++ t.runs.flatMap Run.scalars

/-- The scalars of paddings. -/
def Insets.scalars (p : Insets) : List Scalar :=
  [.length p.top, .length p.right, .length p.bottom, .length p.left]

/-- The scalars of what a slot shows. -/
def SlotContent.scalars : SlotContent → List Scalar
  | .shape _ fill => fill.toList.flatMap ColorRef.scalars
  | _ => []

/-- The scalars of where a slot lies. -/
def SlotPlacement.scalars : SlotPlacement → List Scalar
  | .flow marginTop => [.length marginTop]
  | .absolute x y => [.length x, .length y]

/-- The scalars of a slot. -/
def Slot.scalars (s : Slot) : List Scalar :=
  .length s.height :: s.content.scalars ++ s.placement.scalars ++ s.width.toList.map .length ++
    s.overrides.scalars

/-- The scalars of a connector. -/
def Connector.scalars (c : Connector) : List Scalar :=
  Box.scalars c.frame ++ c.fill.toList.flatMap ColorRef.scalars

/-- The scalars of a card. -/
def CardTemplate.scalars (card : CardTemplate) : List Scalar :=
  card.fill.toList.flatMap ColorRef.scalars ++ card.line.toList.flatMap LineSpec.scalars ++
    card.padding.scalars ++ card.slots.flatMap Slot.scalars ++
    card.connector.toList.flatMap Connector.scalars

/-- The scalars of the geometry of a grid. -/
def GridSpec.scalars (spec : GridSpec Float32) : List Scalar :=
  [.index spec.columns, .length spec.cellWidth, .length spec.cellHeight, .length spec.originX,
    .length spec.originY, .length spec.colGap, .length spec.rowGap]

/-- The scalars of a group of cards. -/
def GridGroup.scalars (g : GridGroup) : List Scalar :=
  g.items.map (fun item => .index item.index) ++ g.spec.scalars ++ g.card.scalars

/-- The scalars of an element. -/
def SlideElement.scalars : SlideElement → List Scalar
  | .text frame => frame.scalars
  | .shape spec => spec.scalars
  | .grid group => group.scalars

/-- The scalars of a slide. -/
def Slide.scalars (s : Slide) : List Scalar :=
  s.background.toList.flatMap ColorRef.scalars ++ s.elements.flatMap SlideElement.scalars

/-- All scalars of a deck. -/
def Deck.scalars (deck : Deck) : List Scalar := deck.slides.flatMap Slide.scalars

/-- A frame is read back from what is written for it. -/
theorem Box.faithful {f : Box} (h : ∀ x ∈ f.scalars, x.Portable) :
    Faithful 1 ofJson? (toJson f) f :=
  Value.faithful_record (by decide) rfl (slots_legible h 0) (ofSlots?_slots h)

/-- A line is read back from what is written for it, with its colour as it was referred to. -/
theorem LineSpec.faithful {l : LineSpec} (h : ∀ x ∈ l.scalars, x.Portable) :
    Faithful 2 ofJson? l.toJson l := by
  rw [scalars, List.forall_mem_cons] at h
  obtain ⟨hwidth, hcolor⟩ := h
  have hcolor := (ColorRef.faithful hcolor).required
  have hwidth := (hwidth.length 1).required
  refine Value.faithful_record (by decide) rfl ?_ ?_
  · simp only [List.forall_mem_cons]
    exact ⟨hcolor.legible, hwidth.legible, List.forall_mem_nil _⟩
  · simp only [hcolor.reads, hwidth.reads, Option.bind_eq_bind, Option.bind_some, Option.pure_def]

/-- An outline that may be left out. -/
theorem optional_lineSpec {line : Option LineSpec}
    (h : ∀ l ∈ line, ∀ x ∈ l.scalars, x.Portable) :
    FaithfulField 2 (Value.optional LineSpec.ofJson?) (line.map LineSpec.toJson) line := by
  have hnull (l : LineSpec) : l.toJson ≠ .null := nofun
  exact .optional (fun l hl => LineSpec.faithful (h l hl)) fun l _ => hnull l

namespace ShapeSpec

variable {s : ShapeSpec} (h : ∀ x ∈ s.scalars, x.Portable)

include h

/-- The parts of a shape are read back each from its own field. -/
theorem parts_faithful :
    FaithfulField 1 (Value.required Box.ofJson?) (some (Box.toJson s.frame)) s.frame ∧
      FaithfulField 1 (Value.optional ColorRef.ofJson?) (s.fill.map ColorRef.toJson) s.fill ∧
      FaithfulField 2 (Value.optional LineSpec.ofJson?) (s.line.map LineSpec.toJson) s.line := by
  rw [scalars, List.forall_mem_append, List.forall_mem_append] at h
  obtain ⟨⟨hframe, hfill⟩, hline⟩ := h
  simp only [List.forall_mem_flatMap, Option.mem_toList] at hline
  exact ⟨(Box.faithful hframe).required, optional_colorRef hfill 0, optional_lineSpec hline⟩

/-- What is written for a shape can be read. -/
theorem slots_legible : ∀ slot ∈ s.slots, ∀ v ∈ slot, v.Legible 2 := by
  obtain ⟨hframe, hfill, hline⟩ := parts_faithful h
  simp only [slots, List.forall_mem_cons]
  exact ⟨(hframe.mono (by decide)).legible, (s.kind.faithful .strict 2).forall_legible,
    (hfill.mono (by decide)).legible, hline.legible, List.forall_mem_nil _⟩

/-- A shape is read back from what is written for it. -/
theorem faithful (mode : Strictness) : Faithful 3 (ofJson? mode) s.toJson s := by
  obtain ⟨hframe, hfill, hline⟩ := parts_faithful h
  refine Value.faithful_record (by decide) rfl (slots_legible h) ?_
  simp only [slots, hframe.reads, (s.kind.faithful mode 2).required.reads, hfill.reads,
    hline.reads, Option.bind_eq_bind, Option.bind_some, Option.pure_def]

end ShapeSpec

namespace TextFrame

variable {t : TextFrame} (h : ∀ x ∈ t.scalars, x.Portable)

include h

/-- The parts of a text frame are read back each from its own field. -/
theorem parts_faithful (mode : Strictness) :
    FaithfulField 1 (Value.required Box.ofJson?) (some (Box.toJson t.frame)) t.frame ∧
      FaithfulField 3 (Value.orElse (StyleProperties.ofJson? mode) {}) t.overrides.slot
        t.overrides ∧
      FaithfulField 5 (Value.required (Value.list? (Run.ofJson? mode)))
        (some (.ofList Run.toJson t.runs)) t.runs := by
  rw [scalars, List.forall_mem_append, List.forall_mem_append, List.forall_mem_flatMap] at h
  obtain ⟨⟨hframe, hoverrides⟩, hruns⟩ := h
  have hruns := Faithful.list fun r hr => Run.faithful (hruns r hr) mode
  exact ⟨(Box.faithful hframe).required, StyleProperties.slot_faithful hoverrides mode,
    hruns.required⟩

/-- What is written for a text frame can be read. -/
theorem slots_legible : ∀ slot ∈ t.slots, ∀ v ∈ slot, v.Legible 5 := by
  obtain ⟨hframe, hoverrides, hruns⟩ := parts_faithful h .strict
  simp only [slots, List.forall_mem_cons]
  exact ⟨(hframe.mono (by decide)).legible, (optional_text t.styleId 5).legible,
    (hoverrides.mono (by decide)).legible, hruns.legible,
    (t.valign.faithful .strict 5).forall_legible, List.forall_mem_nil _⟩

/-- A text frame is read back from what is written for it. -/
theorem faithful (mode : Strictness) : Faithful 6 (ofJson? mode) t.toJson t := by
  obtain ⟨hframe, hoverrides, hruns⟩ := parts_faithful h mode
  refine Value.faithful_record (by decide) rfl (slots_legible h) ?_
  have hvalign := (t.valign.faithful mode 5).orElse .top
  simp only [slots, hframe.reads, (optional_text t.styleId 5).reads, hoverrides.reads,
    hruns.reads, hvalign.reads, Option.bind_eq_bind, Option.bind_some, Option.pure_def]

end TextFrame

/-- The padding of a card is read back from what is written for it. -/
theorem Insets.faithful {p : Insets} (h : ∀ x ∈ p.scalars, x.Portable) :
    Faithful 1 ofJson? p.toJson p := by
  simp only [scalars, List.forall_mem_cons] at h
  obtain ⟨htop, hright, hbottom, hleft, _⟩ := h
  have htop := (htop.length 0).required
  have hright := (hright.length 0).required
  have hbottom := (hbottom.length 0).required
  have hleft := (hleft.length 0).required
  refine Value.faithful_record (by decide) rfl ?_ ?_
  · simp only [List.forall_mem_cons]
    exact ⟨htop.legible, hright.legible, hbottom.legible, hleft.legible, List.forall_mem_nil _⟩
  · simp only [htop.reads, hright.reads, hbottom.reads, hleft.reads, Option.bind_eq_bind,
      Option.bind_some, Option.pure_def]

/-- The content of a slot is read back from what is written for it. -/
theorem SlotContent.faithful {c : SlotContent} (h : ∀ x ∈ c.scalars, x.Portable)
    (mode : Strictness) : Faithful 2 (ofJson? mode) c.toJson c := by
  cases c with
  | label =>
    obtain ⟨hlegible, hkind⟩ := Value.tagged_nil_parts "label" 1
    refine ⟨hlegible, ?_⟩
    simp only [ofJson?, toJson, hkind]
    rfl
  | field name =>
    have hname := (Faithful.text name 1).required
    obtain ⟨hlegible, hkind, hfields⟩ := Value.tagged_parts "field" ["name"]
      (List.forall_mem_singleton.mpr hname.legible) (by decide) rfl
    refine ⟨hlegible, ?_⟩
    simp only [ofJson?, toJson, hkind, hfields, hname.reads, Option.bind_eq_bind,
      Option.bind_some, Option.pure_def]
  | literal text =>
    have htext := (Faithful.text text 1).required
    obtain ⟨hlegible, hkind, hfields⟩ := Value.tagged_parts "literal" ["text"]
      (List.forall_mem_singleton.mpr htext.legible) (by decide) rfl
    refine ⟨hlegible, ?_⟩
    simp only [ofJson?, toJson, hkind, hfields, htext.reads, Option.bind_eq_bind,
      Option.bind_some, Option.pure_def]
  | template text =>
    have htext := (Faithful.text text 1).required
    obtain ⟨hlegible, hkind, hfields⟩ := Value.tagged_parts "template" ["text"]
      (List.forall_mem_singleton.mpr htext.legible) (by decide) rfl
    refine ⟨hlegible, ?_⟩
    simp only [ofJson?, toJson, hkind, hfields, htext.reads, Option.bind_eq_bind,
      Option.bind_some, Option.pure_def]
  | shape kind fill =>
    have hshape := (kind.faithful .lenient 1).required
    have hfill := optional_colorRef h 0
    have hslots : ∀ slot ∈ [some kind.toJson, fill.map ColorRef.toJson], ∀ v ∈ slot,
        v.Legible 1 := by
      simp only [List.forall_mem_cons]
      exact ⟨hshape.legible, hfill.legible, List.forall_mem_nil _⟩
    obtain ⟨hlegible, hkind, hfields⟩ :=
      Value.tagged_parts "shape" ["kind", "fill"] hslots (by decide) rfl
    refine ⟨hlegible, ?_⟩
    simp only [ofJson?, toJson, hkind, hfields, hshape.reads, hfill.reads, Option.bind_eq_bind,
      Option.bind_some, Option.pure_def]

/-- The place of a slot is read back from what is written for it. -/
theorem SlotPlacement.faithful {p : SlotPlacement} (h : ∀ x ∈ p.scalars, x.Portable)
    (mode : Strictness) : Faithful 1 (ofJson? mode) p.toJson p := by
  cases p with
  | flow marginTop =>
    have hmargin := ((List.forall_mem_singleton.mp h).length 0).orElse 0
    obtain ⟨hlegible, hkind, hfields⟩ := Value.tagged_parts "flow" ["margin_top"]
      (List.forall_mem_singleton.mpr hmargin.legible) (by decide) rfl
    refine ⟨hlegible, ?_⟩
    simp only [ofJson?, toJson, hkind, hfields, hmargin.reads, Option.bind_eq_bind,
      Option.bind_some, Option.pure_def]
  | absolute x y =>
    simp only [scalars, List.forall_mem_cons] at h
    have hx := (h.1.length 0).required
    have hy := (h.2.1.length 0).required
    have hslots : ∀ slot ∈ [some (Value.ofFloat32 x), some (.ofFloat32 y)], ∀ v ∈ slot,
        v.Legible 0 := by
      simp only [List.forall_mem_cons]
      exact ⟨hx.legible, hy.legible, List.forall_mem_nil _⟩
    obtain ⟨hlegible, hkind, hfields⟩ :=
      Value.tagged_parts "absolute" ["x", "y"] hslots (by decide) rfl
    refine ⟨hlegible, ?_⟩
    simp only [ofJson?, toJson, hkind, hfields, hx.reads, hy.reads, Option.bind_eq_bind,
      Option.bind_some, Option.pure_def]

/-- A slot is read back from what is written for it. -/
theorem Slot.faithful {s : Slot} (h : ∀ x ∈ s.scalars, x.Portable) (mode : Strictness) :
    Faithful 4 (ofJson? mode) s.toJson s := by
  simp only [scalars, List.cons_append, List.forall_mem_cons, List.forall_mem_append] at h
  obtain ⟨hheight, ⟨⟨hcontent, hplacement⟩, hwidth⟩, hoverrides⟩ := h
  have hcontent := ((SlotContent.faithful hcontent mode).mono (show 2 ≤ 3 by decide)).required
  have hplacement :=
    ((SlotPlacement.faithful hplacement mode).mono (show 1 ≤ 3 by decide)).required
  have hheight := (hheight.length 3).required
  have hwidth := optional_length hwidth 3
  have hstyle := optional_text s.styleId 3
  have hoverrides := StyleProperties.slot_faithful hoverrides mode
  have hvalign := (s.valign.faithful mode 3).orElse .top
  refine Value.faithful_record (by decide) rfl ?_ ?_
  · simp only [List.forall_mem_cons]
    exact ⟨hcontent.legible, hplacement.legible, hheight.legible, hwidth.legible, hstyle.legible,
      hoverrides.legible, hvalign.legible, List.forall_mem_nil _⟩
  · simp only [hcontent.reads, hplacement.reads, hheight.reads, hwidth.reads, hstyle.reads,
      hoverrides.reads, hvalign.reads, Option.bind_eq_bind, Option.bind_some, Option.pure_def]

/-- A connector is read back from what is written for it. -/
theorem Connector.faithful {c : Connector} (h : ∀ x ∈ c.scalars, x.Portable)
    (mode : Strictness) : Faithful 2 (ofJson? mode) c.toJson c := by
  rw [scalars, List.forall_mem_append] at h
  have hkind := (c.kind.faithful mode 1).required
  have hframe := (Box.faithful h.1).required
  have hfill := optional_colorRef h.2 0
  refine Value.faithful_record (by decide) rfl ?_ ?_
  · simp only [List.forall_mem_cons]
    exact ⟨hkind.legible, hframe.legible, hfill.legible, List.forall_mem_nil _⟩
  · simp only [hkind.reads, hframe.reads, hfill.reads, Option.bind_eq_bind, Option.bind_some,
      Option.pure_def]

/-- A card is read back from what is written for it. -/
theorem CardTemplate.faithful {card : CardTemplate} (h : ∀ x ∈ card.scalars, x.Portable)
    (mode : Strictness) : Faithful 6 (ofJson? mode) card.toJson card := by
  simp only [scalars, List.forall_mem_append] at h
  obtain ⟨⟨⟨⟨hfill, hline⟩, hpadding⟩, hslots⟩, hconnector⟩ := h
  simp only [List.forall_mem_flatMap, Option.mem_toList] at hline hslots hconnector
  have hshape : FaithfulField 5 (Value.optional (ShapeKind.ofJson? mode))
      (card.shape.map ShapeKind.toJson) card.shape :=
    .optional (fun k _ => k.faithful mode 5) nofun
  have hfill := optional_colorRef hfill 4
  have hfillField := optional_text card.fillField 5
  have hline := (optional_lineSpec hline).mono (show 2 ≤ 5 by decide)
  have hpadding := ((Insets.faithful hpadding).mono (show 1 ≤ 5 by decide)).orElse .zero
  have hslots := (Faithful.list fun s hs => Slot.faithful (hslots s hs) mode).orElse []
  have hnull (c : Connector) : c.toJson ≠ .null := nofun
  have hconnector : FaithfulField 5 (Value.optional (Connector.ofJson? mode))
      (card.connector.map Connector.toJson) card.connector :=
    .optional (fun c hc => (Connector.faithful (hconnector c hc) mode).mono (by decide))
      fun c _ => hnull c
  refine Value.faithful_record (by decide) rfl ?_ ?_
  · simp only [List.forall_mem_cons]
    exact ⟨hshape.legible, hfill.legible, hfillField.legible, hline.legible, hpadding.legible,
      hslots.legible, hconnector.legible, List.forall_mem_nil _⟩
  · simp only [hshape.reads, hfill.reads, hfillField.reads, hline.reads, hpadding.reads,
      hslots.reads, hconnector.reads, Option.bind_eq_bind, Option.bind_some, Option.pure_def]

/-- The measures of a grid are read back from what is written for them. -/
theorem GridSpec.faithful {spec : GridSpec Float32} (h : ∀ x ∈ spec.scalars, x.Portable) :
    Faithful 1 ofJson? spec.toJson spec := by
  simp only [scalars, List.forall_mem_cons] at h
  obtain ⟨hcolumns, hcellWidth, hcellHeight, horiginX, horiginY, hcolGap, hrowGap, _⟩ := h
  have hcolumns := (hcolumns.index 0).required
  have hcellWidth := (hcellWidth.length 0).required
  have hcellHeight := (hcellHeight.length 0).required
  have horiginX := (horiginX.length 0).required
  have horiginY := (horiginY.length 0).required
  have hcolGap := (hcolGap.length 0).orElse 0
  have hrowGap := (hrowGap.length 0).orElse 0
  refine Value.faithful_record (by decide) rfl ?_ ?_
  · simp only [List.forall_mem_cons]
    exact ⟨hcolumns.legible, hcellWidth.legible, hcellHeight.legible, horiginX.legible,
      horiginY.legible, hcolGap.legible, hrowGap.legible, List.forall_mem_nil _⟩
  · simp only [hcolumns.reads, hcellWidth.reads, hcellHeight.reads, horiginX.reads,
      horiginY.reads, hcolGap.reads, hrowGap.reads, Option.bind_eq_bind, Option.bind_some,
      Option.pure_def]

namespace GridGroup

variable {g : GridGroup} (h : ∀ x ∈ g.scalars, x.Portable)

include h

/-- The parts of a group are read back each from its own field. -/
theorem parts_faithful (mode : Strictness) :
    FaithfulField 3 (Value.required (Value.list? GridItem.ofJson?))
        (some (.ofList GridItem.toJson g.items)) g.items ∧
      FaithfulField 1 (Value.required GridSpec.ofJson?) (some g.spec.toJson) g.spec ∧
      FaithfulField 6 (Value.required (CardTemplate.ofJson? mode)) (some g.card.toJson)
        g.card := by
  simp only [scalars, List.forall_mem_append, List.forall_mem_map] at h
  obtain ⟨⟨hitems, hspec⟩, hcard⟩ := h
  have hitems := Faithful.list fun item hitem => GridItem.faithful (hitems item hitem)
  exact ⟨hitems.required, (GridSpec.faithful hspec).required,
    (CardTemplate.faithful hcard mode).required⟩

/-- What is written for a group can be read. -/
theorem slots_legible : ∀ slot ∈ g.slots, ∀ v ∈ slot, v.Legible 6 := by
  obtain ⟨hitems, hspec, hcard⟩ := parts_faithful h .strict
  simp only [slots, List.forall_mem_cons]
  exact ⟨(hitems.mono (by decide)).legible, (hspec.mono (by decide)).legible, hcard.legible,
    List.forall_mem_nil _⟩

/-- A group is read back from what is written for it. -/
theorem faithful (mode : Strictness) : Faithful 7 (ofJson? mode) g.toJson g := by
  obtain ⟨hitems, hspec, hcard⟩ := parts_faithful h mode
  refine Value.faithful_record (by decide) rfl (slots_legible h) ?_
  simp only [slots, hitems.reads, hspec.reads, hcard.reads, Option.bind_eq_bind,
    Option.bind_some, Option.pure_def]

end GridGroup

/-- The kind of an element stands beside its fields and is read before them. -/
theorem SlideElement.faithful {e : SlideElement} (h : ∀ x ∈ e.scalars, x.Portable) :
    Faithful 7 ofJson? e.toJson e := by
  cases e with
  | text frame =>
    obtain ⟨hlegible, hkind, _⟩ := Value.tagged_parts "text" TextFrame.fields
      (TextFrame.slots_legible h) (by decide) rfl
    have hread : TextFrame.ofJson? .lenient (.record TextFrame.fields frame.slots) = some frame :=
      (TextFrame.faithful h .lenient).reads
    refine ⟨hlegible.mono (by decide), ?_⟩
    simp only [ofJson?, toJson, hkind, hread, Option.map_some]
  | shape spec =>
    obtain ⟨hlegible, hkind, _⟩ := Value.tagged_parts "shape" ShapeSpec.fields
      (ShapeSpec.slots_legible h) (by decide) rfl
    have hread : ShapeSpec.ofJson? .lenient (.record ShapeSpec.fields spec.slots) = some spec :=
      (ShapeSpec.faithful h .lenient).reads
    refine ⟨hlegible.mono (by decide), ?_⟩
    simp only [ofJson?, toJson, hkind, hread, Option.map_some]
  | grid group =>
    obtain ⟨hlegible, hkind, _⟩ := Value.tagged_parts "grid" GridGroup.fields
      (GridGroup.slots_legible h) (by decide) rfl
    have hread : GridGroup.ofJson? .lenient (.record GridGroup.fields group.slots) = some group :=
      (GridGroup.faithful h .lenient).reads
    refine ⟨hlegible, ?_⟩
    simp only [ofJson?, toJson, hkind, hread, Option.map_some]

/-- A slide is read back from what is written for it. -/
theorem Slide.faithful {s : Slide} (h : ∀ x ∈ s.scalars, x.Portable) :
    Faithful 9 ofJson? s.toJson s := by
  rw [scalars, List.forall_mem_append] at h
  obtain ⟨hbackground, helements⟩ := h
  rw [List.forall_mem_flatMap] at helements
  have hbackground := optional_colorRef hbackground 7
  have helements := (Faithful.list fun e he => SlideElement.faithful (helements e he)).orElse []
  refine Value.faithful_record (by decide) rfl ?_ ?_
  · simp only [List.forall_mem_cons]
    exact ⟨hbackground.legible, helements.legible, List.forall_mem_nil _⟩
  · simp only [hbackground.reads, helements.reads, Option.bind_eq_bind, Option.bind_some,
      Option.pure_def]

/-- A deck is faithful within the depth that every deck keeps. -/
theorem Deck.faithful {deck : Deck} (h : ∀ x ∈ deck.scalars, x.Portable) :
    Faithful 11 ofJson? deck.toJson deck := by
  rw [scalars, List.forall_mem_flatMap] at h
  have htitle := (Faithful.text deck.title 10).required
  have hslides := (Faithful.list fun s hs => Slide.faithful (h s hs)).required
  refine Value.faithful_record (by decide) rfl ?_ ?_
  · simp only [List.forall_mem_cons]
    exact ⟨htitle.legible, hslides.legible, List.forall_mem_nil _⟩
  · simp only [htitle.reads, hslides.reads, Option.bind_eq_bind, Option.bind_some,
      Option.pure_def]

end Folio

import Folio.Packaging
import Folio.Proofs.Style.RoundTrip

/-!
# Reading packaged decks

A placed deck is read from its text as it was, part by part: each part stands faithfully for itself
when its scalars do. Scalars are what is not written as it is: lengths become decimals, colours
digits and positions numerals. Texts may hold any characters. The number in a statement bounds how
deep the part nests. Main statement: `PlacedDeck.parse_package`.
-/

namespace Folio

open Json

/-- The scalars of a frame. -/
def Box.scalars (f : Box) : List Scalar := [.length f.x, .length f.y, .length f.w, .length f.h]

/-- The scalars of a text span. -/
def TextSpan.scalars (s : TextSpan) : List Scalar := [.length s.style.sizePt, .color s.style.color]

/-- The scalars of the text of a shape. -/
def PlacedText.scalars (t : PlacedText) : List Scalar := t.runs.flatMap TextSpan.scalars

/-- The scalars of an outline. -/
def LineStyle.scalars (l : LineStyle) : List Scalar := [.color l.color, .length l.widthPt]

/-- The scalars of a shape. -/
def PlacedShape.scalars (s : PlacedShape) : List Scalar :=
  Box.scalars s.frame ++ s.fill.toList.map .color ++ s.line.toList.flatMap LineStyle.scalars ++
    s.text.toList.flatMap PlacedText.scalars

/-- The scalars of a card, those of its item and its cell first. -/
def PlacedCard.scalars (c : PlacedCard) : List Scalar :=
  .index c.item.item.index :: Box.scalars c.item.frame ++ c.shapes.flatMap PlacedShape.scalars

/-- The scalars of a group of cards. -/
def PlacedGroup.scalars (g : PlacedGroup) : List Scalar :=
  g.cards.flatMap PlacedCard.scalars ++ g.connectors.flatMap PlacedShape.scalars

/-- The scalars of an element. -/
def PlacedElement.scalars : PlacedElement → List Scalar
  | .shape s => s.scalars
  | .group g => g.scalars

/-- The scalars of a slide. -/
def PlacedSlide.scalars (s : PlacedSlide) : List Scalar :=
  .index s.index :: s.background.toList.map .color ++ s.elements.flatMap PlacedElement.scalars

/-- All scalars of a deck. -/
def PlacedDeck.scalars (deck : PlacedDeck) : List Scalar :=
  .length deck.width :: .length deck.height :: deck.slides.flatMap PlacedSlide.scalars

/-- A kind of shape is read back from its name. -/
theorem ShapeKind.faithful (k : ShapeKind) (mode : Strictness) (limit : Nat) :
    Faithful limit (ofJson? mode) k.toJson k :=
  ⟨.text k.name, by cases k <;> rfl⟩

/-- A vertical alignment is read back from its name. -/
theorem VerticalAlign.faithful (a : VerticalAlign) (mode : Strictness) (limit : Nat) :
    Faithful limit (ofJson? mode) a.toJson a :=
  ⟨.text a.name, by cases a <;> rfl⟩

namespace Box

variable {f : Box}

/-- What is written for a span can be read. -/
theorem slots_legible (h : ∀ x ∈ f.scalars, x.Portable) (limit : Nat) :
    ∀ slot ∈ slots f, ∀ v ∈ slot, v.Legible limit := by
  simp only [scalars, List.forall_mem_cons] at h
  obtain ⟨hx, hy, hw, hh, _⟩ := h
  simp only [slots, List.forall_mem_cons]
  exact ⟨(hx.length limit).forall_legible, (hy.length limit).forall_legible,
    (hw.length limit).forall_legible, (hh.length limit).forall_legible, List.forall_mem_nil _⟩

/-- A span is read back from its fields. -/
theorem ofSlots?_slots (h : ∀ x ∈ f.scalars, x.Portable) : ofSlots? (slots f) = some f := by
  simp only [scalars, List.forall_mem_cons] at h
  obtain ⟨hx, hy, hw, hh, _⟩ := h
  simp only [ofSlots?, slots, (hx.length 0).required.reads, (hy.length 0).required.reads,
    (hw.length 0).required.reads, (hh.length 0).required.reads, Option.bind_eq_bind,
    Option.bind_some, Option.pure_def]

end Box

/-- The properties in effect stand beside the text. -/
theorem TextSpan.faithful {t : TextSpan} (h : ∀ x ∈ t.scalars, x.Portable) :
    Faithful 1 ofJson? t.toJson t := by
  have htext := (Faithful.text t.text 0).required
  have hstyle : ∀ x ∈ t.style.scalars, x.Portable := h
  have hlegible : t.toJson.Legible 1 :=
    .record (List.forall_mem_cons.mpr ⟨htext.legible, RunStyle.slots_legible hstyle⟩)
  refine ⟨hlegible, ?_⟩
  have hslots : t.toJson.slots? fields = some (some (.text t.text) :: t.style.slots) :=
    Value.slots?_record (by decide) rfl
  unfold toJson Value.record at hlegible hslots ⊢
  simp only [ofJson?, hlegible.isReadable, hslots, htext.reads, RunStyle.ofSlots?_slots hstyle,
    Bool.not_true, Bool.false_eq_true, ite_false, Option.bind_eq_bind, Option.bind_some,
    Option.pure_def]

/-- A line is read back from what is written for it. -/
theorem LineStyle.faithful {l : LineStyle} (h : ∀ x ∈ l.scalars, x.Portable) :
    Faithful 1 ofJson? l.toJson l := by
  simp only [scalars, List.forall_mem_cons] at h
  obtain ⟨hcolor, hwidth, _⟩ := h
  have hcolor := (hcolor.color 0).required
  have hwidth := (hwidth.length 0).required
  refine Value.faithful_record (by decide) rfl ?_ ?_
  · simp only [List.forall_mem_cons]
    exact ⟨hcolor.legible, hwidth.legible, List.forall_mem_nil _⟩
  · simp only [hcolor.reads, hwidth.reads, Option.bind_eq_bind, Option.bind_some, Option.pure_def]

/-- A placed text is read back from what is written for it. -/
theorem PlacedText.faithful {t : PlacedText} (h : ∀ x ∈ t.scalars, x.Portable)
    (mode : Strictness) : Faithful 3 (ofJson? mode) t.toJson t := by
  rw [scalars, List.forall_mem_flatMap] at h
  have hruns := (Faithful.list fun s hs => TextSpan.faithful (h s hs)).required
  have halign := (t.align.faithful mode 2).required
  have hvalign := (t.valign.faithful mode 2).required
  refine Value.faithful_record (by decide) rfl ?_ ?_
  · simp only [List.forall_mem_cons]
    exact ⟨hruns.legible, halign.legible, hvalign.legible, List.forall_mem_nil _⟩
  · simp only [hruns.reads, halign.reads, hvalign.reads, Option.bind_eq_bind, Option.bind_some,
      Option.pure_def]

namespace PlacedShape

variable {s : PlacedShape} (h : ∀ x ∈ s.scalars, x.Portable)

include h

/-- The parts of a placed shape are read back each from its own field. -/
theorem parts_faithful (mode : Strictness) :
    (∀ x ∈ Box.scalars s.frame, x.Portable) ∧
      FaithfulField 3 (Value.required (ShapeKind.ofJson? mode)) (some s.kind.toJson) s.kind ∧
      FaithfulField 3 (Value.optional Color.ofJson?) (s.fill.map Color.toJson) s.fill ∧
      FaithfulField 3 (Value.optional LineStyle.ofJson?) (s.line.map LineStyle.toJson) s.line ∧
      FaithfulField 3 (Value.optional (PlacedText.ofJson? mode)) (s.text.map PlacedText.toJson)
        s.text := by
  simp only [scalars, List.forall_mem_append, List.forall_mem_map, List.forall_mem_flatMap,
    Option.mem_toList] at h
  obtain ⟨⟨⟨hframe, hfill⟩, hline⟩, htext⟩ := h
  refine ⟨hframe, (s.kind.faithful mode 3).required, ?_, ?_, ?_⟩
  · exact .optional (fun c hc => (hfill c hc).color 3) nofun
  · exact .optional (fun l hl => (LineStyle.faithful (hline l hl)).mono (by decide)) nofun
  · exact .optional (fun t ht => PlacedText.faithful (htext t ht) mode) nofun

/-- What is written for a placed shape can be read. -/
theorem slots_legible : ∀ slot ∈ s.slots, ∀ v ∈ slot, v.Legible 3 := by
  obtain ⟨hframe, hkind, hfill, hline, htext⟩ := parts_faithful h .strict
  rw [slots, List.forall_mem_append]
  simp only [List.forall_mem_cons]
  exact ⟨Box.slots_legible hframe 3, hkind.legible, hfill.legible, hline.legible, htext.legible,
    List.forall_mem_nil _⟩

/-- A placed shape is read back from what is written for it. -/
theorem faithful (mode : Strictness) : Faithful 4 (ofJson? mode) s.toJson s := by
  obtain ⟨hframe, hkind, hfill, hline, htext⟩ := parts_faithful h mode
  refine Value.faithful_record (by decide) rfl (slots_legible h) ?_
  have hread := Box.ofSlots?_slots hframe
  simp only [slots, Box.slots, List.cons_append, List.nil_append] at hread ⊢
  simp only [hread, hkind.reads, hfill.reads, hline.reads, htext.reads, Option.bind_eq_bind,
    Option.bind_some, Option.pure_def]

end PlacedShape

/-- An item is read back from what is written for it. -/
theorem GridItem.faithful {item : GridItem} (h : (Scalar.index item.index).Portable) :
    Faithful 2 ofJson? item.toJson item := by
  have hindex := (h.index 1).required
  have hlabel := (Faithful.text item.label 1).required
  have hfields : FaithfulField 1 (Value.orElse (Value.dict? Value.text?) .empty)
      (Value.onlyIf (!item.fields.isEmpty) (.ofDict .text item.fields)) item.fields := by
    refine (Faithful.dict fun a => Faithful.text a 0).onlyIf fun hempty => ?_
    exact Dict.isEmpty_iff.mp (Bool.not_eq_eq_eq_not.mp hempty)
  refine Value.faithful_record (by decide) rfl ?_ ?_
  · simp only [List.forall_mem_cons]
    exact ⟨hindex.legible, hlabel.legible, hfields.legible, List.forall_mem_nil _⟩
  · simp only [hindex.reads, hlabel.reads, hfields.reads, Option.bind_eq_bind, Option.bind_some,
      Option.pure_def]

/-- What is placed is read back with its frame if it is read back itself. -/
theorem Placed.faithful {α : Type} {read : Value → Option α} {write : α → Value} {p : Placed α}
    {limit : Nat} (hitem : Faithful limit read (write p.item) p.item)
    (hframe : ∀ x ∈ Box.scalars p.frame, x.Portable) :
    Faithful (limit + 1) (ofJson? read) (toJson write p) p := by
  refine Value.faithful_record (by decide) rfl ?_ ?_
  · exact List.forall_mem_cons.mpr ⟨hitem.forall_legible, Box.slots_legible hframe limit⟩
  · simp only [hitem.required.reads, Box.ofSlots?_slots hframe, Option.bind_eq_bind,
      Option.bind_some, Option.pure_def]

/-- A placed card is read back from what is written for it. -/
theorem PlacedCard.faithful {c : PlacedCard} (h : ∀ x ∈ c.scalars, x.Portable)
    (mode : Strictness) : Faithful 6 (ofJson? mode) c.toJson c := by
  simp only [scalars, List.cons_append, List.forall_mem_cons, List.forall_mem_append,
    List.forall_mem_flatMap] at h
  obtain ⟨hindex, hframe, hshapes⟩ := h
  have hitem := ((Placed.faithful (GridItem.faithful hindex) hframe).mono
    (show 3 ≤ 5 by decide)).required
  have hshapes := (Faithful.list fun s hs => PlacedShape.faithful (hshapes s hs) mode).required
  refine Value.faithful_record (by decide) rfl ?_ ?_
  · simp only [List.forall_mem_cons]
    exact ⟨hitem.legible, hshapes.legible, List.forall_mem_nil _⟩
  · simp only [hitem.reads, hshapes.reads, Option.bind_eq_bind, Option.bind_some, Option.pure_def]

namespace PlacedGroup

variable {g : PlacedGroup} (h : ∀ x ∈ g.scalars, x.Portable)

include h

/-- The cards and connectors of a placed group are read back from their fields. -/
theorem parts_faithful (mode : Strictness) :
    FaithfulField 7 (Value.required (Value.list? (PlacedCard.ofJson? mode)))
        (some (.ofList PlacedCard.toJson g.cards)) g.cards ∧
      FaithfulField 7 (Value.orElse (Value.list? (PlacedShape.ofJson? mode)) [])
        (Value.onlyIf (!g.connectors.isEmpty) (.ofList PlacedShape.toJson g.connectors))
        g.connectors := by
  simp only [scalars, List.forall_mem_append, List.forall_mem_flatMap] at h
  obtain ⟨hcards, hconnectors⟩ := h
  constructor
  · exact (Faithful.list fun c hc => PlacedCard.faithful (hcards c hc) mode).required
  · have hlist := Faithful.list fun s hs => PlacedShape.faithful (hconnectors s hs) mode
    refine (hlist.mono (by decide)).onlyIf fun hempty => ?_
    exact List.isEmpty_iff.mp (Bool.not_eq_eq_eq_not.mp hempty)

/-- What is written for a placed group can be read. -/
theorem slots_legible : ∀ slot ∈ g.slots, ∀ v ∈ slot, v.Legible 7 := by
  obtain ⟨hcards, hconnectors⟩ := parts_faithful h .strict
  simp only [slots, List.forall_mem_cons]
  exact ⟨hcards.legible, hconnectors.legible, List.forall_mem_nil _⟩

/-- A placed group is read back from what is written for it. -/
theorem faithful (mode : Strictness) : Faithful 8 (ofJson? mode) g.toJson g := by
  obtain ⟨hcards, hconnectors⟩ := parts_faithful h mode
  refine Value.faithful_record (by decide) rfl (slots_legible h) ?_
  simp only [slots, hcards.reads, hconnectors.reads, Option.bind_eq_bind, Option.bind_some,
    Option.pure_def]

end PlacedGroup

/-- The kind of an element stands beside its fields and is read before them. -/
theorem PlacedElement.faithful {e : PlacedElement} (h : ∀ x ∈ e.scalars, x.Portable) :
    Faithful 8 ofJson? e.toJson e := by
  cases e with
  | shape s =>
    have hslots := PlacedShape.slots_legible h
    refine ⟨(Value.Legible.tagged hslots).mono (by decide), ?_⟩
    have hkind : (Value.tagged "shape" PlacedShape.fields s.slots).tagged? .strict kinds =
        some ("shape", .record PlacedShape.fields s.slots) :=
      Value.tagged?_tagged hslots (by decide) .strict kinds
    have hread : PlacedShape.ofJson? .lenient (.record PlacedShape.fields s.slots) = some s :=
      (PlacedShape.faithful h .lenient).reads
    simp only [ofJson?, toJson, hkind, hread, Option.map_some]
  | group g =>
    have hslots := PlacedGroup.slots_legible h
    refine ⟨.tagged hslots, ?_⟩
    have hkind : (Value.tagged "group" PlacedGroup.fields g.slots).tagged? .strict kinds =
        some ("group", .record PlacedGroup.fields g.slots) :=
      Value.tagged?_tagged hslots (by decide) .strict kinds
    have hread : PlacedGroup.ofJson? .lenient (.record PlacedGroup.fields g.slots) = some g :=
      (PlacedGroup.faithful h .lenient).reads
    simp only [ofJson?, toJson, hkind, hread, Option.map_some]

/-- A placed slide is read back from what is written for it. -/
theorem PlacedSlide.faithful {s : PlacedSlide} (h : ∀ x ∈ s.scalars, x.Portable) :
    Faithful 10 ofJson? s.toJson s := by
  simp only [scalars, List.cons_append, List.forall_mem_cons, List.forall_mem_append,
    List.forall_mem_map, List.forall_mem_flatMap, Option.mem_toList] at h
  obtain ⟨hindex, hbackground, helements⟩ := h
  have hindex := (hindex.index 9).required
  have hbackground : FaithfulField 9 (Value.optional Color.ofJson?)
      (s.background.map Color.toJson) s.background :=
    .optional (fun c hc => (hbackground c hc).color 9) nofun
  have helements := (Faithful.list fun e he => PlacedElement.faithful (helements e he)).required
  refine Value.faithful_record (by decide) rfl ?_ ?_
  · simp only [List.forall_mem_cons]
    exact ⟨hindex.legible, hbackground.legible, helements.legible, List.forall_mem_nil _⟩
  · simp only [hindex.reads, hbackground.reads, helements.reads, Option.bind_eq_bind,
      Option.bind_some, Option.pure_def]

namespace PlacedDeck

/-- A placed deck is read back from what is written for it. -/
theorem faithful {deck : PlacedDeck} (h : ∀ x ∈ deck.scalars, x.Portable) :
    Faithful 12 ofJson? deck.toJson deck := by
  simp only [scalars, List.forall_mem_cons, List.forall_mem_flatMap] at h
  obtain ⟨hwidth, hheight, hslides⟩ := h
  have htitle := (Faithful.text deck.title 11).orElse untitledDeck
  have hwidth := (hwidth.length 11).required
  have hheight := (hheight.length 11).required
  have hslides := (Faithful.list fun s hs => PlacedSlide.faithful (hslides s hs)).required
  refine Value.faithful_record (by decide) rfl ?_ ?_
  · simp only [List.forall_mem_cons]
    exact ⟨htitle.legible, hwidth.legible, hheight.legible, hslides.legible,
      List.forall_mem_nil _⟩
  · simp only [htitle.reads, hwidth.reads, hheight.reads, hslides.reads, Option.bind_eq_bind,
      Option.bind_some, Option.pure_def]

/-- Whichever way a deck is spaced, it is read from its text as it was, if its lengths are finite
and read from their numerals as they were, its colours are colours of texts, and its positions fit
into a machine word. -/
theorem parse_package (deck : PlacedDeck) (spacing : Spacing)
    (hfinite : ∀ x, .length x ∈ deck.scalars → x.isFinite = true)
    (hback : ∀ x, .length x ∈ deck.scalars → ReadsBack x)
    (hcolors : ∀ c, .color c ∈ deck.scalars → ∃ text, Color.ofHex? text = some c)
    (hindices : ∀ i, .index i ∈ deck.scalars → i < UInt64.size) :
    parse (deck.package spacing) = .ok deck := by
  have hportable : ∀ x ∈ deck.scalars, x.Portable := by
    rintro (x | c | i) hmem
    · exact ⟨hfinite x hmem, hback x hmem⟩
    · exact hcolors c hmem
    · exact hindices i hmem
  obtain ⟨hlegible, hread⟩ := faithful hportable
  unfold parse package
  rw [(hlegible.mono (by decide)).parse?_print, Option.bind_some, hread]

/-- A slide with an outlined note in a script of its own, and a card whose item has a value. -/
def noted : PlacedDeck :=
  let style : RunStyle := {
    font := "Serif", sizePt := 10.5, bold := true, italic := false, underline := false
    color := Color.ofBytes 17 34 51 128 }
  let note : PlacedShape := {
    frame := ⟨0.1, -2.75, 3, 1e-7⟩, kind := .roundedRectangle
    line := some ⟨.black, 0.7⟩
    text := some {
      runs := [⟨"\"Ωμέγα\"\n\x01\\ 𝄞", style⟩], align := .justify, valign := .middle } }
  let item : GridItem := GridItem.field { index := 7, label := "Ann" } "kind" ""
  let card : PlacedCard := ⟨⟨item, ⟨0, 0, 1, 1⟩⟩, [note]⟩
  let arrow : PlacedShape := {
    frame := ⟨1, 0.25, 0.5, 0.5⟩, kind := .rightArrow, fill := some .white }
  { title := "", width := 10, height := 5.625
    slides := [{
      index := 0
      background := some (Color.ofSolidBytes 255 170 0)
      elements := [.shape note, .group ⟨[card], [arrow]⟩, .group ⟨[], []⟩] }] }

/-- Translucent ink, odd characters and lengths without a finite binary expansion survive. -/
theorem parse_package_noted :
    (∀ x ∈ noted.scalars, x.Portable) ∧ parse (noted.package .pretty) = .ok noted ∧
      parse (noted.package .compact) = .ok noted := by
  have hportable : ∀ x ∈ noted.scalars, x.Portable := by decide +kernel
  have hparse (spacing : Spacing) : parse (noted.package spacing) = .ok noted :=
    parse_package noted spacing (fun x hx => (hportable (.length x) hx).1)
      (fun x hx => (hportable (.length x) hx).2) (fun c hc => hportable (.color c) hc)
      (fun i hi => hportable (.index i) hi)
  exact ⟨hportable, hparse .pretty, hparse .compact⟩

end PlacedDeck

end Folio

import Folio.Document.Styling
import Folio.Proofs.Deck.Demands
import Folio.Proofs.Alike

/-!
# Locality of styles

A build looks up the styles that a document or a deck names, those that tables of contents look for,
and the styles that these are based on. Two stylesheets that hold the same there, and have the same
defaults, build the same, whatever else they hold. Main statement: `Stylesheet.build_local`.
-/

namespace Folio

namespace Stylesheet

/-- Following parents from one id comes to another, which need not be registered. -/
def LeadsTo (sheet : Stylesheet) (id p : String) : Prop :=
  ∃ path, Ascends sheet.styles (some id) path (some p)

/-- Wherever an id leads in one stylesheet, to itself first of all, the other holds the same style
or both hold none. -/
def SameFrom (sheet other : Stylesheet) (id : String) : Prop :=
  ∀ p, sheet.LeadsTo id p → sheet.get? p = other.get? p

/-- The stylesheet with a style under its id, in place of the one that may have been there. -/
def put (sheet : Stylesheet) (d : StyleDefinition) : Stylesheet :=
  { sheet with styles := sheet.styles.insert d.id d }

variable {sheet other : Stylesheet} {id : String}

/-- Climbing looks up only the ids that parents lead to. -/
theorem climb_congr {styles styles' : Dict StyleDefinition} {passed : List String}
    {start : Option String}
    (h : ∀ path p, Ascends styles start path (some p) → styles.get? p = styles'.get? p) :
    climb styles passed start = climb styles' passed start := by
  fun_induction climb styles passed start with
  | case1 => rw [climb]
  | case2 passed id hp => rw [climb, dif_pos hp]
  | case3 passed id hp hnone =>
    have hnone' := (h [] id (.here _)).symm.trans hnone
    rw [climb, dif_neg hp]
    split
    · rfl
    · rename_i d hd
      rw [hnone'] at hd
      cases hd
  | case4 passed id hp d hd ih =>
    have hd' := (h [] id (.here _)).symm.trans hd
    rw [climb, dif_neg hp]
    split
    · rename_i hnone
      rw [hnone] at hd'
      cases hd'
    · rename_i e he
      rw [he] at hd'
      cases hd'
      rw [ih fun path p hup => h (d :: path) p (.up hd hup)]

namespace SameFrom

variable (h : sheet.SameFrom other id)

include h

/-- The style itself is the same. -/
theorem get?_eq : sheet.get? id = other.get? id := h id ⟨[], .here _⟩

/-- It is registered in both stylesheets or in neither. -/
theorem registered?_eq : sheet.registered? id = other.registered? id := by
  have hget : sheet.styles.get? id = other.styles.get? id := h.get?_eq
  unfold registered? contains Dict.contains
  rw [hget]

/-- The chain of the style is the same. -/
theorem chain_eq : sheet.chain id = other.chain id := by
  unfold chain
  rw [climb_congr fun path p hup => h p ⟨path, hup⟩]

/-- What the style declares is the same. -/
theorem declared_eq : sheet.declared id = other.declared id := by
  unfold declared
  rw [h.chain_eq]

end SameFrom

/-- A style changes nothing for ids that do not lead to its own. -/
theorem sameFrom_put {d : StyleDefinition} (h : ¬sheet.LeadsTo id d.id) :
    sheet.SameFrom (sheet.put d) id := by
  intro p hp
  have hne : p ≠ d.id := by
    rintro rfl
    exact h hp
  show sheet.styles.get? p = (sheet.styles.insert d.id d).get? p
  rw [Dict.get?_insert, if_neg hne]

end Stylesheet

/-- The id of a reference to a style. -/
def Reference.styleId? : Reference → Option String
  | style id => some id
  | role _ _ => none

/-- The styles that tables of contents look for: that of their titles, and those of the levels of an
outline. -/
def tocStyleIds (outline : List OutlineEntry) : List String :=
  tocTitleStyleId :: outline.map fun e => tocStyleId e.level

/-- The styles that a document names, and those that its tables of contents look for. -/
def Document.styleIds (doc : Document) : List String :=
  tocStyleIds doc.outline ++ doc.references.filterMap Reference.styleId?

/-- The styles that an element of a slide names. -/
def SlideElement.styleIds : SlideElement → List String
  | .text frame => frame.references.filterMap Reference.styleId?
  | .shape _ => []
  | .grid group => group.card.slots.filterMap (·.styleId)

/-- The styles that a deck names. -/
def Deck.styleIds (deck : Deck) : List String :=
  deck.slides.flatMap fun s => s.elements.flatMap SlideElement.styleIds

theorem Reference.mem_filterMap_styleId?_iff {refs : List Reference} {id : String} :
    id ∈ refs.filterMap styleId? ↔ .style id ∈ refs := by
  rw [List.mem_filterMap]
  constructor
  · rintro ⟨ref, href, hid⟩
    cases ref with
    | style id' =>
      cases hid
      exact href
    | role kind name => cases hid
  · intro hmem
    exact ⟨_, hmem, rfl⟩

variable {theme : Theme} {sheet other : Stylesheet}

/-- What a list of references names is the same in two stylesheets. -/
def SameAt (sheet other : Stylesheet) (refs : List Reference) : Prop :=
  ∀ id, .style id ∈ refs → sheet.SameFrom other id

theorem SameAt.append {refs refs' : List Reference} (h : SameAt sheet other (refs ++ refs')) :
    SameAt sheet other refs ∧ SameAt sheet other refs' :=
  ⟨fun id hid => h id (List.mem_append_left _ hid),
    fun id hid => h id (List.mem_append_right _ hid)⟩

theorem SameAt.of_mem_flatMap {α : Type} {refs : α → List Reference} {xs : List α}
    (h : SameAt sheet other (xs.flatMap refs)) {a : α} (ha : a ∈ xs) :
    SameAt sheet other (refs a) :=
  fun id hid => h id (List.mem_flatMap.mpr ⟨a, ha, hid⟩)

/-- An element that names a style only if that is registered. -/
theorem Stylesheet.SameFrom.sameAt_registered? {id : String} (h : sheet.SameFrom other id) :
    SameAt sheet other (styleReferences (other.registered? id)) := by
  intro used hused
  unfold registered? at hused
  split at hused
  · cases List.mem_singleton.mp hused
    exact h
  · cases hused

namespace Styling

/-- What is declared depends on the style that is named. -/
theorem declared_local {styleId : Option String} (h : SameAt sheet other (styleReferences styleId))
    (overrides : StyleProperties) :
    declared ⟨theme, sheet⟩ styleId overrides = declared ⟨theme, other⟩ styleId overrides := by
  cases styleId with
  | none => rfl
  | some id =>
    have hid : sheet.SameFrom other id := h id (List.mem_singleton_self _)
    unfold declared
    dsimp only
    rw [hid.declared_eq]

variable (hdefaults : sheet.defaults = other.defaults)

include hdefaults

/-- Of a stylesheet, settling uses the defaults alone. -/
theorem settle_local (p : StyleProperties) :
    settle ⟨theme, sheet⟩ p = settle ⟨theme, other⟩ p := by
  unfold settle
  dsimp only
  rw [hdefaults]

/-- What a run resolves to depends on its own style alone. -/
theorem resolveRun_local {styleId : Option String}
    (h : SameAt sheet other (styleReferences styleId)) (around overrides : StyleProperties) :
    resolveRun ⟨theme, sheet⟩ around styleId overrides =
      resolveRun ⟨theme, other⟩ around styleId overrides := by
  unfold resolveRun
  rw [declared_local h]
  exact bind_congr fun own => settle_local hdefaults (own.above around)

end Styling

section

variable (hdefaults : sheet.defaults = other.defaults)

include hdefaults

/-- The styling of a run depends on the style that it names. -/
theorem Run.styled_local {r : Run} (h : SameAt sheet other r.references) (around : Surroundings) :
    r.styled ⟨theme, sheet⟩ around = r.styled ⟨theme, other⟩ around := by
  unfold styled
  rw [Styling.resolveRun_local hdefaults h.append.1]

/-- The styling of a paragraph depends on the styles that it names. -/
theorem Paragraph.styled_local {p : Paragraph} (h : SameAt sheet other p.references)
    (around : Surroundings) :
    p.styled ⟨theme, sheet⟩ around = p.styled ⟨theme, other⟩ around := by
  obtain ⟨hown, hruns⟩ := h.append
  unfold styled
  rw [Styling.declared_local hown.append.1]
  refine bind_congr fun own => ?_
  rw [Styling.settle_local hdefaults]
  have hstyled : ∀ r ∈ p.runs, Run.styled ⟨theme, sheet⟩ (own.above around) r =
      Run.styled ⟨theme, other⟩ (own.above around) r :=
    fun r hr => Run.styled_local hdefaults (hruns.of_mem_flatMap hr) _
  rw [mapM_congr_of_mem hstyled]

namespace TocRequest

/-- The title of a table of contents depends on one style. -/
theorem titleParagraph_styled_local (h : sheet.SameFrom other tocTitleStyleId) (text : String)
    (around : Surroundings) :
    (titleParagraph ⟨theme, sheet⟩ text).styled ⟨theme, sheet⟩ around =
      (titleParagraph ⟨theme, other⟩ text).styled ⟨theme, other⟩ around := by
  have htitle : titleParagraph ⟨theme, sheet⟩ text = titleParagraph ⟨theme, other⟩ text := by
    unfold titleParagraph
    dsimp only
    rw [h.registered?_eq]
  rw [htitle]
  -- the run of a title names nothing
  have hreferences : (titleParagraph ⟨theme, other⟩ text).references =
      styleReferences (other.registered? tocTitleStyleId) ++ [] ++ [] := rfl
  refine Paragraph.styled_local hdefaults ?_ around
  rw [hreferences, List.append_nil, List.append_nil]
  exact h.sameAt_registered?

/-- An entry of a table of contents depends on the style of its level. -/
theorem entry_local {e : OutlineEntry} (h : sheet.SameFrom other (tocStyleId e.level)) :
    entry ⟨theme, sheet⟩ e = entry ⟨theme, other⟩ e := by
  unfold entry
  dsimp only
  rw [h.registered?_eq, Styling.declared_local h.sameAt_registered?]
  refine bind_congr fun own => ?_
  rw [Styling.settle_local hdefaults]

/-- A table of contents depends on the styles of its title and of its levels. -/
theorem styled_local {outline : List OutlineEntry}
    (h : ∀ id ∈ tocStyleIds outline, sheet.SameFrom other id) (around : Surroundings)
    (toc : TocRequest) :
    toc.styled ⟨theme, sheet⟩ outline around = toc.styled ⟨theme, other⟩ outline around := by
  have htitle (text : String) : (titleParagraph ⟨theme, sheet⟩ text).styled ⟨theme, sheet⟩ around =
      (titleParagraph ⟨theme, other⟩ text).styled ⟨theme, other⟩ around :=
    titleParagraph_styled_local hdefaults (h tocTitleStyleId List.mem_cons_self) text around
  have hentries : ∀ e ∈ outline.filter fun e => toc.includes e.level,
      entry ⟨theme, sheet⟩ e = entry ⟨theme, other⟩ e := by
    intro e he
    have hmem : tocStyleId e.level ∈ outline.map fun e => tocStyleId e.level :=
      List.mem_map_of_mem (List.mem_of_mem_filter he)
    exact entry_local hdefaults (h _ (List.mem_cons_of_mem _ hmem))
  unfold styled
  simp only [htitle, mapM_congr_of_mem hentries]

end TocRequest

end

mutual

/-- A block is styled by what it names and what tables of contents look for. -/
theorem Block.styled_local (hdefaults : sheet.defaults = other.defaults)
    {outline : List OutlineEntry} (htoc : ∀ id ∈ tocStyleIds outline, sheet.SameFrom other id)
    (b : Block) (h : SameAt sheet other b.references) (around : Surroundings) :
    b.styled ⟨theme, sheet⟩ outline around = b.styled ⟨theme, other⟩ outline around := by
  unfold Block.references at h
  unfold Block.styled
  cases b with
  | heading level p =>
    dsimp only
    rw [p.styled_local hdefaults h]
  | paragraph p =>
    dsimp only
    rw [p.styled_local hdefaults h]
  | run r =>
    dsimp only
    rw [r.styled_local hdefaults h]
  | table t =>
    obtain ⟨styleId, rows⟩ := t
    obtain ⟨hstyle, hrows⟩ := h.append
    dsimp only
    rw [Styling.declared_local hstyle]
    refine bind_congr fun own => ?_
    rw [rows_styled_local hdefaults htoc rows hrows]
  | pageBreak => rfl
  | toc request =>
    dsimp only
    rw [request.styled_local hdefaults htoc]
  termination_by structural b

/-- The styling of blocks depends on the styles that they name. -/
theorem blocks_styled_local (hdefaults : sheet.defaults = other.defaults)
    {outline : List OutlineEntry} (htoc : ∀ id ∈ tocStyleIds outline, sheet.SameFrom other id)
    (blocks : List Block) (h : SameAt sheet other (blocksReferences blocks))
    (around : Surroundings) :
    styledBlocks ⟨theme, sheet⟩ outline around blocks =
      styledBlocks ⟨theme, other⟩ outline around blocks := by
  cases blocks with
  | nil => rfl
  | cons b rest =>
    obtain ⟨hb, hrest⟩ := SameAt.append h
    unfold styledBlocks
    rw [b.styled_local hdefaults htoc hb]
    refine bind_congr fun b' => ?_
    rw [blocks_styled_local hdefaults htoc rest hrest]
  termination_by structural blocks

/-- The styling of cells depends on the styles that they name. -/
theorem cells_styled_local (hdefaults : sheet.defaults = other.defaults)
    {outline : List OutlineEntry} (htoc : ∀ id ∈ tocStyleIds outline, sheet.SameFrom other id)
    (cells : List (Cell Block ColorRef)) (h : SameAt sheet other (cellsReferences cells))
    (around : Surroundings) :
    styledCells ⟨theme, sheet⟩ outline around cells =
      styledCells ⟨theme, other⟩ outline around cells := by
  cases cells with
  | nil => rfl
  | cons c rest =>
    obtain ⟨blocks, shading⟩ := c
    obtain ⟨hcell, hrest⟩ := SameAt.append h
    unfold styledCells
    rw [blocks_styled_local hdefaults htoc blocks hcell.append.1]
    refine bind_congr fun blocks' => bind_congr fun shading' => ?_
    rw [cells_styled_local hdefaults htoc rest hrest]
  termination_by structural cells

/-- The styling of rows depends on the styles that they name. -/
theorem rows_styled_local (hdefaults : sheet.defaults = other.defaults)
    {outline : List OutlineEntry} (htoc : ∀ id ∈ tocStyleIds outline, sheet.SameFrom other id)
    (rows : List (Row Block ColorRef)) (h : SameAt sheet other (rowsReferences rows))
    (around : Surroundings) :
    styledRows ⟨theme, sheet⟩ outline around rows =
      styledRows ⟨theme, other⟩ outline around rows := by
  cases rows with
  | nil => rfl
  | cons r rest =>
    obtain ⟨cells, header⟩ := r
    obtain ⟨hrow, hrest⟩ := SameAt.append h
    unfold styledRows
    rw [cells_styled_local hdefaults htoc cells hrow]
    refine bind_congr fun cells' => ?_
    rw [rows_styled_local hdefaults htoc rest hrest]
  termination_by structural rows

end

section

variable (hdefaults : sheet.defaults = other.defaults)

include hdefaults

/-- The styling of a section depends on the styles that it names. -/
theorem Section.styled_local {outline : List OutlineEntry}
    (htoc : ∀ id ∈ tocStyleIds outline, sheet.SameFrom other id) {s : Section}
    (h : SameAt sheet other (blocksReferences s.blocks)) :
    s.styled ⟨theme, sheet⟩ outline = s.styled ⟨theme, other⟩ outline := by
  unfold styled
  rw [blocks_styled_local hdefaults htoc s.blocks h]

/-- A styled document carries all styles of the stylesheet, but nothing else shows them. -/
theorem Document.styled_local {doc : Document}
    (h : ∀ id ∈ doc.styleIds, sheet.SameFrom other id) :
    Alike StyledDocument.sections (doc.styled ⟨theme, sheet⟩) (doc.styled ⟨theme, other⟩) := by
  obtain ⟨htoc, hreferences⟩ := List.forall_mem_append.mp h
  have hnamed : SameAt sheet other doc.references :=
    fun id hid => hreferences id (Reference.mem_filterMap_styleId?_iff.mpr hid)
  have hsections : ∀ s ∈ doc.sections, Section.styled ⟨theme, sheet⟩ doc.outline s =
      Section.styled ⟨theme, other⟩ doc.outline s :=
    fun s hs => Section.styled_local hdefaults htoc (hnamed.of_mem_flatMap hs)
  unfold styled
  rw [mapM_congr_of_mem hsections]
  exact .after _ fun sections => .ok rfl

/-- The text of a shape depends on the styles that it names. -/
theorem PlacedText.resolve_local {styleId : Option String} {runs : List Run}
    (hown : SameAt sheet other (styleReferences styleId))
    (hruns : ∀ r ∈ runs, SameAt sheet other (styleReferences r.styleId))
    (overrides : StyleProperties) (valign : VerticalAlign) :
    resolve ⟨theme, sheet⟩ styleId overrides runs valign =
      resolve ⟨theme, other⟩ styleId overrides runs valign := by
  unfold resolve
  rw [Styling.declared_local hown]
  refine bind_congr fun own => ?_
  rw [Styling.settle_local hdefaults]
  refine bind_congr fun style => ?_
  have hspans : ∀ r ∈ runs, span ⟨theme, sheet⟩ own r = span ⟨theme, other⟩ own r := by
    intro r hr
    unfold span
    rw [Styling.resolveRun_local hdefaults (hruns r hr)]
  rw [mapM_congr_of_mem hspans]

theorem TextFrame.place_local {t : TextFrame} (h : SameAt sheet other t.references) :
    t.place ⟨theme, sheet⟩ = t.place ⟨theme, other⟩ := by
  obtain ⟨hown, hruns⟩ := h.append
  unfold place
  rw [PlacedText.resolve_local hdefaults hown.append.1
    fun r hr => (hruns.of_mem_flatMap hr).append.1]

/-- The text of a slot is a run that names no style. -/
theorem Slot.place_local {s : Slot} (h : SameAt sheet other (styleReferences s.styleId))
    (item : GridItem) (frame : Box) :
    s.place ⟨theme, sheet⟩ item frame = s.place ⟨theme, other⟩ item frame := by
  have htext (text : String) :
      PlacedText.resolve ⟨theme, sheet⟩ s.styleId s.overrides [{ text }] s.valign =
        PlacedText.resolve ⟨theme, other⟩ s.styleId s.overrides [{ text }] s.valign := by
    refine PlacedText.resolve_local hdefaults h ?_ s.overrides s.valign
    exact List.forall_mem_singleton.mpr nofun
  unfold place
  simp only [htext]

namespace CardTemplate

theorem placeSlots_local {framed : List (Slot × Box)}
    (h : ∀ sf ∈ framed, SameAt sheet other (styleReferences sf.1.styleId))
    (p : Placed GridItem) :
    placeSlots ⟨theme, sheet⟩ p framed = placeSlots ⟨theme, other⟩ p framed := by
  induction framed with
  | nil => rfl
  | cons sf framed ih =>
    obtain ⟨hsf, hframed⟩ := List.forall_mem_cons.mp h
    unfold placeSlots
    rw [Slot.place_local hdefaults hsf, ih hframed]

theorem placeCard_local {card : CardTemplate}
    (h : ∀ s ∈ card.slots, SameAt sheet other (styleReferences s.styleId)) (frames : List Box)
    (p : Placed GridItem) :
    card.placeCard ⟨theme, sheet⟩ frames p = card.placeCard ⟨theme, other⟩ frames p := by
  unfold placeCard
  rw [placeSlots_local hdefaults fun sf hsf => h sf.1 (List.of_mem_zip hsf).1]
  -- what lies behind a card has no style
  rfl

end CardTemplate

/-- A group depends on the styles of its slots. -/
theorem GridGroup.place_local {group : GridGroup}
    (h : ∀ s ∈ group.card.slots, SameAt sheet other (styleReferences s.styleId)) :
    group.place ⟨theme, sheet⟩ = group.place ⟨theme, other⟩ := by
  have hcards (frames : List Box) : group.card.placeCard ⟨theme, sheet⟩ frames =
      group.card.placeCard ⟨theme, other⟩ frames :=
    funext fun p => CardTemplate.placeCard_local hdefaults h frames p
  unfold place
  simp only [hcards]
  -- nor have the shapes between neighbours
  rfl

/-- An element depends on the styles that it names. -/
theorem SlideElement.place_local {e : SlideElement}
    (h : ∀ id ∈ e.styleIds, sheet.SameFrom other id) :
    e.place ⟨theme, sheet⟩ = e.place ⟨theme, other⟩ := by
  unfold place
  cases e with
  | text frame =>
    have hnamed : SameAt sheet other frame.references :=
      fun id hid => h id (Reference.mem_filterMap_styleId?_iff.mpr hid)
    dsimp only
    rw [frame.place_local hdefaults hnamed]
  | shape spec => rfl
  | grid group =>
    have hslots : ∀ s ∈ group.card.slots, SameAt sheet other (styleReferences s.styleId) := by
      intro s hs id hid
      obtain ⟨used, hused, heq⟩ := List.mem_map.mp hid
      obtain rfl := Reference.style.inj heq
      exact h used (List.mem_filterMap.mpr ⟨s, hs, Option.mem_toList.mp hused⟩)
    dsimp only
    rw [group.place_local hdefaults hslots]

/-- A slide depends on the styles that it names. -/
theorem Slide.place_local {s : Slide}
    (h : ∀ e ∈ s.elements, ∀ id ∈ e.styleIds, sheet.SameFrom other id) (index : Nat) :
    s.place ⟨theme, sheet⟩ index = s.place ⟨theme, other⟩ index := by
  have helements : ∀ e ∈ s.elements,
      SlideElement.place ⟨theme, sheet⟩ e = SlideElement.place ⟨theme, other⟩ e :=
    fun e he => SlideElement.place_local hdefaults (h e he)
  unfold place
  rw [mapM_congr_of_mem helements]

theorem Deck.placeSlides_local {slides : List Slide}
    (h : ∀ s ∈ slides, ∀ e ∈ s.elements, ∀ id ∈ e.styleIds, sheet.SameFrom other id)
    (index : Nat) :
    placeSlides ⟨theme, sheet⟩ index slides = placeSlides ⟨theme, other⟩ index slides := by
  induction slides generalizing index with
  | nil => rfl
  | cons s slides ih =>
    obtain ⟨hs, hslides⟩ := List.forall_mem_cons.mp h
    unfold placeSlides
    rw [s.place_local hdefaults hs, ih hslides]

/-- A deck depends on the styles that it names. -/
theorem Deck.place_local (format : DeckFormat) {deck : Deck}
    (h : ∀ id ∈ deck.styleIds, sheet.SameFrom other id) :
    deck.place ⟨theme, sheet⟩ format = deck.place ⟨theme, other⟩ format := by
  have hslides : ∀ s ∈ deck.slides, ∀ e ∈ s.elements, ∀ id ∈ e.styleIds,
      sheet.SameFrom other id := by
    intro s hs e he id hid
    exact h id (List.mem_flatMap.mpr ⟨s, hs, List.mem_flatMap.mpr ⟨e, he, hid⟩⟩)
  unfold place
  rw [placeSlides_local hdefaults hslides]

end

/-- Documents and decks that look up only certain ids come out the same or are refused for the same
reason; of documents this is said of their sections, since they carry all styles along. -/
def BuildAlike (s t : Styling) (ids : String → Prop) : Prop :=
  (∀ doc : Document, (∀ id ∈ doc.styleIds, ids id) →
    Alike StyledDocument.sections (doc.styled s) (doc.styled t)) ∧
  ∀ (format : DeckFormat) (deck : Deck), (∀ id ∈ deck.styleIds, ids id) →
    deck.place s format = deck.place t format

/-- Stylesheets that agree from the styles looked up build alike. -/
theorem buildAlike_of_sameFrom (hdefaults : sheet.defaults = other.defaults) :
    BuildAlike ⟨theme, sheet⟩ ⟨theme, other⟩ (sheet.SameFrom other) :=
  ⟨fun _ h => Document.styled_local hdefaults h,
    fun format _ h => Deck.place_local hdefaults format h⟩

namespace Stylesheet

/-- Of two stylesheets with the same defaults that are bound to one theme, both build alike what
looks up only ids from which they hold the same styles. So a style that is added or replaced changes
nothing of what looks up only ids that do not lead to its own. -/
theorem build_local {s : Styling} (hs : sheet.bind theme = .ok s) :
    (∀ (other : Stylesheet) (t : Styling), sheet.defaults = other.defaults →
      other.bind theme = .ok t → BuildAlike s t (sheet.SameFrom other)) ∧
    ∀ (d : StyleDefinition) (t : Styling), (sheet.put d).bind theme = .ok t →
      BuildAlike s t fun id => ¬sheet.LeadsTo id d.id := by
  obtain ⟨rfl, _⟩ := bind_eq_ok_iff_checks.mp hs
  refine ⟨fun other t hdefaults ht => ?_, fun d t ht => ?_⟩
  · obtain ⟨rfl, _⟩ := bind_eq_ok_iff_checks.mp ht
    exact buildAlike_of_sameFrom hdefaults
  · obtain ⟨rfl, _⟩ := bind_eq_ok_iff_checks.mp ht
    have halike : BuildAlike ⟨theme, sheet⟩ ⟨theme, sheet.put d⟩ (sheet.SameFrom (sheet.put d)) :=
      buildAlike_of_sameFrom rfl
    exact ⟨fun doc h => halike.1 doc fun id hid => sameFrom_put (h id hid),
      fun format deck h => halike.2 format deck fun id hid => sameFrom_put (h id hid)⟩

/-- Quotations that are not in italics. -/
def aside : StyleDefinition :=
  { id := "Aside", basedOn := some "Quote", properties := StyleProperties.italic {} false }

/-- A heading in the text of quotations, listed in a table of contents. -/
def quotedHeading : Document :=
  { title := "Letter"
    sections := [{
      page := .a4
      blocks := [.toc {}, .heading 1 { styleId := some "Quote", runs := [{ text := "Dear" }] }] }] }

/-- The same heading on a slide. -/
def quotedSlide : Deck :=
  { slides := [{ elements := [.text (.ofText ⟨0, 0, 1, 1⟩ "Quote" "Dear")] }] }

/-- A style that nothing is based on changes nothing where it is not named. -/
theorem build_local_aside :
    ∃ s t out, letter.bind plainTheme = .ok s ∧ (letter.put aside).bind plainTheme = .ok t ∧
      quotedHeading.styled s = .ok out ∧
      Alike StyledDocument.sections (quotedHeading.styled s) (quotedHeading.styled t) ∧
      quotedSlide.place s .widescreen = quotedSlide.place t .widescreen := by
  obtain ⟨s, hs⟩ : ∃ s, letter.bind plainTheme = .ok s :=
    exists_eq_ok_of_isOk (by decide +kernel)
  obtain ⟨t, ht⟩ : ∃ t, (letter.put aside).bind plainTheme = .ok t :=
    exists_eq_ok_of_isOk (by decide +kernel)
  obtain ⟨_, hput⟩ := build_local hs
  obtain ⟨hdocuments, hdecks⟩ := hput aside t ht
  have hstops : ∀ id ∈ quotedHeading.styleIds ++ quotedSlide.styleIds,
      (climb letter.styles [] (some id)).stop ≠ some "Aside" := by decide +kernel
  have hleads : ∀ id ∈ quotedHeading.styleIds ++ quotedSlide.styleIds,
      ¬letter.LeadsTo id "Aside" := by
    rintro id hid ⟨path, hup⟩
    have hnone : letter.styles.get? "Aside" = none := by decide +kernel
    have hclimb := reachable_letter.coherent.acyclic.climb_eq_dangling_iff.mpr ⟨hup, hnone⟩
    have hstop := hstops id hid
    rw [hclimb] at hstop
    exact hstop rfl
  obtain ⟨hdocument, hdeck⟩ := List.forall_mem_append.mp hleads
  obtain ⟨out, hout⟩ : ∃ out, quotedHeading.styled s = .ok out := by
    obtain ⟨rfl, _⟩ := bind_eq_ok_iff_checks.mp hs
    exact exists_eq_ok_of_isOk (by decide +kernel)
  exact ⟨s, t, out, hs, ht, hout, hdocuments quotedHeading hdocument,
    hdecks .widescreen quotedSlide hdeck⟩

end Stylesheet

end Folio

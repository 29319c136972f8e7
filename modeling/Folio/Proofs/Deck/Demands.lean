import Folio.Deck.Placement
import Folio.Proofs.Checks
import Folio.Proofs.Document.References
import Folio.Proofs.Validation

/-!
# Demands of a deck

What has to hold for a deck to be placed, as a list in the order in which placing comes to it:
references that have to be known, grids and cards whose measures have to be in range, and values
that items have to carry. Which of them apply depends on the deck alone, except that the value of a
field may name a role. Placing succeeds exactly when all demands are met and fails as the first that
is not, so it never asks for a cell of a grid without columns.
-/

namespace Folio

open StyleProperties

deriving instance DecidableEq for Dict, GridItem

/-- Something that a deck needs to be placed. -/
inductive Demand where
  /-- A style or a role is known. -/
  | known (ref : Reference)
  /-- A grid has columns, and its measures are in range. -/
  | grid (spec : GridSpec Float32)
  /-- The measures of a card are in range. -/
  | card (template : CardTemplate)
  /-- An item carries a further value under a name. -/
  | field (item : GridItem) (name : String)
  deriving DecidableEq

/-- Checks that a demand is met. -/
def Demand.check (styling : Styling) : Demand → Except BuildError Unit
  | known ref => if ref.known styling then .ok () else .error ref.error
  | grid spec => spec.validate
  | card template => template.validate
  | field item name =>
    if (item.get? name).isSome then .ok () else .error (.missingField item.index name)

/-- A name stands for the label of an item or for a value that the item has to carry. -/
def GridItem.nameDemands (item : GridItem) (name : String) : List Demand :=
  if name = "label" then [] else [.field item name]

/-- The names in braces of a template. -/
def Template.names : List Char → List String
  | [] => []
  | c :: rest =>
    if c = '\x7b' then
      match _h : closing? rest with
      | some (name, rest) => String.ofList name :: names rest
      | none => []
    else names rest
termination_by text => text.length
decreasing_by
  · exact Nat.lt_succ_of_lt (length_lt_of_closing? _h)
  · exact Nat.lt_succ_self _

/-- The references of text: its style, the roles of its overrides and what its runs name. -/
def TextFrame.references (t : TextFrame) : List Reference :=
  (⟨t.styleId, t.overrides, t.runs⟩ : Paragraph).references

/-- The colour that may be referred to. -/
def fillReferences (fill : Option ColorRef) : List Reference :=
  fill.toList.flatMap ColorRef.references

/-- The colour of the outline that there may be. -/
def lineReferences (line : Option LineSpec) : List Reference :=
  line.toList.flatMap fun l => l.color.references

namespace Slot

/-- The names that the content of a slot refers to have to stand for something. -/
def nameDemands (s : Slot) (item : GridItem) : List Demand :=
  match s.content with
  | .field name => item.nameDemands name
  | .template text => (Template.names text.toList).flatMap item.nameDemands
  | _ => []

/-- A slot with a shape refers to its fill only, and one with text to its style and overrides. -/
def references (s : Slot) : List Reference :=
  match s.content with
  | .shape _ fill => fillReferences fill
  | _ => styleReferences s.styleId ++ s.overrides.references

/-- What a slot demands on the card of an item. -/
def demands (item : GridItem) (s : Slot) : List Demand :=
  s.nameDemands item ++ s.references.map .known

end Slot

namespace CardTemplate

/-- The fill is the role that a field of the item holds, if a field is named, and else a colour of
the card. -/
def fillDemands (card : CardTemplate) (item : GridItem) : List Demand :=
  match card.fillField with
  | some name => .field item name ::
      (item.get? name).toList.map fun role => .known (.role .color role)
  | none => (fillReferences card.fill).map .known

/-- There is something behind the card. -/
def hasBackground (card : CardTemplate) : Bool :=
  card.shape.isSome || card.fill.isSome || card.fillField.isSome

/-- The outline is needed only where there is something behind the card. -/
def outlineReferences (card : CardTemplate) : List Reference :=
  if card.hasBackground then lineReferences card.line else []

/-- What the card of an item demands. -/
def demands (card : CardTemplate) (item : GridItem) : List Demand :=
  card.fillDemands item ++ card.outlineReferences.map .known ++
    card.slots.flatMap (Slot.demands item)

end CardTemplate

/-- What a group of cards demands; the fill of a connector even where none is drawn. -/
def GridGroup.demands (group : GridGroup) : List Demand :=
  [.grid group.spec, .card group.card] ++ group.items.flatMap group.card.demands ++
    (group.card.connector.toList.flatMap fun c => fillReferences c.fill).map .known

/-- What an element of a slide demands. -/
def SlideElement.demands : SlideElement → List Demand
  | .text frame => frame.references.map .known
  | .shape spec => (fillReferences spec.fill ++ lineReferences spec.line).map .known
  | .grid group => group.demands

/-- What a slide demands. -/
def Slide.demands (s : Slide) : List Demand :=
  s.elements.flatMap SlideElement.demands ++ (fillReferences s.background).map .known

/-- What a deck demands. -/
def Deck.demands (deck : Deck) : List Demand := deck.slides.flatMap Slide.demands

variable {styling : Styling} {α : Type}

/-- What is known meets the demand for it. -/
theorem Demand.check_known {ref : Reference} (h : ref.known styling = true) :
    (known ref).check styling = .ok () := by
  simp only [check, h, ite_true]

/-- Looking up a reference follows the demand that it is known. -/
theorem Follows.of_known {x : Except BuildError α} {ref : Reference}
    (hok : ref.known styling = true → ∃ a, x = .ok a)
    (herror : ref.known styling = false → x = .error ref.error) :
    Follows (Demand.check styling) [.known ref] x := by
  refine .of_check ?_
  cases hknown : ref.known styling with
  | true =>
    obtain ⟨a, rfl⟩ := hok hknown
    exact (Demand.check_known hknown).symm
  | false =>
    simp only [Demand.check, hknown, Bool.false_eq_true, ite_false, herror hknown]
    rfl

/-- A font reference demands its role. -/
theorem FontRef.resolve_follows (f : FontRef) :
    Follows (Demand.check styling) (f.references.map .known) (f.resolve styling.theme) := by
  cases f with
  | face name => exact .ok name
  | role name =>
    refine .of_known (fun hknown => ?_) fun hunknown =>
      resolve_eq_error_iff.mpr ⟨name, rfl, hunknown, rfl⟩
    exact (Option.isSome_iff_exists.mp hknown).imp fun face hface => by
      simp only [resolve, Theme.font, hface]

/-- A colour reference demands its role. -/
theorem ColorRef.resolve_follows (c : ColorRef) :
    Follows (Demand.check styling) (c.references.map .known) (c.resolve styling.theme) := by
  cases c with
  | literal color => exact .ok color
  | role name =>
    refine .of_known (fun hknown => ?_) fun hunknown =>
      resolve_eq_error_iff.mpr ⟨name, rfl, hunknown, rfl⟩
    exact (Option.isSome_iff_exists.mp hknown).imp fun color hcolor => by
      simp only [resolve, Theme.color, hcolor]

/-- A fill demands the role of its colour, if it has a colour. -/
theorem ColorRef.resolveAny_follows (fill : Option ColorRef) :
    Follows (Demand.check styling) ((fillReferences fill).map .known)
      (resolveAny styling.theme fill) := by
  unfold fillReferences
  rw [List.map_flatMap]
  exact .option_mapM resolve_follows fill

/-- A line demands the role of its colour, if there is a line. -/
theorem LineSpec.resolve_follows (line : Option LineSpec) :
    Follows (Demand.check styling) ((lineReferences line).map .known)
      (line.mapM (resolve styling.theme)) := by
  unfold lineReferences
  rw [List.map_flatMap]
  exact .option_mapM (fun l => l.color.resolve_follows.map) line

section

variable (h : Acyclic styling.sheet.styles) (hfits : styling.sheet.Fits styling.theme)

include hfits

/-- Below a layer that declares no font or no colour, layers that name only known roles have a bound
role in effect. -/
theorem RoleKind.bound_of_effective {kind : RoleKind} {p : StyleProperties}
    {layers : List StyleProperties} (hsilent : kind.Silent p)
    (hclean : ∀ ref ∈ layers.flatMap StyleProperties.references, ref.known styling = true)
    {role : String} (h : kind.Effective (p :: layers ++ [styling.sheet.defaults]) role) :
    kind.bound styling.theme role = true := by
  rw [List.cons_append, effective_cons_of_silent hsilent] at h
  rcases h.cases with ⟨q, hq, hnames⟩ | ⟨hbase, hall⟩
  · have href := StyleProperties.mem_references_iff.mpr ⟨kind, role, hnames, rfl⟩
    rcases List.mem_append.mp hq with hq | hq
    · exact hclean _ (List.mem_flatMap.mpr ⟨q, hq, href⟩)
    · obtain rfl := List.mem_singleton.mp hq
      exact Stylesheet.HasLayer.defaults.references_known hfits _ href
  · have hdefaults := hall _ (List.mem_append_right _ (List.mem_singleton_self _))
    exact hfits.bound kind role (.inr ⟨hdefaults, hbase⟩)

/-- Where the other layers name only known roles, settling follows the roles of the topmost one. -/
theorem Styling.settle_follows {p : StyleProperties} {layers : List StyleProperties}
    (hclean : ∀ ref ∈ layers.flatMap StyleProperties.references, ref.known styling = true) :
    Follows (Demand.check styling) (p.references.map .known)
      (styling.settle (stack (p :: layers))) := by
  unfold StyleProperties.references
  rw [List.map_append, List.map_flatMap, List.map_flatMap]
  unfold settle
  dsimp only
  rw [font_stack_above_defaults, color_stack_above_defaults]
  refine .bind ?_ fun face _ => Follows.map ?_
  · cases hfont : p.run.font with
    | some f =>
      rw [List.cons_append, nearest_cons, hfont, Option.toList_some, List.flatMap_singleton]
      exact f.resolve_follows
    | none =>
      cases hresolve : FontRef.resolve styling.theme
          ((nearest (·.run.font) (p :: layers ++ [styling.sheet.defaults])).getD
            (.role baseFontRole)) with
      | ok face => exact .ok face
      | error e =>
        obtain ⟨role, hrole, hmissing, _⟩ := FontRef.resolve_eq_error_iff.mp hresolve
        have hsilent : RoleKind.font.Silent p := hfont
        have hbound := RoleKind.bound_of_effective hfits hsilent hclean hrole
        exact absurd (hbound.symm.trans hmissing) nofun
  · cases hcolor : p.run.color with
    | some c =>
      rw [List.cons_append, nearest_cons, hcolor, Option.toList_some, List.flatMap_singleton]
      exact c.resolve_follows
    | none =>
      cases hresolve : ColorRef.resolve styling.theme
          ((nearest (·.run.color) (p :: layers ++ [styling.sheet.defaults])).getD
            (.role baseColorRole)) with
      | ok color => exact .ok color
      | error e =>
        obtain ⟨role, hrole, hmissing, _⟩ := ColorRef.resolve_eq_error_iff.mp hresolve
        have hsilent : RoleKind.color.Silent p := hcolor
        have hbound := RoleKind.bound_of_effective hfits hsilent hclean hrole
        exact absurd (hbound.symm.trans hmissing) nofun

include h

/-- Declarations follow the demand that the named style is registered. -/
theorem Styling.declared_follows {styleId : Option String} {overrides : StyleProperties} :
    Follows (Demand.check styling) ((styleReferences styleId).map .known)
      (styling.declared styleId overrides) := by
  cases styleId with
  | none => exact .ok overrides
  | some id =>
    refine Follows.of_known (fun hknown => ?_) fun hunknown => ?_
    · obtain ⟨path, hway⟩ := (Stylesheet.rooted_iff h).mp hfits.rooted id hknown
      exact ⟨_, (declared_eq_ok_iff h).mpr ⟨path, hway, rfl⟩⟩
    · cases hdeclared : styling.declared (some id) overrides with
      | ok p =>
        obtain ⟨path, hway, _⟩ := (declared_eq_ok_iff h).mp hdeclared
        have hknown := styleReferences_known hway _ (List.mem_singleton_self _)
        exact absurd (hknown.symm.trans hunknown) nofun
      | error e =>
        obtain ⟨ref, href, _, rfl⟩ := reports_of_declared_eq_error h hfits hdeclared
        obtain rfl := List.mem_singleton.mp href
        rfl

/-- A run follows what it names, where the layers around it name only known roles. -/
theorem PlacedText.span_follows {around : List StyleProperties}
    (hclean : ∀ ref ∈ around.flatMap StyleProperties.references, ref.known styling = true)
    (run : Run) :
    Follows (Demand.check styling) (run.references.map .known)
      (span styling (stack around) run) := by
  unfold Run.references span Styling.resolveRun
  rw [List.map_append]
  refine Follows.map (Follows.bind (Styling.declared_follows h hfits) fun own hown => ?_)
  obtain ⟨path, hway, rfl⟩ := (Styling.declared_eq_ok_iff h).mp hown
  rw [← stack_append, List.cons_append]
  refine Styling.settle_follows hfits ?_
  rw [List.flatMap_append, List.forall_mem_append]
  exact ⟨layers_references_known hfits fun p => Stylesheet.hasLayer_of_ascends hway, hclean⟩

/-- Text follows its style, then its overrides, which settle before its runs, and then its runs. -/
theorem PlacedText.resolve_follows {styleId : Option String} {overrides : StyleProperties}
    {runs : List Run} {valign : VerticalAlign} :
    Follows (Demand.check styling) ((⟨styleId, overrides, runs⟩ : Paragraph).references.map .known)
      (resolve styling styleId overrides runs valign) := by
  unfold Paragraph.references resolve
  rw [List.map_append, List.map_append, List.map_flatMap, List.append_assoc]
  refine .bind (Styling.declared_follows h hfits) fun own hown => ?_
  obtain ⟨path, hway, rfl⟩ := (Styling.declared_eq_ok_iff h).mp hown
  have hpath := layers_references_known hfits fun p => Stylesheet.hasLayer_of_ascends hway
  refine .bind (Styling.settle_follows hfits hpath) fun style hstyle => Follows.map ?_
  refine .mapM fun run _ => span_follows h hfits ?_ run
  -- the overrides have settled, so they name only known roles to the runs
  have hoverrides := (Styling.settle_stack_eq_ok_iff.mp hstyle).references_known
  rw [List.flatMap_cons, List.forall_mem_append]
  exact ⟨hoverrides, hpath⟩

/-- A frame of text follows its references. -/
theorem TextFrame.place_follows (t : TextFrame) :
    Follows (Demand.check styling) (t.references.map .known) (t.place styling) :=
  (PlacedText.resolve_follows h hfits).map

end

/-- A shape demands the roles of its fill and then of its line. -/
theorem ShapeSpec.place_follows (s : ShapeSpec) :
    Follows (Demand.check styling)
      ((fillReferences s.fill ++ lineReferences s.line).map .known) (s.place styling) := by
  rw [List.map_append]
  exact .bind (ColorRef.resolveAny_follows s.fill) fun _ _ => (LineSpec.resolve_follows s.line).map

/-- A value of an item that is needed is demanded. -/
theorem Follows.of_field {x : Except BuildError α} {item : GridItem} {name : String}
    (hok : ∀ value, item.get? name = some value → ∃ a, x = .ok a)
    (herror : item.get? name = none → x = .error (.missingField item.index name)) :
    Follows (Demand.check styling) [.field item name] x := by
  refine .of_check ?_
  unfold Demand.check
  cases hvalue : item.get? name with
  | some value =>
    obtain ⟨a, rfl⟩ := hok value hvalue
    simp only [hvalue, Option.isSome_some, ite_true]
    rfl
  | none =>
    simp only [hvalue, Option.isSome_none, Bool.false_eq_true, ite_false, herror hvalue]
    rfl

/-- Looking up a name demands the field of that name, unless it is the name of the label. -/
theorem GridItem.lookup_follows (item : GridItem) (name : String) :
    Follows (Demand.check styling) (item.nameDemands name) (item.lookup name) := by
  unfold nameDemands lookup
  by_cases hlabel : name = "label"
  · rw [if_pos hlabel, if_pos hlabel]
    exact .ok item.label
  · rw [if_neg hlabel, if_neg hlabel]
    refine .of_field (fun value hvalue => ⟨value, ?_⟩) fun hvalue => ?_
    · rw [hvalue]
    · rw [hvalue]

/-- A template follows the names in its braces. -/
theorem Template.fill_follows (item : GridItem) (text : List Char) :
    Follows (Demand.check styling) ((names text).flatMap item.nameDemands) (fill item text) := by
  fun_induction fill item text with
  | case1 =>
    rw [names]
    exact .ok []
  | case2 text name rest hclosing ih =>
    rw [names, if_pos rfl]
    split
    · rename_i name' rest' hclosing'
      rw [hclosing] at hclosing'
      cases hclosing'
      rw [List.flatMap_cons]
      exact .bind (item.lookup_follows _) fun _ _ => ih.map
    · rename_i hclosing'
      rw [hclosing] at hclosing'
      cases hclosing'
  | case3 text hclosing =>
    rw [names, if_pos rfl]
    split
    · rename_i name' rest' hclosing'
      rw [hclosing] at hclosing'
      cases hclosing'
    · exact .ok _
  | case4 c text hc ih =>
    rw [names, if_neg hc]
    exact ih.map

/-- The text of a slot follows the names that its content refers to. -/
theorem Slot.textFor_follows (s : Slot) (item : GridItem) :
    Follows (Demand.check styling) (s.nameDemands item) (s.textFor item) := by
  unfold nameDemands textFor
  cases s.content with
  | label => exact .ok _
  | field name => exact (item.lookup_follows name).map
  | literal text => exact .ok _
  | template text => exact ((Template.fill_follows item text.toList).map).map
  | shape kind fill => exact .ok _

namespace GridSpec

variable {spec : GridSpec Float32}

/-- Validation leaves a grid at least one column. -/
theorem columns_ne_zero_of_validate (h : spec.validate = .ok ()) : spec.columns ≠ 0 :=
  (validate_eq_ok_iff.mp h).columns.ne'

/-- Where there are columns, every position has a cell. -/
theorem cell_eq_ok {L : Type} {spec : GridSpec L} (h : spec.columns ≠ 0) (i : Nat) :
    spec.cell i = .ok (i % spec.columns, i / spec.columns) :=
  if_neg h

/-- A grid with columns has a place for every item, and places the items in their order. -/
theorem exists_place_eq_ok (h : spec.columns ≠ 0) (i : Nat) (items : List α) :
    ∃ placed, spec.place i items = .ok placed ∧ placed.map (·.item) = items := by
  induction items generalizing i with
  | nil => exact ⟨[], rfl, rfl⟩
  | cons a items ih =>
    obtain ⟨placed, hplaced, hitems⟩ := ih (i + 1)
    have hframe : ∃ frame, spec.frame i = .ok frame := by
      unfold frame anchor
      rw [cell_eq_ok h]
      exact ⟨_, rfl⟩
    obtain ⟨frame, hframe⟩ := hframe
    unfold place
    rw [hframe, hplaced]
    exact ⟨⟨a, frame⟩ :: placed, rfl, congrArg _ hitems⟩

/-- Items are laid out in their order, in a grid with columns. -/
theorem layout_eq_ok {items : List α} {placed : List (Placed α)}
    (h : spec.layout items = .ok placed) :
    spec.columns ≠ 0 ∧ placed.map (·.item) = items := by
  obtain ⟨_, hvalid, hplace⟩ := bind_eq_ok_iff.mp h
  have hcolumns := columns_ne_zero_of_validate hvalid
  obtain ⟨placed', hplaced', hitems⟩ := exists_place_eq_ok hcolumns 0 items
  rw [hplace] at hplaced'
  cases hplaced'
  exact ⟨hcolumns, hitems⟩

/-- Laying out items fails only for the measures of the grid. -/
theorem layout_follows (items : List α) :
    Follows (Demand.check styling) [.grid spec] (spec.layout items) := by
  rw [← List.append_nil [_]]
  refine .bind (.of_check ?_) fun _ hvalid => ?_
  · show spec.validate.map (fun _ => ()) = spec.validate
    cases spec.validate <;> rfl
  · obtain ⟨placed, hplaced, _⟩ :=
      exists_place_eq_ok (columns_ne_zero_of_validate hvalid) 0 items
    exact .of_eq_ok hplaced

end GridSpec

/-- Every slot gets a frame. -/
theorem Slot.length_stack {left inner cellWidth offset : Float32} {slots : List Slot} :
    (stack left inner cellWidth offset slots).length = slots.length := by
  induction slots generalizing offset with
  | nil => rfl
  | cons s slots ih =>
    unfold stack
    split
    · rw [List.length_cons, List.length_cons, ih]
    · rw [List.length_cons, List.length_cons, ih]

namespace CardTemplate

variable {card : CardTemplate} {cellWidth : Float32} {frames : List Box}

/-- Each slot has a frame. -/
theorem length_slotFrames (h : card.slotFrames cellWidth = .ok frames) :
    frames.length = card.slots.length := by
  obtain ⟨_, _, hframes⟩ := bind_eq_ok_iff.mp h
  cases hframes
  unfold CardTemplate.frames
  rw [List.length_map, Slot.length_stack]

/-- The frames of slots fail only for the measures of the card. -/
theorem slotFrames_follows :
    Follows (Demand.check styling) [.card card] (card.slotFrames cellWidth) := by
  refine Follows.map (Follows.of_check ?_)
  show card.validate.map (fun _ => ()) = card.validate
  cases card.validate <;> rfl

/-- A fill that is resolved is there exactly when one is given. -/
theorem isSome_of_resolveFill {item : GridItem} {fill : Option Color}
    (h : card.resolveFill styling item = .ok fill) :
    fill.isSome = (card.fillField.isSome || card.fill.isSome) := by
  unfold resolveFill at h
  cases hfield : card.fillField with
  | some name =>
    simp only [hfield] at h
    cases hvalue : item.get? name with
    | some role =>
      simp only [hvalue] at h
      obtain ⟨color, _, hfill⟩ := bind_eq_ok_iff.mp h
      cases hfill
      rfl
    | none =>
      simp only [hvalue] at h
      cases h
  | none =>
    simp only [hfield] at h
    exact isSome_of_option_mapM h

/-- Something lies behind a card exactly when its shape or one of its fills is given. -/
theorem isSome_backgroundKind {item : GridItem} {fill : Option Color}
    (h : card.resolveFill styling item = .ok fill) :
    (card.shape.or (fill.map fun _ => ShapeKind.rectangle)).isSome = card.hasBackground := by
  rw [Option.isSome_or, Option.isSome_map, isSome_of_resolveFill h]
  unfold hasBackground
  rw [Bool.or_assoc, Bool.or_comm card.fill.isSome]

/-- The fill of a card demands the field that it is looked up by and the role named there, or else
the role of its colour. -/
theorem resolveFill_follows (item : GridItem) :
    Follows (Demand.check styling) (card.fillDemands item) (card.resolveFill styling item) := by
  unfold fillDemands resolveFill
  cases card.fillField with
  | none => exact ColorRef.resolveAny_follows card.fill
  | some name =>
    dsimp only
    cases hvalue : item.get? name with
    | some role =>
      have hcolor := (@ColorRef.resolve_follows styling (.role role)).map (f := some)
      have hfield : Follows (Demand.check styling) [.field item name]
          (.ok () : Except BuildError Unit) :=
        .of_field (fun _ _ => ⟨(), rfl⟩) fun hnone => absurd (hvalue.symm.trans hnone) nofun
      exact hfield.bind fun _ _ => hcolor
    | none =>
      exact .of_field (fun value hsome => absurd (hvalue.symm.trans hsome) nofun) fun _ => rfl

/-- What lies behind a card follows its fill and, if anything lies there, its outline. -/
theorem placeBackground_follows (p : Placed GridItem) :
    Follows (Demand.check styling)
      (card.fillDemands p.item ++ card.outlineReferences.map .known)
      (card.placeBackground styling p) := by
  refine .bind (resolveFill_follows p.item) fun fill hfill => ?_
  unfold outlineReferences
  rw [← isSome_backgroundKind hfill]
  cases card.shape.or (fill.map fun _ => ShapeKind.rectangle) with
  | none => exact .ok []
  | some kind => exact (LineSpec.resolve_follows card.line).map

/-- A slot follows what it demands, be it a shape or text. -/
theorem Slot.place_follows (h : Acyclic styling.sheet.styles)
    (hfits : styling.sheet.Fits styling.theme) (item : GridItem) (frame : Box) (s : Slot) :
    Follows (Demand.check styling) (s.demands item) (s.place styling item frame) := by
  have htext (valign : VerticalAlign) (text : Option String) :
      Follows (Demand.check styling)
        ((styleReferences s.styleId ++ s.overrides.references).map .known)
        (PlacedText.resolve styling s.styleId s.overrides [{ text := text.getD "" }] valign) := by
    rw [← List.append_nil (styleReferences _ ++ _)]
    -- the text itself is a run that refers to nothing
    exact PlacedText.resolve_follows h hfits
  have hname : Follows (Demand.check styling) (s.nameDemands item) (s.textFor item) :=
    s.textFor_follows item
  unfold Slot.demands Slot.references Slot.place
  cases hcontent : s.content with
  | shape kind fill =>
    rw [show s.nameDemands item = [] by rw [Slot.nameDemands, hcontent], List.nil_append]
    exact (ColorRef.resolveAny_follows fill).map
  | label => exact hname.bind fun text _ => (htext s.valign text).map
  | field name => exact hname.bind fun text _ => (htext s.valign text).map
  | literal text => exact hname.bind fun text _ => (htext s.valign text).map
  | template text => exact hname.bind fun text _ => (htext s.valign text).map

section

variable (h : Acyclic styling.sheet.styles) (hfits : styling.sheet.Fits styling.theme)

include h hfits

/-- Slots with frames follow what the slots demand. -/
theorem placeSlots_follows (p : Placed GridItem) (framed : List (Slot × Box)) :
    Follows (Demand.check styling) ((framed.map Prod.fst).flatMap (Slot.demands p.item))
      (placeSlots styling p framed) := by
  induction framed with
  | nil => exact .ok []
  | cons sf framed ih =>
    rw [List.map_cons, List.flatMap_cons]
    exact .bind (Slot.place_follows h hfits p.item _ sf.1) fun _ _ => ih.map

/-- A card whose slots all have frames follows what it demands. -/
theorem placeCard_follows (hframes : frames.length = card.slots.length) (p : Placed GridItem) :
    Follows (Demand.check styling) (card.demands p.item) (card.placeCard styling frames p) := by
  refine .bind (placeBackground_follows p) fun background _ => ?_
  have hslots := placeSlots_follows h hfits p (card.slots.zip frames)
  rw [List.map_fst_zip (Nat.le_of_eq hframes.symm)] at hslots
  exact hslots.map

end

end CardTemplate

/-- In a grid with columns, the shapes between neighbours can always be placed. -/
theorem Connector.exists_placeAll_eq_ok {spec : GridSpec Float32} (h : spec.columns ≠ 0)
    (c : Connector) (fill : Option Color) (i : Nat) (cards : List PlacedCard) :
    ∃ shapes, c.placeAll fill spec i cards = .ok shapes := by
  fun_induction c.placeAll fill spec i cards with
  | case1 => exact ⟨[], rfl⟩
  | case2 => exact ⟨[], rfl⟩
  | case3 i card next rest ih =>
    obtain ⟨others, hothers⟩ := ih
    rw [GridSpec.cell_eq_ok h, hothers]
    exact ⟨_, rfl⟩

/-- The shapes between neighbours follow the reference of their fill. -/
theorem GridGroup.placeConnectors_follows {group : GridGroup} (hcolumns : group.spec.columns ≠ 0)
    (cards : List PlacedCard) :
    Follows (Demand.check styling)
      ((group.card.connector.toList.flatMap fun c => fillReferences c.fill).map .known)
      (group.placeConnectors styling cards) := by
  unfold placeConnectors
  cases group.card.connector with
  | none => exact .ok []
  | some c =>
    rw [Option.toList_some, List.flatMap_singleton, ← List.append_nil (List.map _ _)]
    refine .bind (ColorRef.resolveAny_follows c.fill) fun fill _ => ?_
    exact (c.exists_placeAll_eq_ok hcolumns fill 0 cards).elim fun _ => .of_eq_ok

section

variable (h : Acyclic styling.sheet.styles) (hfits : styling.sheet.Fits styling.theme)

include h hfits

/-- A group of cards follows what it demands. -/
theorem GridGroup.place_follows (group : GridGroup) :
    Follows (Demand.check styling) group.demands (group.place styling) := by
  unfold demands place
  rw [List.append_assoc]
  show Follows _ ([_] ++ ([_] ++ _)) _
  refine .bind (group.spec.layout_follows group.items) fun placed hplaced => ?_
  obtain ⟨hcolumns, hitems⟩ := group.spec.layout_eq_ok hplaced
  refine .bind CardTemplate.slotFrames_follows fun frames hframes => ?_
  have hlength := CardTemplate.length_slotFrames hframes
  rw [← hitems, List.flatMap_map]
  refine .bind (.mapM fun p _ => CardTemplate.placeCard_follows h hfits hlength p) fun cards _ => ?_
  exact (placeConnectors_follows hcolumns cards).map

/-- An element demands what its text, shape or group does. -/
theorem SlideElement.place_follows (element : SlideElement) :
    Follows (Demand.check styling) element.demands (element.place styling) := by
  cases element with
  | text frame => exact (frame.place_follows h hfits).map
  | shape spec => exact spec.place_follows.map
  | grid group => exact (group.place_follows h hfits).map

/-- A slide demands what its elements do, in their order. -/
theorem Slide.place_follows (index : Nat) (s : Slide) :
    Follows (Demand.check styling) s.demands (s.place styling index) := by
  refine .bind (.mapM fun element _ => element.place_follows h hfits) fun elements _ => ?_
  exact (ColorRef.resolveAny_follows s.background).map

/-- Slides follow what they demand, wherever they stand. -/
theorem Deck.placeSlides_follows (index : Nat) (slides : List Slide) :
    Follows (Demand.check styling) (slides.flatMap Slide.demands)
      (placeSlides styling index slides) := by
  induction slides generalizing index with
  | nil => exact .ok []
  | cons s slides ih =>
    rw [List.flatMap_cons]
    exact .bind (s.place_follows h hfits index) fun _ _ => (ih (index + 1)).map

/-- A deck follows what it demands, whatever the format of its slides. -/
theorem Deck.place_follows (format : DeckFormat) (deck : Deck) :
    Follows (Demand.check styling) deck.demands (deck.place styling format) :=
  (placeSlides_follows h hfits 0 deck.slides).map

end

/-- Checking a demand does not ask a grid for a cell. -/
theorem Demand.check_ne_noCells (d : Demand) : d.check styling ≠ .error .noCells := by
  cases d with
  | known ref =>
    rw [check]
    split
    · nofun
    · cases ref <;> nofun
  | grid spec =>
    rw [check, GridSpec.validate]
    split
    · nofun
    · split <;> nofun
  | card template =>
    rw [check, CardTemplate.validate]
    split <;> nofun
  | field item name =>
    rw [check]
    split <;> nofun

/-- In a reachable stylesheet that could be bound, a deck is placed exactly when all that it demands
is met, and otherwise fails as the first demand that is not. It never asks a grid without columns
for a cell. -/
theorem Stylesheet.Reachable.place_iff_demands_met {sheet : Stylesheet} (h : sheet.Reachable)
    {theme : Theme} (hb : sheet.bind theme = .ok styling) (format : DeckFormat) (deck : Deck) :
    ((∃ placed, deck.place styling format = .ok placed) ↔
        ∀ d ∈ deck.demands, d.check ⟨theme, sheet⟩ = .ok ()) ∧
      (∀ e, deck.place styling format = .error e ↔
        ∃ before d after, deck.demands = before ++ d :: after ∧
          (∀ d' ∈ before, d'.check ⟨theme, sheet⟩ = .ok ()) ∧
          d.check ⟨theme, sheet⟩ = .error e) ∧
      deck.place styling format ≠ .error .noCells := by
  obtain ⟨rfl, hfits⟩ := (bind_eq_ok_iff_fits h.coherent.acyclic).mp hb
  have hfollows : Follows (Demand.check ⟨theme, sheet⟩) deck.demands (deck.place _ format) :=
    deck.place_follows h.coherent.acyclic hfits format
  refine ⟨hfollows.exists_eq_ok_iff, fun e => hfollows.eq_error_iff, fun hcells => ?_⟩
  obtain ⟨_, d, _, _, _, hd⟩ := hfollows.eq_error_iff.mp hcells
  exact d.check_ne_noCells hd

/-- A single card, filled as its item says, with a connector to a neighbour that is not there. -/
def hiddenConnector : Deck :=
  let item : GridItem := GridItem.field { index := 0, label := "Ann" } "kind" "text"
  let card : CardTemplate := {
    fillField := some "kind"
    line := some ⟨.role "text", 1⟩
    slots := [(Slot.template "\x7bkind\x7d of \x7blabel\x7d" 0.3).style "Quote"]
    connector := some {
      kind := .rightArrow, frame := ⟨0, 0, 1, 1⟩, fill := some (.role "accent") } }
  { slides := [{ elements := [.grid { items := [item], spec := .ofCells 3 1 1, card }] }] }

/-- The fill of a connector that is not drawn is still demanded, after all that the card demands. -/
theorem Stylesheet.Reachable.place_iff_demands_met_hiddenConnector :
    letter.Reachable ∧ ∃ styling, letter.bind plainTheme = .ok styling ∧
      hiddenConnector.place styling .widescreen = .error (.unknownRole "accent") := by
  obtain ⟨styling, hb⟩ : ∃ styling, letter.bind plainTheme = .ok styling :=
    exists_eq_ok_of_isOk (by decide +kernel)
  obtain ⟨_, herror, _⟩ := reachable_letter.place_iff_demands_met hb .widescreen hiddenConnector
  refine ⟨reachable_letter, styling, hb, (herror _).mpr ?_⟩
  exact ⟨hiddenConnector.demands.dropLast, .known (.role .color "accent"), [],
    by decide +kernel, by decide +kernel, by decide +kernel⟩

end Folio

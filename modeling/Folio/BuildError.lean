import Folio.Number.Shortest

/-!
# Build errors

Why a theme, a stylesheet, a document or a deck was refused. Each cause names what is at fault,
and one function gives its wording.
-/

namespace Folio

open Folio.Number

/-- What a measure has to be. -/
inductive Requirement where
  | nonNegative
  | finite
  deriving DecidableEq

/-- A length meets a requirement. -/
def Requirement.holds : Requirement → Float32 → Bool
  | .nonNegative, x => x.isFinite && 0 ≤ x
  | .finite, x => x.isFinite

/-- How a requirement is worded. -/
def Requirement.wording : Requirement → String
  | .nonNegative => "a non-negative number"
  | .finite => "finite"

/-- A measure of a grid. -/
inductive GridMeasure where
  | cellWidth
  | cellHeight
  | colGap
  | rowGap
  | originX
  | originY
  deriving DecidableEq

namespace GridMeasure

/-- How a measure of a grid is named. -/
def name : GridMeasure → String
  | .cellWidth => "cell_width"
  | .cellHeight => "cell_height"
  | .colGap => "col_gap"
  | .rowGap => "row_gap"
  | .originX => "origin_x"
  | .originY => "origin_y"

/-- Sizes and gaps are not negative; origins may lie anywhere. -/
def requirement : GridMeasure → Requirement
  | .originX | .originY => .finite
  | _ => .nonNegative

end GridMeasure

/-- A measure of a slot in a card. -/
inductive SlotMeasure where
  | height
  | width
  | marginTop
  | x
  | y
  deriving DecidableEq

/-- A measure of a card: a padding, or a measure of the slot at a position. -/
inductive CardMeasure where
  | paddingTop
  | paddingRight
  | paddingBottom
  | paddingLeft
  | slot (position : Nat) (measure : SlotMeasure)
  deriving DecidableEq

namespace CardMeasure

/-- How a measure of a card is named. -/
def name : CardMeasure → String
  | .paddingTop => "padding.top"
  | .paddingRight => "padding.right"
  | .paddingBottom => "padding.bottom"
  | .paddingLeft => "padding.left"
  | .slot _ .height => "height"
  | .slot _ .width => "width"
  | .slot _ .marginTop => "margin_top"
  | .slot _ .x => "x"
  | .slot _ .y => "y"

/-- Paddings and sizes are not negative; margins and offsets may be. -/
def requirement : CardMeasure → Requirement
  | .slot _ .marginTop | .slot _ .x | .slot _ .y => .finite
  | _ => .nonNegative

/-- Which slot the measure belongs to, as it is worded. -/
def place : CardMeasure → String
  | .slot position _ => "of slot " ++ toString position ++ " "
  | _ => ""

end CardMeasure

/-- What is wrong with a theme. -/
inductive ThemeFault where
  | blankRole
  /-- A role is bound to a colour and to a font. -/
  | ambiguousRole (role : String)
  /-- A font role is bound to a face without a name. -/
  | blankFace (role : String)
  deriving DecidableEq

/-- How a fault of a theme is worded. -/
def ThemeFault.wording : ThemeFault → String
  | .blankRole => "empty role name"
  | .ambiguousRole role => "role '" ++ role ++ "' is bound to both a colour and a font"
  | .blankFace role => "font role '" ++ role ++ "' has an empty face"

/-- Why something could not be built. -/
inductive BuildError where
  /-- A style with this id is already registered. -/
  | duplicateStyle (id : String)
  /-- Following the parents of a style comes back to a style of the chain. -/
  | cyclicInheritance (id : String) (chain : List String)
  /-- A style is named that is not registered. -/
  | unknownStyle (id : String)
  /-- The theme has no colour or no font for a role. -/
  | unknownRole (role : String)
  /-- A grid has no columns. -/
  | gridWithoutColumns
  /-- A measure of a grid is out of range. -/
  | gridMeasure (measure : GridMeasure) (value : Float32)
  /-- A measure of a card is out of range. -/
  | cardMeasure (measure : CardMeasure) (value : Float32)
  /-- A heading lies too deep. -/
  | headingTooDeep (level : UInt8)
  /-- A theme contradicts itself. -/
  | badTheme (fault : ThemeFault)
  /-- A card refers to a field that the item does not carry. -/
  | missingField (index : Nat) (field : String)
  /-- A position is asked of a grid that has no columns. -/
  | noCells
  /-- A text is not of the expected form. -/
  | malformedText
  deriving DecidableEq

/-- The wording of an error. -/
def BuildError.message : BuildError → String
  | .duplicateStyle id => "duplicate style id: " ++ id
  | .cyclicInheritance id chain =>
    "cyclic style inheritance at '" ++ id ++ "': " ++ String.intercalate " -> " chain
  | .unknownStyle id => "unknown style id: " ++ id
  | .unknownRole role => "unknown theme role: " ++ role
  | .gridWithoutColumns => "invalid grid spec: columns must be greater than zero"
  | .gridMeasure measure value =>
    "invalid grid spec: " ++ measure.name ++ " must be " ++ measure.requirement.wording ++
      ", got " ++ plainText value
  | .cardMeasure measure value =>
    "invalid card template: " ++ measure.name ++ " " ++ measure.place ++ "must be " ++
      measure.requirement.wording ++ ", got " ++ plainText value
  | .headingTooDeep level => "heading level " ++ toString level.toNat ++ " is outside 0..=2"
  | .badTheme fault => "invalid theme: " ++ fault.wording
  | .missingField index field =>
    "grid item " ++ toString index ++ " has no field '" ++ field ++ "'"
  | .noCells => "a grid without columns has no cells"
  | .malformedText => "JSON error:"

end Folio

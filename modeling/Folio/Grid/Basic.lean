import Folio.BuildError
import Folio.Dict
import Folio.Frame

/-!
# Grids

Items of one size in rows of a fixed number of columns: the item at position `i` lies in column
`i % columns` of row `i / columns`. A grid without columns has no cells, and asking for one is an
error; a grid whose measures hold has columns, so laying out items never meets that error.
-/

namespace Folio

/-- An entry of a repeated group. -/
structure GridItem where
  /-- The number of the item, as errors name it. -/
  index : Nat
  /-- The label. -/
  label : String
  /-- Further values by name. -/
  fields : Dict String := .empty

namespace GridItem

/-- Binds a further value. -/
def field (item : GridItem) (name value : String) : GridItem :=
  { item with fields := item.fields.insert name value }

/-- A further value. -/
def get? (item : GridItem) (name : String) : Option String := item.fields.get? name

/-- Items with labels, numbered in their order. -/
def ofLabels (labels : List String) : List GridItem :=
  labels.zipIdx.map fun (label, index) => { index, label }

end GridItem

/-- The geometry of a grid. -/
structure GridSpec (L : Type) where
  /-- The number of columns. -/
  columns : Nat
  /-- The width of a cell. -/
  cellWidth : L
  /-- The height of a cell. -/
  cellHeight : L
  /-- The left edge of the first column. -/
  originX : L
  /-- The upper edge of the first row. -/
  originY : L
  /-- The space between columns. -/
  colGap : L
  /-- The space between rows. -/
  rowGap : L
  deriving DecidableEq

namespace GridSpec

section Geometry

variable {L : Type}

/-- Column and row of a position. -/
def cell (spec : GridSpec L) (i : Nat) : Except BuildError (Nat × Nat) :=
  if spec.columns = 0 then .error .noCells else .ok (i % spec.columns, i / spec.columns)

/-- The number of rows that some items take up. -/
def rowsFor (spec : GridSpec L) (count : Nat) : Except BuildError Nat :=
  if spec.columns = 0 then .error .noCells
  else .ok ((count + spec.columns - 1) / spec.columns)

variable [Length L]

/-- The left upper corner of a position. -/
def anchor (spec : GridSpec L) (i : Nat) : Except BuildError (L × L) := do
  let (col, row) ← spec.cell i
  return (spec.originX + Length.ofCount col * (spec.cellWidth + spec.colGap),
    spec.originY + Length.ofCount row * (spec.cellHeight + spec.rowGap))

/-- The frame of a position. -/
def frame (spec : GridSpec L) (i : Nat) : Except BuildError (Frame L) := do
  let (x, y) ← spec.anchor i
  return ⟨x, y, spec.cellWidth, spec.cellHeight⟩

/-- The length of a row of cells with gaps between them. -/
def span (count : Nat) (cell gap : L) : L :=
  Length.ofCount count * cell + (Length.ofCount count - Length.ofCount 1) * gap

/-- Width and height that some items take up. -/
def extent (spec : GridSpec L) (count : Nat) : Except BuildError (L × L) :=
  if count = 0 then .ok (Length.ofCount 0, Length.ofCount 0)
  else do
    let rows ← spec.rowsFor count
    return (span (min count spec.columns) spec.cellWidth spec.colGap,
      span rows spec.cellHeight spec.rowGap)

end Geometry

/-- A grid in the corner of the slide, without gaps. -/
def ofCells (columns : Nat) (width height : Float32) : GridSpec Float32 :=
  ⟨columns, width, height, 0, 0, 0, 0⟩

/-- Moves the first cell to a point. -/
def origin (spec : GridSpec Float32) (x y : Float32) : GridSpec Float32 :=
  { spec with originX := x, originY := y }

/-- Sets the space between columns and between rows. -/
def gaps (spec : GridSpec Float32) (col row : Float32) : GridSpec Float32 :=
  { spec with colGap := col, rowGap := row }

/-- The measures of a grid in the order in which they are checked. -/
def measures (spec : GridSpec Float32) : List (GridMeasure × Float32) :=
  [(.cellWidth, spec.cellWidth), (.cellHeight, spec.cellHeight), (.colGap, spec.colGap),
    (.rowGap, spec.rowGap), (.originX, spec.originX), (.originY, spec.originY)]

/-- Checks that a grid has columns and that its measures are in range. -/
def validate (spec : GridSpec Float32) : Except BuildError Unit :=
  if spec.columns = 0 then .error .gridWithoutColumns
  else
    match spec.measures.find? fun m => !m.1.requirement.holds m.2 with
    | some (measure, value) => .error (.gridMeasure measure value)
    | none => .ok ()

end GridSpec

/-- Something in its place. -/
structure Placed (α : Type) where
  /-- What is placed. -/
  item : α
  /-- Where it lies. -/
  frame : Box

namespace GridSpec

variable {α : Type}

/-- Places items from a position on. -/
def place (spec : GridSpec Float32) : Nat → List α → Except BuildError (List (Placed α))
  | _, [] => return []
  | i, a :: rest => do
    let frame ← spec.frame i
    return ⟨a, frame⟩ :: (← spec.place (i + 1) rest)

/-- Places items in a grid whose measures are in range. -/
def layout (spec : GridSpec Float32) (items : List α) : Except BuildError (List (Placed α)) := do
  spec.validate
  spec.place 0 items

end GridSpec

end Folio

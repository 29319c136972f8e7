import Folio.Grid.Basic
import Folio.Json.Record

/-!
# Grids as data
-/

namespace Folio

open Json

/-- The names of the fields of a frame. -/
def Frame.fields : List String := ["x", "y", "w", "h"]

namespace Box

/-- Reads a frame from its fields. -/
def ofSlots? : List (Option Value) → Option Box
  | [x, y, w, h] => do
    return ⟨← Value.required Value.float32? x, ← Value.required Value.float32? y,
      ← Value.required Value.float32? w, ← Value.required Value.float32? h⟩
  | _ => none

/-- Reads a frame. -/
def ofJson? (v : Value) : Option Box := (v.slots? Frame.fields).bind ofSlots?

/-- The fields of a frame. -/
def slots (f : Box) : List (Option Value) :=
  [some (.ofFloat32 f.x), some (.ofFloat32 f.y), some (.ofFloat32 f.w), some (.ofFloat32 f.h)]

/-- Writes a frame. -/
def toJson (f : Box) : Value := .record Frame.fields (slots f)

end Box

namespace GridItem

/-- The names of the fields. -/
def names : List String := ["index", "label", "fields"]

/-- Reads an item. -/
def ofJson? (v : Value) : Option GridItem := do
  let [index, label, fields] ← v.slots? names | none
  return {
    index := ← Value.required (Value.natBelow? UInt64.size) index
    label := ← Value.required Value.text? label
    fields := ← Value.orElse (Value.dict? Value.text?) .empty fields }

/-- Writes an item. -/
def toJson (item : GridItem) : Value :=
  .record names
    [some (.ofNat item.index), some (.text item.label),
      Value.onlyIf (!item.fields.isEmpty) (.ofDict .text item.fields)]

end GridItem

namespace GridSpec

/-- The names of the fields. -/
def fields : List String :=
  ["columns", "cell_width", "cell_height", "origin_x", "origin_y", "col_gap", "row_gap"]

/-- Reads the geometry of a grid; gaps may be left out. -/
def ofJson? (v : Value) : Option (GridSpec Float32) := do
  let [columns, cellWidth, cellHeight, originX, originY, colGap, rowGap] ← v.slots? fields | none
  return {
    columns := ← Value.required (Value.natBelow? UInt64.size) columns
    cellWidth := ← Value.required Value.float32? cellWidth
    cellHeight := ← Value.required Value.float32? cellHeight
    originX := ← Value.required Value.float32? originX
    originY := ← Value.required Value.float32? originY
    colGap := ← Value.orElse Value.float32? 0 colGap
    rowGap := ← Value.orElse Value.float32? 0 rowGap }

/-- Writes the geometry of a grid. -/
def toJson (spec : GridSpec Float32) : Value :=
  .record fields
    [some (.ofNat spec.columns), some (.ofFloat32 spec.cellWidth),
      some (.ofFloat32 spec.cellHeight), some (.ofFloat32 spec.originX),
      some (.ofFloat32 spec.originY), some (.ofFloat32 spec.colGap),
      some (.ofFloat32 spec.rowGap)]

end GridSpec

namespace Placed

variable {α : Type}

/-- The names of the fields. -/
def fields : List String := "item" :: Frame.fields

/-- Reads something in its place. -/
def ofJson? (read : Value → Option α) (v : Value) : Option (Placed α) := do
  let item :: frame ← v.slots? fields | none
  return ⟨← Value.required read item, ← Box.ofSlots? frame⟩

/-- Writes something in its place. -/
def toJson (write : α → Value) (p : Placed α) : Value :=
  .record fields (some (write p.item) :: Box.slots p.frame)

end Placed

end Folio

import Folio.Style.Properties

/-!
# Stylesheets

Styles are registered one by one, in any order: a style may be based on one that comes later or
never. Registration refuses an id that is taken and a style that closes a cycle of parents. Each
registered style has a chain, itself and the styles that it is based on, the nearest first.
-/

namespace Folio

/-- Registered styles and the defaults that lie under all of them. -/
structure Stylesheet where
  /-- The styles by id. -/
  styles : Dict StyleDefinition
  /-- The properties that hold where no style declares others. -/
  defaults : StyleProperties

/-- Where following the parents of a style leads, and the styles on the way, the nearest first. -/
inductive Ascent where
  /-- To a style without a parent. -/
  | root (path : List StyleDefinition)
  /-- To an id that is not registered. -/
  | dangling (path : List StyleDefinition) (missing : String)
  /-- To an id that was passed before. -/
  | loop (path : List StyleDefinition) (again : String)
  deriving DecidableEq

/-- The same way with one more style at its beginning. -/
def Ascent.cons (d : StyleDefinition) : Ascent → Ascent
  | .root path => .root (d :: path)
  | .dangling path missing => .dangling (d :: path) missing
  | .loop path again => .loop (d :: path) again

/-- The registered ids that have not been passed. -/
def unpassed (styles : Dict StyleDefinition) (passed : List String) : List String :=
  styles.names.filter fun id => id ∉ passed

theorem length_unpassed_cons_lt {styles : Dict StyleDefinition} {passed : List String}
    {id : String} {d : StyleDefinition} (hp : id ∉ passed) (hd : styles.get? id = some d) :
    (unpassed styles (id :: passed)).length < (unpassed styles passed).length := by
  have hmem : id ∈ unpassed styles passed := by
    simp only [unpassed, List.mem_filter, decide_eq_true_eq]
    exact ⟨Dict.mem_names_iff.mpr ⟨d, hd⟩, hp⟩
  have hsub : unpassed styles (id :: passed) =
      (unpassed styles passed).filter fun other => other ≠ id := by
    simp only [unpassed, List.filter_filter, List.mem_cons]
    refine List.filter_congr fun other _ => ?_
    simp only [not_or, ne_eq, Bool.decide_and, decide_not]
  rw [hsub]
  exact List.length_filter_lt_length_iff_exists.mpr ⟨id, hmem, by simp⟩

/-- Follows the parents of styles from an id on, past no id twice. -/
def climb (styles : Dict StyleDefinition) (passed : List String) : Option String → Ascent
  | none => .root []
  | some id =>
    if _hp : id ∈ passed then .loop [] id
    else
      match _hd : styles.get? id with
      | none => .dangling [] id
      | some d => (climb styles (id :: passed) d.basedOn).cons d
termination_by (unpassed styles passed).length
decreasing_by exact length_unpassed_cons_lt _hp _hd

namespace Stylesheet

/-- The stylesheet without styles. -/
def withDefaults (defaults : StyleProperties) : Stylesheet := ⟨.empty, defaults⟩

/-- The stylesheet without styles and defaults. -/
def empty : Stylesheet := withDefaults {}

/-- The style of an id. -/
def get? (sheet : Stylesheet) (id : String) : Option StyleDefinition := sheet.styles.get? id

/-- Whether an id is registered. -/
def contains (sheet : Stylesheet) (id : String) : Bool := sheet.styles.contains id

/-- An id, when it is registered. -/
def registered? (sheet : Stylesheet) (id : String) : Option String :=
  if sheet.contains id then some id else none

/-- The number of styles. -/
def size (sheet : Stylesheet) : Nat := sheet.styles.size

/-- Whether no style is registered. -/
def isEmpty (sheet : Stylesheet) : Bool := sheet.styles.isEmpty

/-- The cycle of ids that a style would close, from its own id back to an id passed before. -/
def cycle? (sheet : Stylesheet) (d : StyleDefinition) : Option (List String) :=
  match climb sheet.styles [d.id] d.basedOn with
  | .loop path again => some (d.id :: (path.map (·.id) ++ [again]))
  | _ => none

/-- A call on a stylesheet: it leaves a stylesheet behind, also when it fails. -/
abbrev Call := EStateM BuildError Stylesheet

/-- Adds a style, unless its id is taken or it closes a cycle. -/
def add (d : StyleDefinition) : Call Unit := do
  let sheet ← get
  if sheet.contains d.id then throw (.duplicateStyle d.id)
  else
    match sheet.cycle? d with
    | some chain => throw (.cyclicInheritance d.id chain)
    | none => set { sheet with styles := sheet.styles.insert d.id d }

/-- Adds styles in their order, all of them or none. They are added to a copy, which takes the place
of the stylesheet once all are in. -/
def addAll (ds : List StyleDefinition) : Call Unit := do
  let sheet ← get
  match (ds.forM add).run sheet with
  | .ok _ copy => set copy
  | .error e _ => throw e

/-- The stylesheet that a call leaves, unless it fails. -/
def Call.result (call : Call Unit) (sheet : Stylesheet) : Except BuildError Stylesheet :=
  match call.run sheet with
  | .ok _ sheet' => .ok sheet'
  | .error e _ => .error e

/-- The stylesheet that a call leaves, whether it fails or not. -/
def Call.left (call : Call Unit) (sheet : Stylesheet) : Stylesheet :=
  match call.run sheet with
  | .ok _ sheet' => sheet'
  | .error _ sheet' => sheet'

/-- Registers a style, unless its id is taken or it closes a cycle. -/
def register (sheet : Stylesheet) (d : StyleDefinition) : Except BuildError Stylesheet :=
  (add d).result sheet

/-- Registers styles in their order, all of them or none. -/
def registerAll (sheet : Stylesheet) (ds : List StyleDefinition) : Except BuildError Stylesheet :=
  (addAll ds).result sheet

/-- A style and those that it is based on, the nearest first. -/
def chain (sheet : Stylesheet) (id : String) : Except BuildError (List StyleDefinition) :=
  match climb sheet.styles [] (some id) with
  | .root path => .ok path
  | .dangling _ missing => .error (.unknownStyle missing)
  | .loop path again => .error (.cyclicInheritance id (path.map (·.id) ++ [again]))

/-- What a style declares, its own properties above those of the styles that it is based on. -/
def declared (sheet : Stylesheet) (id : String) : Except BuildError StyleProperties :=
  return .stack ((← sheet.chain id).map (·.properties))

end Stylesheet

end Folio

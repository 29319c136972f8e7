import Folio.Proofs.Json.Records
import Folio.Proofs.Theme.Hex
import Folio.Theme.Json

/-!
# Scalars

Most of what documents and decks consist of is written as it is: texts, names and truth values. The
rest is written in another form, lengths as decimals, colours as digits and positions as numerals,
so whether a whole survives being written and read is a matter of these scalars alone.
-/

namespace Folio

open Json

/-- A part of a document or a deck that is written in another form. -/
inductive Scalar where
  | length (x : Float32)
  | color (c : Color)
  | index (i : Nat)

/-- A scalar is read from its written form. -/
def Scalar.Portable : Scalar → Prop
  | length x => x.isFinite = true ∧ ReadsBack x
  | color c => ∃ text, Color.ofHex? text = some c
  | index i => i < UInt64.size

instance : DecidablePred Scalar.Portable
  | .length _ => inferInstanceAs (Decidable (_ ∧ _))
  | .color _ => decidable_of_iff _ Color.exists_ofHex?_iff.symm
  | .index _ => inferInstanceAs (Decidable (_ < _))

namespace Scalar.Portable

/-- A length is read back if its number is portable. -/
theorem length {x : Float32} (h : (Scalar.length x).Portable) (limit : Nat) :
    Faithful limit Value.float32? (.ofFloat32 x) x :=
  .float32 h.1 h.2

/-- A colour is read back from its text. -/
theorem color {c : Color} (h : (Scalar.color c).Portable) (limit : Nat) :
    Faithful limit Color.ofJson? c.toJson c :=
  ⟨.text c.toHex, Color.exists_ofHex?_iff.mp h⟩

/-- An index of a word is read back from its value. -/
theorem index {i : Nat} (h : (Scalar.index i).Portable) (limit : Nat) :
    Faithful limit (Value.natBelow? UInt64.size) (.ofNat i) i :=
  .nat h (Nat.le_refl _)

end Scalar.Portable

/-- A length that may be left out. -/
theorem optional_length {x : Option Float32}
    (h : ∀ s ∈ x.toList.map Scalar.length, s.Portable) (limit : Nat) :
    FaithfulField limit (Value.optional Value.float32?) (x.map .ofFloat32) x := by
  rw [List.forall_mem_map] at h
  have hx : ∀ a ∈ x, (Scalar.length a).Portable := fun a ha => h a (Option.mem_toList.mpr ha)
  apply FaithfulField.optional
  · intro a ha
    exact (hx a ha).length limit
  · intro a ha
    exact Value.ofFloat32_ne_null (hx a ha).1

theorem optional_text (x : Option String) (limit : Nat) :
    FaithfulField limit (Value.optional Value.text?) (x.map .text) x :=
  .optional (fun s _ => .text s limit) nofun

theorem optional_bool (x : Option Bool) (limit : Nat) :
    FaithfulField limit (Value.optional Value.bool?) (x.map .bool) x :=
  .optional (fun b _ => .bool b limit) nofun

theorem optional_uint8 (x : Option UInt8) (limit : Nat) :
    FaithfulField limit (Value.optional Value.uint8?) (x.map fun n => .ofNat n.toNat) x :=
  .optional (fun n _ => .uint8 n limit) nofun

/-- A colour that is given by itself is written as its digits. -/
def ColorRef.scalars : ColorRef → List Scalar
  | .role _ => []
  | .literal c => [.color c]

/-- A value under the name of its kind can be read if the value can. -/
theorem Value.Legible.variant {limit : Nat} {kind : String} {v : Value} (h : v.Legible limit) :
    (Json.Value.variant kind v).Legible (limit + 1) :=
  .object (List.forall_mem_singleton.mpr h)

/-- A font reference is read back from what is written for it. -/
theorem FontRef.faithful (f : FontRef) : Faithful 1 ofJson? f.toJson f := by
  cases f with
  | role name => exact ⟨Value.Legible.variant (.text name), rfl⟩
  | face name => exact ⟨Value.Legible.variant (.text name), rfl⟩

/-- A colour reference is read back from what is written for it. -/
theorem ColorRef.faithful {c : ColorRef} (h : ∀ s ∈ c.scalars, s.Portable) :
    Faithful 1 ofJson? c.toJson c := by
  cases c with
  | role name => exact ⟨Value.Legible.variant (.text name), rfl⟩
  | literal color =>
    have hcolor := (List.forall_mem_singleton.mp h).color 0
    refine ⟨Value.Legible.variant hcolor.legible, ?_⟩
    show (Color.ofJson? color.toJson).map ColorRef.literal = _
    rw [hcolor.reads, Option.map_some]

/-- A colour that may be left out. -/
theorem optional_colorRef {c : Option ColorRef}
    (h : ∀ s ∈ c.toList.flatMap ColorRef.scalars, s.Portable) (limit : Nat) :
    FaithfulField (limit + 1) (Value.optional ColorRef.ofJson?) (c.map ColorRef.toJson) c := by
  rw [List.forall_mem_flatMap] at h
  apply FaithfulField.optional
  · intro a ha
    exact (ColorRef.faithful (h a (Option.mem_toList.mpr ha))).mono (Nat.le_add_left 1 limit)
  · intro a _
    cases a <;> nofun

end Folio

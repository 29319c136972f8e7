import Folio.Deck.Interpolation
import Folio.Proofs.Outcome

/-!
# Readings of a template

A template reads as literals, each before a name in braces, then a last literal, and then perhaps
a brace that is never closed with everything behind it. Every text has exactly one such reading.
Filling the text puts the values of an item in the places of the names and keeps the rest as it
is; the first name without a value is the error.
-/

namespace Folio

/-- The value that a name stands for on the card of an item; its label goes by the name `label`. -/
def GridItem.value? (item : GridItem) (name : String) : Option String :=
  if name = "label" then some item.label else item.get? name

namespace Template

/-- A literal and the name in braces behind it. -/
structure Piece where
  /-- The text before the brace. -/
  literal : List Char
  /-- The text between the braces. -/
  name : List Char
  deriving DecidableEq

/-- The text of a piece. -/
def Piece.text (p : Piece) : List Char := p.literal ++ '\x7b' :: (p.name ++ ['\x7d'])

/-- A text taken apart at the braces that stand for values. -/
structure Reading where
  /-- The literals and names in their order. -/
  pieces : List Piece
  /-- The literal behind the last name. -/
  last : List Char
  /-- What begins with a brace that is never closed. -/
  tail : List Char
  deriving DecidableEq

namespace Reading

/-- The text that is read. -/
def text (r : Reading) : List Char := r.pieces.flatMap Piece.text ++ (r.last ++ r.tail)

/-- The names in their order. -/
def names (r : Reading) : List String := r.pieces.map fun p => String.ofList p.name

/-- The text with values in the places of the names. -/
def filled (r : Reading) (values : List String) : List Char :=
  (r.pieces.zipWith (fun p value => p.literal ++ value.toList) values).flatten ++
    (r.last ++ r.tail)

/-- A reading of a text: no literal has a brace that opens, no name has one that closes, and what is
left from a brace that opens has none that closes. -/
structure Reads (r : Reading) (text : List Char) : Prop where
  text_eq : r.text = text
  literal : ∀ p ∈ r.pieces, '\x7b' ∉ p.literal
  name : ∀ p ∈ r.pieces, '\x7d' ∉ p.name
  last : '\x7b' ∉ r.last
  tail : r.tail = [] ∨ r.tail.head? = some '\x7b' ∧ '\x7d' ∉ r.tail

/-- One more character before a reading. -/
def push (c : Char) (r : Reading) : Reading :=
  match r.pieces with
  | [] => { r with last := c :: r.last }
  | p :: rest => { r with pieces := { p with literal := c :: p.literal } :: rest }

/-- One more name before a reading. -/
def named (name : List Char) (r : Reading) : Reading :=
  { r with pieces := ⟨[], name⟩ :: r.pieces }

end Reading

/-- Takes a text apart. -/
def read : List Char → Reading
  | [] => ⟨[], [], []⟩
  | c :: rest =>
    if c = '\x7b' then
      match _h : closing? rest with
      | some (name, rest) => (read rest).named name
      | none => ⟨[], [], c :: rest⟩
    else (read rest).push c
termination_by text => text.length
decreasing_by
  · exact Nat.lt_succ_of_lt (length_lt_of_closing? _h)
  · exact Nat.lt_succ_self _

/-- No brace closes in a text without one. -/
theorem closing?_eq_none_iff {text : List Char} : closing? text = none ↔ '\x7d' ∉ text := by
  induction text with
  | nil => simp [closing?]
  | cons c text ih =>
    rw [closing?, List.mem_cons, not_or]
    split
    · rename_i hc
      simp [hc]
    · rename_i hc
      rw [Option.map_eq_none_iff, ih, and_iff_right (Ne.symm hc)]

/-- A name ends before the first brace that closes. -/
theorem closing?_eq_some_iff {text name rest : List Char} :
    closing? text = some (name, rest) ↔ text = name ++ '\x7d' :: rest ∧ '\x7d' ∉ name := by
  induction text generalizing name with
  | nil => simp [closing?]
  | cons c text ih =>
    rw [closing?]
    split
    · rename_i hc
      subst hc
      constructor
      · intro h
        cases h
        exact ⟨rfl, List.not_mem_nil⟩
      · rintro ⟨htext, hname⟩
        cases name with
        | nil =>
          cases htext
          rfl
        | cons c' name =>
          cases htext
          exact absurd List.mem_cons_self hname
    · rename_i hc
      constructor
      · intro h
        obtain ⟨⟨name', rest'⟩, hrest, heq⟩ := Option.map_eq_some_iff.mp h
        cases heq
        obtain ⟨htext, hname⟩ := ih.mp hrest
        exact ⟨congrArg (c :: ·) htext, List.not_mem_cons_of_ne_of_not_mem (Ne.symm hc) hname⟩
      · rintro ⟨htext, hname⟩
        cases name with
        | nil =>
          cases htext
          exact absurd rfl hc
        | cons c' name =>
          cases htext
          rw [ih.mpr ⟨rfl, List.not_mem_of_not_mem_cons hname⟩]
          rfl

namespace Reading

variable {r : Reading} {text : List Char}

/-- A character in front of a reading brings in no name. -/
theorem names_push (c : Char) (r : Reading) : (r.push c).names = r.names := by
  unfold push names
  cases r.pieces <;> rfl

/-- A character in front of a reading is filled in as it is. -/
theorem filled_push {c : Char} {values : List String} (h : r.names.length = values.length) :
    (r.push c).filled values = c :: r.filled values := by
  unfold push filled
  unfold names at h
  cases hpieces : r.pieces with
  | nil => simp
  | cons p rest =>
    cases values with
    | nil => simp [hpieces] at h
    | cons value values => rfl

/-- A name in front of a reading is filled in with its value. -/
theorem filled_named (name : List Char) (r : Reading) (value : String) (values : List String) :
    (r.named name).filled (value :: values) = value.toList ++ r.filled values := by
  simp [named, filled]

/-- A reading goes on to the left with any character that opens no brace. -/
theorem Reads.push {c : Char} (h : r.Reads text) (hc : c ≠ '\x7b') :
    (r.push c).Reads (c :: text) := by
  obtain ⟨rfl, hliteral, hname, hlast, htail⟩ := h
  unfold Reading.push
  cases hpieces : r.pieces with
  | nil =>
    refine ⟨by simp only [Reading.text, hpieces]; rfl, ?_, ?_, ?_, htail⟩
    · simp
    · simp
    · exact List.not_mem_cons_of_ne_of_not_mem (Ne.symm hc) hlast
  | cons p rest =>
    rw [hpieces] at hliteral hname
    obtain ⟨hp, hrest⟩ := List.forall_mem_cons.mp hliteral
    refine ⟨by simp only [Reading.text, hpieces]; rfl, ?_, List.forall_mem_cons.mpr ?_, hlast,
      htail⟩
    · refine List.forall_mem_cons.mpr ⟨?_, hrest⟩
      exact List.not_mem_cons_of_ne_of_not_mem (Ne.symm hc) hp
    · exact List.forall_mem_cons.mp hname

/-- A reading goes on to the left with a name in braces. -/
theorem Reads.named {name : List Char} (h : r.Reads text) (hclosed : '\x7d' ∉ name) :
    (r.named name).Reads ('\x7b' :: (name ++ '\x7d' :: text)) := by
  obtain ⟨rfl, hliteral, hname, hlast, htail⟩ := h
  refine ⟨?_, List.forall_mem_cons.mpr ⟨List.not_mem_nil, hliteral⟩,
    List.forall_mem_cons.mpr ⟨hclosed, hname⟩, hlast, htail⟩
  simp [Reading.text, Reading.named, Piece.text]

end Reading

/-- Every text is read by taking it apart. -/
theorem reads_read (text : List Char) : (read text).Reads text := by
  fun_induction read text with
  | case1 => exact ⟨rfl, nofun, nofun, List.not_mem_nil, .inl rfl⟩
  | case2 text name rest hclosing ih =>
    obtain ⟨rfl, hname⟩ := closing?_eq_some_iff.mp hclosing
    exact ih.named hname
  | case3 text hclosing =>
    refine ⟨rfl, nofun, nofun, List.not_mem_nil, .inr ⟨rfl, ?_⟩⟩
    exact List.not_mem_cons_of_ne_of_not_mem (by decide) (closing?_eq_none_iff.mp hclosing)
  | case4 c text hc ih => exact ih.push hc

/-- A brace that closes again is read as a name. -/
theorem read_of_closing {rest name behind : List Char} (h : closing? rest = some (name, behind)) :
    read ('\x7b' :: rest) = (read behind).named name := by
  rw [read, if_pos rfl]
  split
  · rename_i h'
    cases h.symm.trans h'
    rfl
  · rename_i h'
    cases h.symm.trans h'

/-- A brace that does not close is read as the tail. -/
theorem read_of_not_closing {rest : List Char} (h : closing? rest = none) :
    read ('\x7b' :: rest) = ⟨[], [], '\x7b' :: rest⟩ := by
  rw [read, if_pos rfl]
  split
  · rename_i h'
    cases h.symm.trans h'
  · rfl

/-- Any other character is read as it is. -/
theorem read_of_ne {c : Char} (rest : List Char) (h : c ≠ '\x7b') :
    read (c :: rest) = (read rest).push c := by
  rw [read, if_neg h]

/-- A literal is read character by character. -/
theorem read_literal {l : List Char} (text : List Char) (h : '\x7b' ∉ l) :
    read (l ++ text) = l.foldr Reading.push (read text) := by
  induction l with
  | nil => rfl
  | cons c l ih =>
    have hc : c ≠ '\x7b' := fun hc => h (hc ▸ List.mem_cons_self)
    rw [List.cons_append, read_of_ne _ hc, ih (List.not_mem_of_not_mem_cons h)]
    rfl

/-- Characters in front of a name belong to its piece. -/
theorem foldr_push_named (l name : List Char) (r : Reading) :
    l.foldr Reading.push (r.named name) = { r with pieces := ⟨l, name⟩ :: r.pieces } := by
  induction l with
  | nil => rfl
  | cons c l ih =>
    rw [List.foldr_cons, ih]
    rfl

/-- Characters in front of the tail are text. -/
theorem foldr_push_tail (l tail : List Char) :
    l.foldr Reading.push ⟨[], [], tail⟩ = ⟨[], l, tail⟩ := by
  induction l with
  | nil => rfl
  | cons c l ih =>
    rw [List.foldr_cons, ih]
    rfl

/-- What is never closed is left as it is. -/
theorem read_tail {tail : List Char}
    (h : tail = [] ∨ tail.head? = some '\x7b' ∧ '\x7d' ∉ tail) : read tail = ⟨[], [], tail⟩ := by
  cases tail with
  | nil => rw [read]
  | cons c rest =>
    obtain ⟨hc, hopen⟩ := h.resolve_left (List.cons_ne_nil c rest)
    cases hc
    exact read_of_not_closing (closing?_eq_none_iff.mpr (List.not_mem_of_not_mem_cons hopen))

/-- A text has no other reading. -/
theorem Reading.Reads.eq_read {r : Reading} {text : List Char} (h : r.Reads text) :
    r = read text := by
  obtain ⟨rfl, hliteral, hname, hlast, htail⟩ := h
  obtain ⟨pieces, last, tail⟩ := r
  induction pieces with
  | nil =>
    rw [Reading.text, List.flatMap_nil, List.nil_append, read_literal _ hlast, read_tail htail,
      foldr_push_tail]
  | cons p pieces ih =>
    obtain ⟨hp, hliteral⟩ := List.forall_mem_cons.mp hliteral
    obtain ⟨hn, hname⟩ := List.forall_mem_cons.mp hname
    have hrest := ih hliteral hname hlast htail
    -- the first piece decides how the text is taken apart up to its closing brace
    have htext : Reading.text ⟨p :: pieces, last, tail⟩ =
        p.literal ++ '\x7b' :: (p.name ++ '\x7d' :: Reading.text ⟨pieces, last, tail⟩) := by
      simp [Reading.text, Piece.text]
    rw [htext, read_literal _ hp, read_of_closing (closing?_eq_some_iff.mpr ⟨rfl, hn⟩), ← hrest,
      foldr_push_named]

section

variable {item : GridItem}

/-- A name with a value is looked up as that value. -/
theorem lookup_of_value?_eq_some {name value : String} (h : item.value? name = some value) :
    item.lookup name = .ok value := by
  unfold GridItem.value? at h
  unfold GridItem.lookup
  split at h
  · rename_i hlabel
    cases h
    rw [if_pos hlabel]
  · rename_i hlabel
    rw [if_neg hlabel, h]

/-- A name without a value is a missing field. -/
theorem lookup_of_value?_eq_none {name : String} (h : item.value? name = none) :
    item.lookup name = .error (.missingField item.index name) := by
  unfold GridItem.value? at h
  unfold GridItem.lookup
  split at h
  · cases h
  · rename_i hlabel
    rw [if_neg hlabel, h]

/-- A text is filled with the values of its names. -/
theorem fill_eq_ok {text : List Char} {values : List String}
    (h : List.Forall₂ (fun name value => item.value? name = some value) (read text).names values) :
    fill item text = .ok ((read text).filled values) := by
  fun_induction fill item text generalizing values with
  | case1 =>
    rw [read] at h ⊢
    cases h
    rfl
  | case2 text name rest hclosing ih =>
    rw [read_of_closing hclosing] at h ⊢
    cases h with
    | cons hvalue hvalues =>
      rw [lookup_of_value?_eq_some hvalue, ih hvalues, Reading.filled_named]
      rfl
  | case3 text hclosing =>
    rw [read_of_not_closing hclosing] at h ⊢
    cases h
    rfl
  | case4 c text hc ih =>
    rw [read_of_ne _ hc] at h ⊢
    rw [Reading.names_push] at h
    rw [ih h, Reading.filled_push h.length_eq]
    rfl

/-- The first name without a value is the error. -/
theorem fill_eq_error {text : List Char} {before after : List String} {name : String}
    (h : (read text).names = before ++ name :: after)
    (hbefore : ∀ n ∈ before, (item.value? n).isSome) (hname : item.value? name = none) :
    fill item text = .error (.missingField item.index name) := by
  fun_induction fill item text generalizing before with
  | case1 =>
    rw [read] at h
    exact absurd h.symm (List.append_ne_nil_of_right_ne_nil _ (List.cons_ne_nil _ _))
  | case2 text first rest hclosing ih =>
    rw [read_of_closing hclosing] at h
    cases before with
    | nil =>
      obtain ⟨rfl, _⟩ := List.cons.inj h
      rw [lookup_of_value?_eq_none hname]
      rfl
    | cons n before =>
      obtain ⟨rfl, hrest⟩ := List.cons.inj h
      obtain ⟨hfirst, hbefore⟩ := List.forall_mem_cons.mp hbefore
      obtain ⟨value, hvalue⟩ := Option.isSome_iff_exists.mp hfirst
      rw [lookup_of_value?_eq_some hvalue, ih hrest hbefore]
      rfl
  | case3 text hclosing =>
    rw [read_of_not_closing hclosing] at h
    exact absurd h.symm (List.append_ne_nil_of_right_ne_nil _ (List.cons_ne_nil _ _))
  | case4 c text hc ih =>
    rw [read_of_ne _ hc, Reading.names_push] at h
    rw [ih h hbefore]
    rfl

end

end Template

/-- A template has exactly one reading, and filling it with the values of an item succeeds exactly
when each of its names stands for a value. Then the values stand in the places of the names, as
they are, and all other text is kept; otherwise the first name that stands for none is the error. -/
theorem GridItem.interpolate_by_reading (item : GridItem) (template : String) :
    (∃! r : Template.Reading, r.Reads template.toList) ∧
      ∀ r : Template.Reading, r.Reads template.toList →
        (∀ values, List.Forall₂ (fun name value => item.value? name = some value) r.names values →
          item.interpolate template = .ok (String.ofList (r.filled values))) ∧
        ∀ before name after, r.names = before ++ name :: after →
          (∀ n ∈ before, (item.value? n).isSome) → item.value? name = none →
          item.interpolate template = .error (.missingField item.index name) := by
  refine ⟨⟨_, Template.reads_read _, fun r hr => hr.eq_read⟩, fun r hr => ?_⟩
  obtain rfl := hr.eq_read
  unfold interpolate
  constructor
  · intro values hvalues
    rw [Template.fill_eq_ok hvalues]
    rfl
  · intro before name after hnames hbefore hname
    rw [Template.fill_eq_error hnames hbefore hname]
    rfl

/-- An item with a value whose name and text have braces in them. -/
def GridItem.badge : GridItem :=
  { index := 4, label := "Zoë", fields := Dict.empty.insert "\x7ba" "\x7blabel\x7d" }

/-- A brace that opens belongs to the name before which another one opens, one that closes nothing
stands for itself, a value in braces stays as it is, and so does what is never closed. -/
theorem GridItem.interpolate_by_reading_badge :
    (∃! r : Template.Reading, r.Reads "é\x7d\x7b\x7ba\x7d-\x7blabel\x7d\x7bb".toList) ∧
      badge.interpolate "é\x7d\x7b\x7ba\x7d-\x7blabel\x7d\x7bb" =
        .ok "é\x7d\x7blabel\x7d-Zoë\x7bb" ∧
      badge.interpolate "\x7blabel\x7d \x7bport\x7d" = .error (.missingField 4 "port") := by
  let r : Template.Reading :=
    ⟨[⟨['é', '\x7d'], ['\x7b', 'a']⟩, ⟨['-'], "label".toList⟩], [], ['\x7b', 'b']⟩
  let missing : Template.Reading := ⟨[⟨[], "label".toList⟩, ⟨[' '], "port".toList⟩], [], []⟩
  have hr : r.Reads "é\x7d\x7b\x7ba\x7d-\x7blabel\x7d\x7bb".toList :=
    ⟨by decide +kernel, by decide, by decide, by decide, by decide⟩
  have hmissing : missing.Reads "\x7blabel\x7d \x7bport\x7d".toList :=
    ⟨by decide +kernel, by decide, by decide, by decide, by decide⟩
  obtain ⟨hunique, hreading⟩ :=
    interpolate_by_reading badge "é\x7d\x7b\x7ba\x7d-\x7blabel\x7d\x7bb"
  refine ⟨hunique, ?_, ?_⟩
  · exact (hreading r hr).1 ["\x7blabel\x7d", "Zoë"]
      (.cons (by decide +kernel) (.cons (by decide +kernel) .nil))
  · exact ((interpolate_by_reading badge _).2 missing hmissing).2 ["label"] "port" []
      (by decide +kernel) (by decide +kernel) (by decide +kernel)

end Folio

import Folio.Proofs.Json.Scanning

/-!
# Reading what is written

A value is legible within some number of containers when its numbers are written well and have a
value, no part of it is unreadable, and it nests no deeper. With any blanks the text of a legible
value spells the tokens of its parts, and building from these tokens gives the value back where the
containers around leave room. Main statement: `Value.Legible.parse?_print`.
-/

namespace Folio.Json.Value

open Token

/-- A value that nests at most `limit` containers and of which every part can be read. -/
inductive Legible : Nat → Value → Prop where
  | null {limit : Nat} : Legible limit .null
  | bool {limit : Nat} (b : Bool) : Legible limit (.bool b)
  | number {limit : Nat} {n : Numeral} : n.WellFormed → n.inRange = true →
      Legible limit (.number n)
  | text {limit : Nat} (s : String) : Legible limit (.text s)
  | array {limit : Nat} {items : List Value} : (∀ v ∈ items, Legible limit v) →
      Legible (limit + 1) (.array items)
  | object {limit : Nat} {members : List (String × Value)} : (∀ m ∈ members, Legible limit m.2) →
      Legible (limit + 1) (.object members)

/-- What can be read within a limit can be read within a greater one. -/
theorem Legible.mono {v : Value} {limit limit' : Nat} (h : v.Legible limit)
    (hle : limit ≤ limit') : v.Legible limit' := by
  induction h generalizing limit' with
  | null => exact .null
  | bool b => exact .bool b
  | number hn hrange => exact .number hn hrange
  | text s => exact .text s
  | array _ ih =>
    obtain ⟨limit', rfl⟩ := Nat.exists_eq_add_of_le' (Nat.le_trans (Nat.le_add_left 1 _) hle)
    exact .array fun v hv => ih v hv (Nat.le_of_succ_le_succ hle)
  | object _ ih =>
    obtain ⟨limit', rfl⟩ := Nat.exists_eq_add_of_le' (Nat.le_trans (Nat.le_add_left 1 _) hle)
    exact .object fun m hm => ih m hm (Nat.le_of_succ_le_succ hle)

mutual

/-- The tokens of a value; a part without a value is `null`. -/
def tokens : Value → List Token
  | .null => [.null]
  | .bool b => [.bool b]
  | .number n => [.number n]
  | .text s => [.text (some s)]
  | .array [] => [.openArray, .closeArray]
  | .array (v :: rest) => .openArray :: (v.tokens ++ (itemTokens rest ++ [.closeArray]))
  | .object [] => [.openObject, .closeObject]
  | .object ((name, v) :: rest) =>
    .openObject :: .text (some name) :: .colon ::
      (v.tokens ++ (memberTokens rest ++ [.closeObject]))
  | .unreadable => [.null]

/-- The tokens of the items after the first. -/
def itemTokens : List Value → List Token
  | [] => []
  | v :: rest => .comma :: (v.tokens ++ itemTokens rest)

/-- The tokens of the members after the first. -/
def memberTokens : List (String × Value) → List Token
  | [] => []
  | (name, v) :: rest =>
    .comma :: .text (some name) :: .colon :: (v.tokens ++ memberTokens rest)

end

section

variable {spacing : Spacing} {text : List Char} {ts : List Token}

/-- A line break consists of blanks. -/
theorem isSpace_of_mem_lineBreak {level : Nat} :
    ∀ c ∈ spacing.lineBreak level, isSpace c = true := by
  cases spacing with
  | compact => exact List.forall_mem_nil _
  | pretty =>
    refine List.forall_mem_cons.mpr ⟨rfl, fun c hc => ?_⟩
    rw [List.eq_of_mem_replicate hc]
    rfl

/-- A mark ends what is open, also on a line of its own. -/
theorem ended_lineBreak {c : Char} (hc : EndsOpen c) (level : Nat) (text : List Char) :
    Ended (spacing.lineBreak level ++ c :: text) := by
  cases spacing with
  | compact => exact ended_cons hc text
  | pretty => exact ended_cons ⟨rfl, rfl⟩ _

/-- The items that follow another one begin with a mark or a blank, which ends it. -/
theorem ended_renderItems {items : List Value} {level : Nat} (h : Ended text) :
    Ended (renderItems spacing level items ++ text) := by
  cases items with
  | nil => exact h
  | cons v items => exact ended_cons ⟨rfl, rfl⟩ _

/-- The members that follow another one begin with a mark or a blank, which ends it. -/
theorem ended_renderMembers {members : List (String × Value)} {level : Nat} (h : Ended text) :
    Ended (renderMembers spacing level members ++ text) := by
  cases members with
  | nil => exact h
  | cons m members => exact ended_cons ⟨rfl, rfl⟩ _

/-- A colon and the blank that may follow it are one token. -/
theorem spells_colon (htext : Spells text ts) : Spells (spacing.colon ++ text) (.colon :: ts) := by
  cases spacing with
  | compact => exact .mark rfl htext
  | pretty => exact .mark rfl (.blanks (List.forall_mem_singleton.mpr rfl) htext)

/-- A value spells its tokens at any level. -/
def SpellsTokens (spacing : Spacing) (v : Value) : Prop :=
  ∀ (level : Nat) (text : List Char) (ts : List Token), Spells text ts → Ended text →
    Spells (v.render spacing level ++ text) (v.tokens ++ ts)

/-- Items spell the tokens of each of them, with commas between. -/
theorem spells_renderItems {items : List Value} (h : ∀ v ∈ items, SpellsTokens spacing v)
    (level : Nat) (htext : Spells text ts) (hended : Ended text) :
    Spells (renderItems spacing level items ++ text) (itemTokens items ++ ts) := by
  induction items with
  | nil => exact htext
  | cons v items ih =>
    obtain ⟨hv, hitems⟩ := List.forall_mem_cons.mp h
    unfold renderItems itemTokens
    simp only [List.cons_append, List.append_assoc]
    exact .mark rfl (.blanks isSpace_of_mem_lineBreak
      (hv level _ _ (ih hitems) (ended_renderItems hended)))

/-- Members spell the tokens of each of them, with commas between. -/
theorem spells_renderMembers {members : List (String × Value)}
    (h : ∀ m ∈ members, SpellsTokens spacing m.2) (level : Nat) (htext : Spells text ts)
    (hended : Ended text) :
    Spells (renderMembers spacing level members ++ text) (memberTokens members ++ ts) := by
  induction members with
  | nil => exact htext
  | cons m members ih =>
    obtain ⟨hv, hmembers⟩ := List.forall_mem_cons.mp h
    unfold renderMembers memberTokens
    simp only [List.cons_append, List.append_assoc]
    refine .mark rfl (.blanks isSpace_of_mem_lineBreak (.quote m.1 (spells_colon ?_)))
    exact hv level _ _ (ih hmembers) (ended_renderMembers hended)

/-- The text of a legible value spells its tokens. -/
theorem Legible.spells {v : Value} {limit : Nat} (h : v.Legible limit) (spacing : Spacing) :
    SpellsTokens spacing v := by
  induction h with
  | null =>
    exact fun _ _ _ htext hended => .word (fun _ => rfl) rfl rfl htext hended
  | bool b =>
    cases b with
    | true => exact fun _ _ _ htext hended => .word (fun _ => rfl) rfl rfl htext hended
    | false => exact fun _ _ _ htext hended => .word (fun _ => rfl) rfl rfl htext hended
  | number hn _ => exact fun _ _ _ htext hended => .numeral hn htext hended
  | text s => exact fun _ _ _ htext _ => .quote s htext
  | @array _ items _ ih =>
    intro level text ts htext _
    cases items with
    | nil => exact .mark rfl (.mark rfl htext)
    | cons v items =>
      obtain ⟨hv, hitems⟩ := List.forall_mem_cons.mp ih
      have hclose : Spells (spacing.lineBreak level ++ ']' :: text) (.closeArray :: ts) :=
        .blanks isSpace_of_mem_lineBreak (.mark rfl htext)
      have hended : Ended (spacing.lineBreak level ++ ']' :: text) :=
        ended_lineBreak ⟨rfl, rfl⟩ level text
      have hitems := spells_renderItems hitems (level + 1) hclose hended
      unfold render tokens
      simp only [List.cons_append, List.append_assoc, List.nil_append]
      exact .mark rfl (.blanks isSpace_of_mem_lineBreak
        (hv (level + 1) _ _ hitems (ended_renderItems hended)))
  | @object _ members _ ih =>
    intro level text ts htext _
    cases members with
    | nil => exact .mark rfl (.mark rfl htext)
    | cons m members =>
      obtain ⟨hv, hmembers⟩ := List.forall_mem_cons.mp ih
      have hclose : Spells (spacing.lineBreak level ++ '\x7d' :: text) (.closeObject :: ts) :=
        .blanks isSpace_of_mem_lineBreak (.mark rfl htext)
      have hended : Ended (spacing.lineBreak level ++ '\x7d' :: text) :=
        ended_lineBreak ⟨rfl, rfl⟩ level text
      have hmembers := spells_renderMembers hmembers (level + 1) hclose hended
      unfold render tokens
      simp only [List.cons_append, List.append_assoc, List.nil_append]
      exact .mark rfl (.blanks isSpace_of_mem_lineBreak (.quote m.1 (spells_colon
        (hv (level + 1) _ _ hmembers (ended_renderMembers hended)))))

end

namespace Builder

/-- The value of a tree under construction and the tokens still to come. -/
def finish? (b : Builder) (ts : List Token) : Option Value := (ts.foldlM step b).bind value?

theorem ofTokens?_eq_finish? (ts : List Token) : ofTokens? ts = start.finish? ts := rfl

/-- A token that is taken is followed by the rest. -/
theorem finish?_cons {b b' : Builder} {t : Token} (h : b.step t = some b') (ts : List Token) :
    b.finish? (t :: ts) = b'.finish? ts := by
  unfold finish?
  rw [List.foldlM_cons, h]
  rfl

/-- Where a container has few enough others around it, it has its value when it ends. -/
theorem close_eq {stack : List Frame} (h : stack.length < nestingLimit) (v : Value) :
    close stack v = ⟨.after v, stack⟩ := by
  unfold close
  rw [if_pos (isShorter_iff.mpr h)]

/-- The tokens of a value build that value within containers that leave room for `limit` more. -/
def BuildsWithin (limit : Nat) (v : Value) : Prop :=
  ∀ (stack : List Frame) (ts : List Token), stack.length + limit ≤ nestingLimit →
    finish? ⟨.value, stack⟩ (v.tokens ++ ts) = finish? ⟨.after v, stack⟩ ts

/-- The first item of an array is built like any other. -/
theorem finish?_item (v : Value) (stack : List Frame) (ts : List Token) :
    finish? ⟨.item, stack⟩ (v.tokens ++ ts) = finish? ⟨.value, stack⟩ (v.tokens ++ ts) := by
  cases v with
  | array items => cases items <;> rfl
  | object members => cases members <;> rfl
  | _ => rfl

/-- Items follow each other, and then the array ends. -/
theorem finish?_itemTokens {limit : Nat} {items : List Value}
    (h : ∀ v ∈ items, BuildsWithin limit v) {stack : List Frame}
    (hstack : stack.length + (limit + 1) ≤ nestingLimit) (v : Value) (before : List Value)
    (ts : List Token) :
    finish? ⟨.after v, .array before :: stack⟩ (itemTokens items ++ .closeArray :: ts) =
      finish? ⟨.after (.array (before.reverse ++ v :: items)), stack⟩ ts := by
  induction items generalizing v before with
  | nil =>
    have hclose : step ⟨.after v, .array before :: stack⟩ .closeArray =
        some ⟨.after (.array (before.reverse ++ [v])), stack⟩ := by
      simp only [step, takeAfter, List.reverse_cons]
      rw [close_eq (by omega)]
    exact finish?_cons hclose ts
  | cons w items ih =>
    obtain ⟨hw, hitems⟩ := List.forall_mem_cons.mp h
    have hcomma : step ⟨.after v, .array before :: stack⟩ .comma =
        some ⟨.value, .array (v :: before) :: stack⟩ := rfl
    have hroom : (Frame.array (v :: before) :: stack).length + limit ≤ nestingLimit := by
      rw [List.length_cons]
      omega
    unfold itemTokens
    rw [List.cons_append, finish?_cons hcomma, List.append_assoc, hw _ _ hroom, ih hitems,
      List.reverse_cons, List.append_assoc, List.singleton_append]

/-- Members follow each other, and then the object ends. -/
theorem finish?_memberTokens {limit : Nat} {members : List (String × Value)}
    (h : ∀ m ∈ members, BuildsWithin limit m.2) {stack : List Frame}
    (hstack : stack.length + (limit + 1) ≤ nestingLimit) (name : String) (v : Value)
    (before : List (String × Value)) (ts : List Token) :
    finish? ⟨.after v, .object before true (some name) :: stack⟩
        (memberTokens members ++ .closeObject :: ts) =
      finish? ⟨.after (.object (before.reverse ++ (name, v) :: members)), stack⟩ ts := by
  induction members generalizing name v before with
  | nil =>
    have hclose : step ⟨.after v, .object before true (some name) :: stack⟩ .closeObject =
        some ⟨.after (.object (before.reverse ++ [(name, v)])), stack⟩ := by
      simp only [step, takeAfter, closeObject, ite_true, List.reverse_cons, Option.getD_some]
      rw [close_eq (by omega)]
    exact finish?_cons hclose ts
  | cons m members ih =>
    obtain ⟨name', w⟩ := m
    obtain ⟨hw, hmembers⟩ := List.forall_mem_cons.mp h
    have hroom : (Frame.object ((name, v) :: before) true (some name') :: stack).length + limit ≤
        nestingLimit := by
      rw [List.length_cons]
      omega
    -- a comma, the name and a colon come before the next value
    have hnext (ts : List Token) :
        finish? ⟨.after v, .object before true (some name) :: stack⟩
            (.comma :: .text (some name') :: .colon :: ts) =
          finish? ⟨.value, .object ((name, v) :: before) true (some name') :: stack⟩ ts := rfl
    unfold memberTokens
    rw [List.cons_append, List.cons_append, List.cons_append, hnext, List.append_assoc,
      hw _ _ hroom, ih hmembers, List.reverse_cons, List.append_assoc, List.singleton_append]

end Builder

open Builder in
/-- The tokens of a legible value build that value. -/
theorem Legible.buildsWithin {v : Value} {limit : Nat} (h : v.Legible limit) :
    BuildsWithin limit v := by
  induction h with
  | null => exact fun _ _ _ => rfl
  | bool b => exact fun _ _ _ => rfl
  | @number _ n _ hrange =>
    intro stack ts _
    have hstep : step ⟨.value, stack⟩ (.number n) = some ⟨.after (.number n), stack⟩ := by
      simp only [step, beginValue, literal?, hrange, ite_true, Option.map_some]
    exact finish?_cons hstep ts
  | text s => exact fun _ _ _ => rfl
  | @array limit items _ ih =>
    intro stack ts hstack
    cases items with
    | nil =>
      have hclose : step ⟨.item, .array [] :: stack⟩ .closeArray =
          some ⟨.after (.array []), stack⟩ := by
        simp only [step]
        rw [close_eq (by omega)]
      exact finish?_cons hclose ts
    | cons v items =>
      obtain ⟨hv, hitems⟩ := List.forall_mem_cons.mp ih
      have hopen (ts : List Token) : finish? ⟨.value, stack⟩ (.openArray :: ts) =
          finish? ⟨.item, .array [] :: stack⟩ ts := rfl
      have hroom : (Frame.array [] :: stack).length + limit ≤ nestingLimit := by
        rw [List.length_cons]
        omega
      unfold tokens
      rw [List.cons_append, hopen, List.append_assoc, List.append_assoc, finish?_item,
        hv _ _ hroom, List.singleton_append, finish?_itemTokens hitems hstack]
      rfl
  | @object limit members _ ih =>
    intro stack ts hstack
    cases members with
    | nil =>
      have hclose : step ⟨.member, .object [] true none :: stack⟩ .closeObject =
          some ⟨.after (.object []), stack⟩ := by
        simp only [step]
        rw [close_eq (by omega)]
      exact finish?_cons hclose ts
    | cons m members =>
      obtain ⟨name, v⟩ := m
      obtain ⟨hv, hmembers⟩ := List.forall_mem_cons.mp ih
      have hopen (ts : List Token) :
          finish? ⟨.value, stack⟩ (.openObject :: .text (some name) :: .colon :: ts) =
            finish? ⟨.value, .object [] true (some name) :: stack⟩ ts := rfl
      have hroom : (Frame.object [] true (some name) :: stack).length + limit ≤ nestingLimit := by
        rw [List.length_cons]
        omega
      unfold tokens
      rw [List.cons_append, List.cons_append, List.cons_append, hopen, List.append_assoc,
        List.append_assoc, hv _ _ hroom, List.singleton_append,
        finish?_memberTokens hmembers hstack]
      rfl

/-- The text of a legible value is read as that value, whatever its blanks. -/
theorem Legible.parse?_print {v : Value} (h : v.Legible nestingLimit) (spacing : Spacing) :
    parse? (v.print spacing) = some v := by
  have hscan := h.spells spacing 0 [] [] .nil ended_nil
  rw [List.append_nil, List.append_nil] at hscan
  have hbuild := h.buildsWithin [] [] (Nat.le_of_eq (Nat.zero_add _))
  rw [List.append_nil] at hbuild
  unfold parse? print
  rw [String.toList_ofList, hscan.scan?_eq, Option.bind_some, Builder.ofTokens?_eq_finish?]
  exact hbuild

end Folio.Json.Value

import Folio.Json.Printer
import Folio.Proofs.Json.Numerals
import Mathlib.Tactic.SplitIfs

/-!
# Scanning what is written

A piece of text spells some tokens when scanning it adds them to the tokens before, wherever it
stands; only numerals and words need something after them that ends them. Pieces that spell tokens
are put together, so a written value spells the tokens of its parts between marks.
-/

namespace Folio.Json

namespace Token

/-- The tokens of what is done and of the text still to come. -/
def Scanner.finish? (s : Scanner) (text : List Char) : Option (List Token) := do
  let s ← text.foldlM Scanner.step s
  let s ← s.finishOpen
  return s.done.reverse

/-- Scanning runs from between tokens to the end of the text. -/
theorem scan?_eq_finish? (text : List Char) : scan? text = Scanner.start.finish? text := rfl

/-- A character that is taken is followed by the rest. -/
theorem Scanner.finish?_cons {s s' : Scanner} {c : Char} (h : s.step c = some s')
    (text : List Char) : s.finish? (c :: text) = s'.finish? text := by
  unfold finish?
  rw [List.foldlM_cons, h]
  rfl

/-- A character that ends numerals and words. -/
def EndsOpen (c : Char) : Prop := isNumeralChar c = false ∧ isWordChar c = false

/-- Nothing follows, or something that ends numerals and words. -/
def Ended (text : List Char) : Prop := ∀ c ∈ text.head?, EndsOpen c

theorem ended_nil : Ended [] := nofun

/-- A character that ends numerals and words does so whatever follows it. -/
theorem ended_cons {c : Char} (h : EndsOpen c) (text : List Char) : Ended (c :: text) := by
  rintro _ ⟨⟩
  exact h

/-- A numeral or a word is complete where the text after it ends it. -/
theorem Scanner.finish?_of_finishOpen {s : Scanner} {done : List Token}
    (h : s.finishOpen = some ⟨.between, done⟩) {text : List Char} (htext : Ended text) :
    s.finish? text = finish? ⟨.between, done⟩ text := by
  cases text with
  | nil =>
    show s.finishOpen >>= _ = some done.reverse
    rw [h]
    rfl
  | cons c text =>
    obtain ⟨hnumeral, hword⟩ := htext c rfl
    have hstep : s.step c = step ⟨.between, done⟩ c := by
      obtain ⟨mode, before⟩ := s
      cases mode with
      | between =>
        cases h
        rfl
      | number chars => simp only [step, hnumeral, h, Bool.false_eq_true, ite_false,
          Option.bind_some]
      | word chars => simp only [step, hword, h, Bool.false_eq_true, ite_false, Option.bind_some]
      | text l => cases h
      | escape l => cases h
      | unit l left value => cases h
    unfold finish?
    rw [List.foldlM_cons, List.foldlM_cons, hstep]

/-- A text that ends numerals and words still does with more behind it. -/
theorem Ended.append {text rest : List Char} (h : Ended text) (hrest : Ended rest) :
    Ended (text ++ rest) := by
  cases text with
  | nil => exact hrest
  | cons c text => exact ended_cons (h c rfl) _

/-- A mode collects the characters of some kind. -/
def Collects (mode : List Char → Mode) (isChar : Char → Bool) : Prop :=
  ∀ (before : List Char) (done : List Token) (c : Char), isChar c = true →
    Scanner.step ⟨mode before, done⟩ c = some ⟨mode (c :: before), done⟩

/-- A numeral goes on with the characters of numerals. -/
theorem collects_number : Collects .number isNumeralChar := by
  intro before done c hc
  simp only [Scanner.step, hc, ite_true]

/-- A word goes on with the characters of words. -/
theorem collects_word : Collects .word isWordChar := by
  intro before done c hc
  simp only [Scanner.step, hc, ite_true]

/-- Collected characters are kept in front of those before them, the last one first. -/
theorem Collects.finish? {mode : List Char → Mode} {isChar : Char → Bool}
    (hmode : Collects mode isChar) {done : List Token} {chars : List Char}
    (hchars : ∀ c ∈ chars, isChar c = true) (before rest : List Char) :
    Scanner.finish? ⟨mode before, done⟩ (chars ++ rest) =
      Scanner.finish? ⟨mode (chars.reverse ++ before), done⟩ rest := by
  induction chars generalizing before with
  | nil => rfl
  | cons c chars ih =>
    obtain ⟨hc, hchars⟩ := List.forall_mem_cons.mp hchars
    rw [List.cons_append, Scanner.finish?_cons (hmode before done c hc), ih hchars,
      List.reverse_cons, List.append_assoc, List.singleton_append]

/-- Scanning a text adds some tokens to those before it. -/
def Spells (text : List Char) (tokens : List Token) : Prop :=
  ∀ (done : List Token) (rest : List Char), Ended rest →
    Scanner.finish? ⟨.between, done⟩ (text ++ rest) =
      Scanner.finish? ⟨.between, tokens.reverse ++ done⟩ rest

namespace Spells

variable {text : List Char} {tokens : List Token}

/-- A text that spells some tokens is scanned as these. -/
theorem scan?_eq (h : Spells text tokens) : scan? text = some tokens := by
  have hscan := h [] [] ended_nil
  rw [List.append_nil, List.append_nil] at hscan
  rw [scan?_eq_finish?]
  refine hscan.trans ?_
  show some tokens.reverse.reverse = some tokens
  rw [List.reverse_reverse]

theorem nil : Spells [] [] := fun _ _ _ => rfl

/-- What is scanned as a token in front of any text spells that token there. -/
theorem cons {front : List Char} {t : Token} (htext : Spells text tokens)
    (h : ∀ done rest, Ended rest → Scanner.finish? ⟨.between, done⟩ (front ++ (text ++ rest)) =
      Scanner.finish? ⟨.between, t :: done⟩ (text ++ rest)) :
    Spells (front ++ text) (t :: tokens) := by
  intro done rest hrest
  rw [List.append_assoc, h done rest hrest, htext _ rest hrest, List.reverse_cons,
    List.append_assoc, List.singleton_append]

/-- Anything may follow a mark. -/
theorem mark {c : Char} {t : Token} (hmark : ofMark? c = some t) (htext : Spells text tokens) :
    Spells (c :: text) (t :: tokens) := by
  rw [← List.singleton_append]
  refine htext.cons fun done rest _ => Scanner.finish?_cons ?_ _
  unfold ofMark? at hmark
  split at hmark <;> cases hmark <;> rfl

/-- Blanks are dropped, whatever follows them. -/
theorem blanks {blanks : List Char} (hblanks : ∀ c ∈ blanks, isSpace c = true)
    (htext : Spells text tokens) : Spells (blanks ++ text) tokens := by
  induction blanks with
  | nil => exact htext
  | cons c blanks ih =>
    obtain ⟨hc, hblanks⟩ := List.forall_mem_cons.mp hblanks
    intro done rest hrest
    have hstep : Scanner.step ⟨.between, done⟩ c = some ⟨.between, done⟩ := by
      simp only [Scanner.step, Scanner.begin, hc, ite_true]
    rw [List.cons_append, List.cons_append, Scanner.finish?_cons hstep]
    exact ih hblanks done rest hrest

/-- Collected characters spell the token that they make up where the text after them ends them. -/
theorem collect {mode : List Char → Mode} {isChar : Char → Bool} (hmode : Collects mode isChar)
    {c : Char} {chars : List Char} {t : Token}
    (hbegin : ∀ done, Scanner.step ⟨.between, done⟩ c = some ⟨mode [c], done⟩)
    (hchars : ∀ c ∈ chars, isChar c = true)
    (hfinish : ∀ done,
      Scanner.finishOpen ⟨mode (c :: chars).reverse, done⟩ = some ⟨.between, t :: done⟩)
    (htext : Spells text tokens) (hended : Ended text) :
    Spells (c :: chars ++ text) (t :: tokens) := by
  refine htext.cons fun done rest hrest => ?_
  rw [List.cons_append, Scanner.finish?_cons (hbegin done), hmode.finish? hchars,
    ← List.reverse_cons]
  exact Scanner.finish?_of_finishOpen (hfinish done) (hended.append hrest)

/-- A word spells its token where the text after it ends it. -/
theorem word {c : Char} {chars : List Char} {t : Token}
    (hbegin : ∀ done, Scanner.step ⟨.between, done⟩ c = some ⟨.word [c], done⟩)
    (hchars : chars.all isWordChar = true) (hword : ofWord? (c :: chars) = some t)
    (htext : Spells text tokens) (hended : Ended text) :
    Spells (c :: chars ++ text) (t :: tokens) := by
  refine collect collects_word hbegin (List.all_eq_true.mp hchars) (fun done => ?_) htext hended
  simp only [Scanner.finishOpen, List.reverse_reverse, hword, Option.map_some, Scanner.emit]

theorem isNumeralChar_of_isDigit {c : Char} (h : Numeral.isDigit c = true) :
    isNumeralChar c = true := by
  simp only [isNumeralChar, h, Bool.true_or]

/-- A numeral is written in the characters of numerals. -/
theorem isNumeralChar_of_mem_text {n : Numeral} (h : n.WellFormed) :
    ∀ c ∈ n.text, isNumeralChar c = true := by
  have hwhole := Numeral.isDigit_of_wholeOk h.whole
  unfold Numeral.text
  simp only [List.forall_mem_append]
  refine ⟨⟨⟨?_, fun c hc => isNumeralChar_of_isDigit (hwhole c hc)⟩, ?_⟩, ?_⟩
  · cases n.negative with
    | true => exact List.forall_mem_singleton.mpr rfl
    | false => exact List.forall_mem_nil _
  · cases hfraction : n.fraction with
    | nil => exact List.forall_mem_nil _
    | cons c fraction =>
      refine List.forall_mem_cons.mpr ⟨rfl, fun d hd => isNumeralChar_of_isDigit ?_⟩
      exact h.fraction d (hfraction ▸ hd)
  · cases n.exponent with
    | none => exact List.forall_mem_nil _
    | some e =>
      refine List.forall_mem_cons.mpr ⟨rfl, List.forall_mem_cons.mpr ⟨?_, fun d hd => ?_⟩⟩
      · split <;> rfl
      · exact isNumeralChar_of_isDigit (Numeral.isDigit_of_mem_toDigits hd)

/-- A character of numerals begins a numeral. -/
theorem step_of_isNumeralChar {c : Char} (h : isNumeralChar c = true) (done : List Token) :
    Scanner.step ⟨.between, done⟩ c = some ⟨.number [c], done⟩ := by
  have hspace : isSpace c = false := by
    refine Bool.eq_false_iff.mpr fun hspace => ?_
    simp only [isSpace, Bool.or_eq_true, beq_iff_eq] at hspace
    rcases hspace with ((rfl | rfl) | rfl) | rfl <;> cases h
  have hquote : c ≠ '"' := by
    rintro rfl
    cases h
  simp only [Scanner.step, Scanner.begin, hspace, hquote, h, Bool.false_eq_true, ite_false,
    ite_true]

/-- A numeral spells its token where the text after it ends it. -/
theorem numeral {n : Numeral} (h : n.WellFormed) (htext : Spells text tokens)
    (hended : Ended text) : Spells (n.text ++ text) (.number n :: tokens) := by
  have hread := h.ofText?_text
  have hchars := isNumeralChar_of_mem_text h
  cases htext' : n.text with
  | nil =>
    rw [htext'] at hread
    cases hread
  | cons c chars =>
    rw [htext'] at hread hchars
    obtain ⟨hc, hchars⟩ := List.forall_mem_cons.mp hchars
    refine collect collects_number (step_of_isNumeralChar hc) hchars (fun done => ?_) htext hended
    simp only [Scanner.finishOpen, List.reverse_reverse, hread, Option.map_some, Scanner.emit]

/-- A hexadecimal digit counts what it was written for. -/
theorem hexValue?_hexDigit : ∀ n < 16, hexValue? (Value.hexDigit n) = some n := by
  decide

/-- The two digits of a control character count that character. -/
theorem pushUnit_digits (chars : List Char) {c : Char} (h : c.toNat < 0x20) :
    Literal.pushUnit ⟨chars, none, false⟩ (16 * (c.toNat / 16) + c.toNat % 16) =
      ⟨c :: chars, none, false⟩ := by
  rw [Nat.div_add_mod]
  have hlow : ¬(0xd800 ≤ c.toNat ∧ c.toNat < 0xdc00) := by omega
  have hhigh : ¬(0xdc00 ≤ c.toNat ∧ c.toNat < 0xe000) := by omega
  simp [Literal.pushUnit, Literal.push, hlow, hhigh]

/-- The written form of a character adds that character to the literal. -/
theorem finish?_escapeChar (chars : List Char) (done : List Token) (c : Char)
    (rest : List Char) :
    Scanner.finish? ⟨.text ⟨chars, none, false⟩, done⟩ (Value.escapeChar c ++ rest) =
      Scanner.finish? ⟨.text ⟨c :: chars, none, false⟩, done⟩ rest := by
  unfold Value.escapeChar
  split_ifs with hquote hbackslash hb hf hn hr ht hcontrol
  · subst hquote
    rfl
  · subst hbackslash
    rfl
  · subst hb
    rfl
  · subst hf
    rfl
  · subst hn
    rfl
  · subst hr
    rfl
  · subst ht
    rfl
  · have hhigh := hexValue?_hexDigit (c.toNat / 16) (by omega)
    have hlow := hexValue?_hexDigit (c.toNat % 16) (by omega)
    have hfirst : Scanner.step ⟨.unit ⟨chars, none, false⟩ 2 0, done⟩
        (Value.hexDigit (c.toNat / 16)) =
          some ⟨.unit ⟨chars, none, false⟩ 1 (c.toNat / 16), done⟩ := by
      simp [Scanner.step, hhigh]
    have hsecond : Scanner.step ⟨.unit ⟨chars, none, false⟩ 1 (c.toNat / 16), done⟩
        (Value.hexDigit (c.toNat % 16)) = some ⟨.text ⟨c :: chars, none, false⟩, done⟩ := by
      simp only [Scanner.step, hlow, Option.map_some, Nat.le_refl, ite_true,
        pushUnit_digits chars hcontrol]
    -- two zeros come before the two digits that count
    exact (Scanner.finish?_cons hfirst _).trans (Scanner.finish?_cons hsecond rest)
  · have hstep : Scanner.step ⟨.text ⟨chars, none, false⟩, done⟩ c =
        some ⟨.text ⟨c :: chars, none, false⟩, done⟩ := by
      simp [Scanner.step, hquote, hbackslash, hcontrol, Literal.push]
    exact Scanner.finish?_cons hstep rest

/-- Written characters of a string are read back as themselves. -/
theorem finish?_chars (chars : List Char) (done : List Token) (s rest : List Char) :
    Scanner.finish? ⟨.text ⟨chars, none, false⟩, done⟩ (s.flatMap Value.escapeChar ++ rest) =
      Scanner.finish? ⟨.text ⟨s.reverse ++ chars, none, false⟩, done⟩ rest := by
  induction s generalizing chars with
  | nil => rfl
  | cons c s ih =>
    rw [List.flatMap_cons, List.append_assoc, finish?_escapeChar, ih, List.reverse_cons,
      List.append_assoc, List.singleton_append]

/-- A string literal spells its text, whatever follows. -/
theorem quote (s : String) (htext : Spells text tokens) :
    Spells (Value.quote s ++ text) (.text (some s) :: tokens) := by
  refine htext.cons fun done rest _ => ?_
  have hopen : Scanner.step ⟨.between, done⟩ '"' = some ⟨.text .start, done⟩ := rfl
  unfold Value.quote
  rw [List.cons_append, Scanner.finish?_cons hopen, List.append_assoc]
  refine (finish?_chars [] done s.toList _).trans ?_
  have hclose : Scanner.step ⟨.text ⟨s.toList.reverse ++ [], none, false⟩, done⟩ '"' =
      some ⟨.between, .text (some s) :: done⟩ := by
    simp [Scanner.step, Scanner.emit, Literal.text?]
  exact Scanner.finish?_cons hclose _

end Spells

end Token

end Folio.Json

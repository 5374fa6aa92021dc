import LockExplorer.Toml.Style
import LockExplorer.Toml.Text
import Mathlib.Data.List.TakeWhile

/-!
# Strings read back as they were written

Whatever a string contains, it is written in a style from which it is read back exactly, with all
that follows left over. Only a quote must not follow directly. Characters are taken one at a time:
each is written either as itself or as an escape that stands for it. In the styles that open with
three quotes the reader looks for the closing ones at every character, so it has to be shown that
fewer than three quotes stand together wherever it looks before the end.
-/

namespace LockExplorer.Toml

/-! ## Single characters -/

theorem digit_value_hex_digit {value : Nat} (bounded : value < 16) :
    digitValue? 16 (hexDigit value) = some value := by
  revert value
  decide

theorem to_nat_lt_of_needs_escape {character : Char} (control : needsEscape character = true) :
    character.toNat < 128 := by
  simp only [needsEscape, Bool.or_eq_true, Bool.and_eq_true, decide_eq_true_eq, beq_iff_eq]
    at control
  omega

theorem escape_code {character : Char} (small : character.toNat < 128) (rest : List Char) :
    escape ('u' :: '0' :: '0' :: hexDigit (character.toNat / 16) ::
      hexDigit (character.toNat % 16) :: rest) = some (character, rest) := by
  have zero : digitValue? 16 '0' = some 0 := rfl
  have high := digit_value_hex_digit (show character.toNat / 16 < 16 by omega)
  have low := digit_value_hex_digit (show character.toNat % 16 < 16 by omega)
  have value : digitsValue? 16 0 ['0', '0', hexDigit (character.toNat / 16),
      hexDigit (character.toNat % 16)] = some character.toNat := by
    simp only [digitsValue?, zero, high, low]
    congr 1
    omega
  have valid : character.toNat.isValidChar := character.valid
  have taken : List.take 4 ('0' :: '0' :: hexDigit (character.toNat / 16) ::
      hexDigit (character.toNat % 16) :: rest) =
        ['0', '0', hexDigit (character.toNat / 16), hexDigit (character.toNat % 16)] := rfl
  change codeEscape 4 _ = _
  rw [codeEscape, if_pos (by simp), taken, value]
  dsimp only
  rw [if_pos valid, Char.ofNat_toNat]
  rfl

/-- After a backslash these characters stand for the character, and no line ends with them. -/
structure Escapes (code : List Char) (character : Char) : Prop where
  read : ∀ rest, escape (code ++ rest) = some (character, rest)
  joined : ∀ rest, continuation? (code ++ rest) = none

theorem escapes_letter {letter character : Char} (stands : letterEscape letter = some character) :
    Escapes [letter] character := by
  unfold letterEscape at stands
  split at stands <;> cases stands
  all_goals exact ⟨fun _ => rfl, fun _ => rfl⟩

theorem escapes_code {character : Char} (small : character.toNat < 128) :
    Escapes ['u', '0', '0', hexDigit (character.toNat / 16), hexDigit (character.toNat % 16)]
      character := by
  constructor
  · exact escape_code small
  · intro rest
    rfl

theorem visible_of_not_needs_escape {character : Char} (plain : needsEscape character = false) :
    character = '\n' ∨ isVisible character = true := by
  by_cases line : character = '\n'
  · exact Or.inl line
  · right
    by_cases tab : character = '\t'
    · rw [tab]
      rfl
    · simp only [needsEscape, Bool.or_eq_false_iff, Bool.and_eq_false_iff, decide_eq_false_iff_not,
        beq_eq_false_iff_ne, bne_eq_false_iff_eq, tab, line, or_false] at plain
      simp only [isVisible, Bool.or_eq_true, Bool.and_eq_true, decide_eq_true_eq]
      right
      omega

/-- A character is written as itself, and is then visible or a line feed, or as an escape. -/
theorem write_char_cases (character : Char) :
    (writeChar character = [character] ∧ character ≠ '\\' ∧
        (character = '\n' ∨ isVisible character = true)) ∨
      ∃ code, writeChar character = '\\' :: code ∧ Escapes code character := by
  unfold writeChar
  split_ifs with backspace tab feed carriage backslash control
  · rw [eq_of_beq backspace]
    exact Or.inr ⟨_, rfl, escapes_letter rfl⟩
  · rw [eq_of_beq tab]
    exact Or.inr ⟨_, rfl, escapes_letter rfl⟩
  · rw [eq_of_beq feed]
    exact Or.inr ⟨_, rfl, escapes_letter rfl⟩
  · rw [eq_of_beq carriage]
    exact Or.inr ⟨_, rfl, escapes_letter rfl⟩
  · rw [eq_of_beq backslash]
    exact Or.inr ⟨_, rfl, escapes_letter rfl⟩
  · exact Or.inr ⟨_, rfl, escapes_code (to_nat_lt_of_needs_escape control)⟩
  · refine Or.inl ⟨rfl, by simpa using backslash, visible_of_not_needs_escape ?_⟩
    simpa using control

/-- Neither a quote nor a line end is brought to the front by the way a character is written. -/
theorem head_write_char (character : Char) (rest : List Char) :
    (writeChar character ++ rest).head? = some '\\' ∨
      ((writeChar character ++ rest).head? = some character ∧
        (character = '\n' ∨ isVisible character = true)) := by
  rcases write_char_cases character with ⟨plain, _, seen⟩ | ⟨code, coded, _⟩
  · rw [plain]
    exact Or.inr ⟨rfl, seen⟩
  · rw [coded]
    exact Or.inl rfl

/-! ## Strings on one line -/

theorem basic_body_escape {code rest : List Char} {character : Char} (reversed : List Char)
    (escapes : Escapes code character) :
    basicBody reversed ('\\' :: (code ++ rest)) = basicBody (character :: reversed) rest := by
  rw [basicBody]
  split
  · next read =>
      rw [escapes.read] at read
      cases read
      rfl
  · next read =>
      rw [escapes.read] at read
      cases read

theorem basic_body_visible {character : Char} (reversed rest : List Char) (quote : character ≠ '"')
    (backslash : character ≠ '\\') (visible : isVisible character = true) :
    basicBody reversed (character :: rest) = basicBody (character :: reversed) rest := by
  rw [basicBody.eq_def]
  split
  · next same => cases same
  · next same => exact absurd (List.cons.inj same).1 quote
  · next same => exact absurd (List.cons.inj same).1 backslash
  · next same =>
      cases same
      rw [if_pos visible]

theorem basic_body_write_basic (content rest reversed : List Char) :
    basicBody reversed (writeBasic content ++ '"' :: rest) =
      some (String.ofList (reversed.reverse ++ content), rest) := by
  induction content generalizing reversed with
  | nil =>
      rw [List.append_nil]
      rw [writeBasic, List.flatMap_nil, List.nil_append, basicBody]
  | cons character content induction =>
      have onward := induction (character :: reversed)
      rw [List.reverse_cons, List.append_assoc, List.singleton_append] at onward
      rw [← onward, writeBasic, List.flatMap_cons, List.append_assoc]
      split_ifs with quote line
      · rw [eq_of_beq quote]
        exact basic_body_escape reversed
          (escapes_letter rfl)
      · rw [eq_of_beq line]
        exact basic_body_escape reversed
          (escapes_letter rfl)
      · have noQuote : character ≠ '"' := by simpa using quote
        have noLine : character ≠ '\n' := by simpa using line
        rcases write_char_cases character with ⟨plain, backslash, visible⟩ | ⟨code, coded, escapes⟩
        · rw [plain]
          exact basic_body_visible _ _ noQuote backslash (visible.resolve_left noLine)
        · rw [coded]
          exact basic_body_escape reversed escapes

theorem literal_body_self (content rest reversed : List Char)
    (noQuote : '\x27' ∉ content) (visible : ∀ character ∈ content, isVisible character = true) :
    literalBody reversed (content ++ '\x27' :: rest) =
      some (String.ofList (reversed.reverse ++ content), rest) := by
  induction content generalizing reversed with
  | nil =>
      rw [List.append_nil]
      rfl
  | cons character content induction =>
      rw [List.mem_cons, not_or] at noQuote
      have onward := induction (character :: reversed) noQuote.2
        fun other member => visible other (List.mem_cons_of_mem _ member)
      rw [List.reverse_cons, List.append_assoc, List.singleton_append] at onward
      rw [← onward, List.cons_append, literalBody.eq_def]
      split
      · next same => cases same
      · next same => exact absurd (List.cons.inj same).1.symm noQuote.1
      · next same =>
          cases same
          rw [if_pos (visible _ List.mem_cons_self)]

/-! ## Where a string over several lines is closed -/

def leading (quote : Char) (input : List Char) : Nat :=
  (input.takeWhile (· == quote)).length

theorem leading_cons_self (quote : Char) (rest : List Char) :
    leading quote (quote :: rest) = leading quote rest + 1 := by
  rw [leading, List.takeWhile_cons_of_pos (by simp)]
  rfl

theorem leading_cons_of_ne {quote character : Char} (different : character ≠ quote)
    (rest : List Char) : leading quote (character :: rest) = 0 := by
  rw [leading, List.takeWhile_cons_of_neg (by simpa using different)]
  rfl

theorem leading_of_head {quote : Char} {rest : List Char} (outside : rest.head? ≠ some quote) :
    leading quote rest = 0 := by
  cases rest with
  | nil => rfl
  | cons character rest =>
      apply leading_cons_of_ne
      simpa using outside

/-- With three quotes behind a text that has fewer in front, the text closes here if it consists of
quotes, and they belong to the string; otherwise it does not close here. -/
theorem closing_before_end {quote : Char} {written rest : List Char}
    (few : leading quote written < 3) (outside : rest.head? ≠ some quote) :
    closing? quote (written ++ quote :: quote :: quote :: rest) =
      if written.all (· == quote) then some (written, rest) else none := by
  unfold closing?
  dsimp only
  by_cases quotes : written.all (· == quote) = true
  · have all : ∀ character ∈ written, (character == quote) = true := List.all_eq_true.mp quotes
    have short : written.length < 3 := by
      rw [leading, List.takeWhile_eq_self_iff.mpr all] at few
      exact few
    have run : ((written ++ quote :: quote :: quote :: rest).takeWhile (· == quote)).length =
        written.length + 3 := by
      have after : leading quote (quote :: quote :: quote :: rest) = 3 := by
        rw [leading_cons_self, leading_cons_self, leading_cons_self, leading_of_head outside]
      rw [List.takeWhile_append_of_pos all, List.length_append]
      exact congrArg (written.length + ·) after
    have kept : min (written.length + 3 - 3) 2 = written.length := by omega
    rw [if_pos quotes, run, if_neg (by omega), kept, List.take_left, ← List.drop_drop,
      List.drop_left]
    rfl
  · -- Another character stops the run, so the three quotes behind do not count.
    have some : (written.takeWhile (· == quote)).length ≠ written.length := by
      intro whole
      exact quotes (List.all_eq_true.mpr
        (List.takeWhile_eq_self_iff.mp ((List.takeWhile_prefix _).eq_of_length whole)))
    rw [if_neg quotes, List.takeWhile_append, if_neg some, if_pos]
    exact few

theorem closing_of_ne {quote character : Char} (different : character ≠ quote)
    (rest : List Char) : closing? quote (character :: rest) = none := by
  unfold closing?
  dsimp only
  apply if_pos
  change leading quote (character :: rest) < 3
  rw [leading_cons_of_ne different]
  decide

theorem not_line_of_visible {character : Char} (visible : isVisible character = true) :
    character ≠ '\n' ∧ character ≠ '\r' := by
  constructor
  · intro line
    rw [line] at visible
    cases visible
  · intro carriage
    rw [carriage] at visible
    cases visible

theorem drop_line_end_of_visible {input : List Char}
    (visible : ∀ character ∈ input.head?, isVisible character = true) :
    dropLineEnd input = input := by
  unfold dropLineEnd
  split
  · cases visible _ rfl
  · cases visible _ rfl
  · rfl

/-- The line feed after the opening quotes is all that is dropped there. -/
theorem drop_line_end_opening_line {content body : List Char}
    (visible : '\n' ∉ content → ∀ character ∈ body.head?, isVisible character = true) :
    dropLineEnd (openingLine content ++ body) = body := by
  unfold openingLine
  by_cases several : '\n' ∈ content
  · rw [if_pos (List.contains_iff_mem.mpr several)]
    rfl
  · rw [if_neg (by simpa using several)]
    exact drop_line_end_of_visible (visible several)

/-! ## Strings over several lines between double quotes -/

theorem multiline_basic_body_closed {input kept rest : List Char} (reversed : List Char)
    (closes : closing? '"' input = some (kept, rest)) :
    multilineBasicBody reversed input = some (String.ofList (reversed.reverse ++ kept), rest) := by
  rw [multilineBasicBody.eq_def, closes]

theorem multiline_basic_body_line (reversed rest : List Char) :
    multilineBasicBody reversed ('\n' :: rest) = multilineBasicBody ('\n' :: reversed) rest := by
  rw [multilineBasicBody, closing_of_ne (by decide)]

theorem multiline_basic_body_escape {code rest : List Char} {character : Char}
    (reversed : List Char) (escapes : Escapes code character) :
    multilineBasicBody reversed ('\\' :: (code ++ rest)) =
      multilineBasicBody (character :: reversed) rest := by
  rw [multilineBasicBody, closing_of_ne (by decide)]
  dsimp only
  split
  · next joined =>
      rw [escapes.joined] at joined
      cases joined
  · split
    · next read =>
        rw [escapes.read] at read
        cases read
        rfl
    · next read =>
        rw [escapes.read] at read
        cases read

theorem multiline_basic_body_visible {character : Char} {rest : List Char} (reversed : List Char)
    (opened : closing? '"' (character :: rest) = none) (backslash : character ≠ '\\')
    (visible : isVisible character = true) :
    multilineBasicBody reversed (character :: rest) =
      multilineBasicBody (character :: reversed) rest := by
  have notLine := not_line_of_visible visible
  rw [multilineBasicBody.eq_def, opened]
  dsimp only
  split
  · next same => cases same
  · next same => exact absurd (List.cons.inj same).1 notLine.1
  · next same => exact absurd (List.cons.inj same).1 notLine.2
  · next same => exact absurd (List.cons.inj same).1 backslash
  · next same =>
      cases same
      rw [if_pos visible]

theorem write_multiline_basic_of_ne {character : Char} (different : character ≠ '"') (quotes : Nat)
    (rest : List Char) : writeMultilineBasic quotes (character :: rest) =
      writeChar character ++ writeMultilineBasic 0 rest := by
  rw [writeMultilineBasic.eq_def]
  split
  · next same => cases same
  · next same => exact absurd (List.cons.inj same).1 different
  · next same =>
      cases same
      rfl

theorem leading_write_char {character : Char} (different : character ≠ '"') (rest : List Char) :
    leading '"' (writeChar character ++ rest) = 0 := by
  apply leading_of_head
  rcases head_write_char character rest with coded | ⟨plain, _⟩
  · rw [coded]
    decide
  · rw [plain]
    simpa using different

theorem leading_write_multiline_basic (content : List Char) {quotes : Nat} (few : quotes < 3) :
    leading '"' (writeMultilineBasic quotes content) + quotes < 3 := by
  induction content generalizing quotes with
  | nil => simpa [writeMultilineBasic, leading] using few
  | cons character content induction =>
      by_cases quote : character = '"'
      · rw [quote, writeMultilineBasic]
        by_cases fewer : quotes < 2
        · have behind := induction (show quotes + 1 < 3 by omega)
          rw [if_pos fewer, leading_cons_self]
          omega
        · rw [if_neg fewer, leading_cons_of_ne (by decide)]
          omega
      · rw [write_multiline_basic_of_ne quote, leading_write_char quote]
        omega

theorem write_multiline_basic_of_quotes {content : List Char} {quotes : Nat}
    (all : (writeMultilineBasic quotes content).all (· == '"') = true) :
    writeMultilineBasic quotes content = content := by
  induction content generalizing quotes with
  | nil => rfl
  | cons character content induction =>
      by_cases quote : character = '"'
      · rw [quote, writeMultilineBasic] at all ⊢
        by_cases fewer : quotes < 2
        · rw [if_pos fewer] at all ⊢
          rw [List.all_cons, Bool.and_eq_true] at all
          rw [induction all.2]
        · rw [if_neg fewer, List.all_cons] at all
          cases all
      · rw [write_multiline_basic_of_ne quote] at all
        rcases write_char_cases character with ⟨plain, _, _⟩ | ⟨code, coded, _⟩
        · rw [plain, List.singleton_append, List.all_cons, Bool.and_eq_true, beq_iff_eq] at all
          exact absurd all.1 quote
        · rw [coded, List.cons_append, List.all_cons] at all
          cases all

theorem multiline_basic_body_write (content rest reversed : List Char) {quotes : Nat}
    (few : quotes < 3) (outside : rest.head? ≠ some '"') :
    multilineBasicBody reversed
        (writeMultilineBasic quotes content ++ '"' :: '"' :: '"' :: rest) =
      some (String.ofList (reversed.reverse ++ content), rest) := by
  induction content generalizing quotes reversed with
  | nil =>
      have closes := closing_before_end (show leading '"' [] < 3 by decide) outside
      rw [List.all_nil, if_pos rfl] at closes
      exact multiline_basic_body_closed reversed closes
  | cons character content induction =>
      have onward {quotes : Nat} (few : quotes < 3) := induction (character :: reversed) few
      rw [List.reverse_cons, List.append_assoc, List.singleton_append] at onward
      -- The count of quotes just written bounds those in front, so the string cannot close early.
      have front := leading_write_multiline_basic (character :: content) few
      have closes := closing_before_end
        (show leading '"' (writeMultilineBasic quotes (character :: content)) < 3 by omega) outside
      by_cases quote : character = '"'
      · subst quote
        by_cases fewer : quotes < 2
        · -- Quotes at the very end are read together with the ones that close the string.
          split at closes
          · next all =>
              rw [multiline_basic_body_closed reversed closes, write_multiline_basic_of_quotes all]
          · rw [writeMultilineBasic, if_pos fewer] at closes ⊢
            rw [← onward (show quotes + 1 < 3 by omega)]
            exact multiline_basic_body_visible reversed closes (by decide) rfl
        · rw [writeMultilineBasic, if_neg fewer, ← onward (show 0 < 3 by decide)]
          exact multiline_basic_body_escape reversed
            (escapes_letter rfl)
      · rw [write_multiline_basic_of_ne quote, List.append_assoc, ← onward (show 0 < 3 by decide)]
        rcases write_char_cases character with ⟨plain, backslash, line | visible⟩ |
          ⟨code, coded, escapes⟩
        · rw [plain, line]
          exact multiline_basic_body_line reversed _
        · rw [plain]
          exact multiline_basic_body_visible reversed (closing_of_ne quote _) backslash visible
        · rw [coded]
          exact multiline_basic_body_escape reversed escapes

/-! ## Strings over several lines between single quotes -/

theorem leading_add_le_longest_run (quote : Char) (current : Nat) (content : List Char) :
    leading quote content + current ≤ longestRun quote current content := by
  induction content generalizing current with
  | nil => exact Nat.le_of_eq (Nat.zero_add current)
  | cons character content induction =>
      rw [longestRun]
      by_cases same : character = quote
      · have behind := induction (current + 1)
        rw [if_pos (beq_iff_eq.mpr same), same, leading_cons_self]
        omega
      · rw [if_neg (by simpa using same), leading_cons_of_ne same, Nat.zero_add]
        exact Nat.le_max_left _ _

/-- The run at the front may be counted on from what stands before it, or from none. -/
theorem longest_run_tail (quote character : Char) (current : Nat) (content : List Char) :
    ∃ next, longestRun quote next content ≤ longestRun quote current (character :: content) := by
  rw [longestRun]
  split
  · exact ⟨current + 1, Nat.le_refl _⟩
  · exact ⟨0, Nat.le_max_right _ _⟩

theorem not_mem_of_longest_run_eq_zero {quote : Char} {current : Nat} {content : List Char}
    (none : longestRun quote current content = 0) : quote ∉ content := by
  induction content generalizing current with
  | nil => exact List.not_mem_nil
  | cons character content induction =>
      have front := leading_add_le_longest_run quote current (character :: content)
      rcases longest_run_tail quote character current content with ⟨next, behind⟩
      rw [List.mem_cons, not_or]
      constructor
      · intro same
        subst same
        rw [leading_cons_self] at front
        omega
      · exact induction (show longestRun quote next content = 0 by omega)

theorem multiline_literal_body_closed {input kept rest : List Char} (reversed : List Char)
    (closes : closing? '\x27' input = some (kept, rest)) :
    multilineLiteralBody reversed input =
      some (String.ofList (reversed.reverse ++ kept), rest) := by
  rw [multilineLiteralBody.eq_def, closes]

theorem multiline_literal_body_plain {character : Char} {rest : List Char} (reversed : List Char)
    (opened : closing? '\x27' (character :: rest) = none)
    (plain : needsEscape character = false) :
    multilineLiteralBody reversed (character :: rest) =
      multilineLiteralBody (character :: reversed) rest := by
  rw [multilineLiteralBody.eq_def, opened]
  dsimp only
  rcases visible_of_not_needs_escape plain with line | visible
  · rw [line]
    rfl
  · have notLine := not_line_of_visible visible
    split
    · next same => cases same
    · next same => exact absurd (List.cons.inj same).1 notLine.1
    · next same => exact absurd (List.cons.inj same).1 notLine.2
    · next same =>
        cases same
        rw [if_pos visible]

theorem multiline_literal_body_self {content rest : List Char} (reversed : List Char)
    {current : Nat} (short : longestRun '\x27' current content ≤ 2)
    (plain : ∀ character ∈ content, needsEscape character = false)
    (outside : rest.head? ≠ some '\x27') :
    multilineLiteralBody reversed (content ++ '\x27' :: '\x27' :: '\x27' :: rest) =
      some (String.ofList (reversed.reverse ++ content), rest) := by
  induction content generalizing current reversed with
  | nil =>
      have closes := closing_before_end (show leading '\x27' [] < 3 by decide) outside
      rw [List.all_nil, if_pos rfl] at closes
      exact multiline_literal_body_closed reversed closes
  | cons character content induction =>
      have front := leading_add_le_longest_run '\x27' current (character :: content)
      have closes := closing_before_end
        (show leading '\x27' (character :: content) < 3 by omega) outside
      split at closes
      · exact multiline_literal_body_closed reversed closes
      · rcases longest_run_tail '\x27' character current content with ⟨next, behind⟩
        have onward := induction (character :: reversed) (Nat.le_trans behind short)
          fun other member => plain other (List.mem_cons_of_mem _ member)
        rw [List.reverse_cons, List.append_assoc, List.singleton_append] at onward
        rw [← onward]
        exact multiline_literal_body_plain reversed closes (plain _ List.mem_cons_self)

/-! ## Strings in any style -/

theorem text_double {inner : List Char} (single : ∀ rest, inner ≠ '"' :: '"' :: rest) :
    text ('"' :: inner) = basicBody [] inner := by
  rw [text]
  · rfl
  · intro rest same
    exact single rest (List.cons.inj same).2
  · intro rest same
    cases same

theorem text_single {inner : List Char} (single : ∀ rest, inner ≠ '\x27' :: '\x27' :: rest) :
    text ('\x27' :: inner) = literalBody [] inner := by
  rw [text]
  · rfl
  · intro rest same
    cases same
  · intro rest same
    exact single rest (List.cons.inj same).2

/-- Two double quotes do not come first in a string on one line that is written between them. -/
theorem write_basic_ne (content : List Char) {rest : List Char} (outside : rest.head? ≠ some '"')
    (after : List Char) : writeBasic content ++ '"' :: rest ≠ '"' :: '"' :: after := by
  intro same
  cases content with
  | nil =>
      apply outside
      rw [(List.cons.inj same).2]
      rfl
  | cons character content =>
      have first := congrArg List.head? same
      rw [writeBasic, List.flatMap_cons, List.append_assoc] at first
      split_ifs at first with quote line
      · cases first
      · cases first
      · rcases head_write_char character (writeBasic content ++ '"' :: rest) with coded | ⟨plain, _⟩
        · rw [← writeBasic, coded] at first
          cases first
        · rw [← writeBasic, plain] at first
          exact quote (beq_iff_eq.mpr (Option.some.inj first))

theorem text_basic (content : List Char) {rest : List Char} (outside : rest.head? ≠ some '"') :
    text (Style.basic.write content ++ rest) = some (String.ofList content, rest) := by
  have shape : Style.basic.write content ++ rest = '"' :: (writeBasic content ++ '"' :: rest) := by
    simp [Style.write]
  rw [shape, text_double (write_basic_ne content outside), basic_body_write_basic]
  rfl

theorem text_literal {content rest : List Char} (noQuote : '\x27' ∉ content)
    (visible : ∀ character ∈ content, isVisible character = true)
    (outside : rest.head? ≠ some '\x27') :
    text (Style.literal.write content ++ rest) = some (String.ofList content, rest) := by
  have shape : Style.literal.write content ++ rest =
      '\x27' :: (content ++ '\x27' :: rest) := by
    simp [Style.write]
  have single : ∀ after, content ++ '\x27' :: rest ≠ '\x27' :: '\x27' :: after := by
    intro after same
    cases content with
    | nil =>
        apply outside
        rw [(List.cons.inj same).2]
        rfl
    | cons character content =>
        apply noQuote
        rw [(List.cons.inj same).1]
        exact List.mem_cons_self
  rw [shape, text_single single, literal_body_self content rest [] noQuote visible]
  rfl

theorem visible_head_write_multiline_basic {content : List Char} (single : '\n' ∉ content)
    (rest : List Char) :
    ∀ first ∈ (writeMultilineBasic 0 content ++ '"' :: rest).head?, isVisible first = true := by
  intro first found
  cases content with
  | nil =>
      cases found
      rfl
  | cons character content =>
      by_cases quote : character = '"'
      · subst quote
        cases found
        rfl
      · rw [write_multiline_basic_of_ne quote, List.append_assoc] at found
        rcases head_write_char character (writeMultilineBasic 0 content ++ '"' :: rest) with
          coded | ⟨plain, line | visible⟩
        · rw [coded] at found
          cases found
          rfl
        · exact absurd (line ▸ List.mem_cons_self) single
        · rw [plain] at found
          cases found
          exact visible

theorem text_multiline_basic (content : List Char) {rest : List Char}
    (outside : rest.head? ≠ some '"') :
    text (Style.multilineBasic.write content ++ rest) = some (String.ofList content, rest) := by
  have shape : Style.multilineBasic.write content ++ rest = '"' :: '"' :: '"' ::
      (openingLine content ++ (writeMultilineBasic 0 content ++ '"' :: '"' :: '"' :: rest)) := by
    simp [Style.write]
  have opened : dropLineEnd (openingLine content ++
      (writeMultilineBasic 0 content ++ '"' :: '"' :: '"' :: rest)) =
        writeMultilineBasic 0 content ++ '"' :: '"' :: '"' :: rest := by
    apply drop_line_end_opening_line
    intro single
    exact visible_head_write_multiline_basic single _
  rw [shape, text, opened, multiline_basic_body_write content rest [] (by decide) outside]
  rfl

theorem text_multiline_literal {content rest : List Char} (short : longestRun '\x27' 0 content ≤ 2)
    (plain : ∀ character ∈ content, needsEscape character = false)
    (outside : rest.head? ≠ some '\x27') :
    text (Style.multilineLiteral.write content ++ rest) = some (String.ofList content, rest) := by
  have shape : Style.multilineLiteral.write content ++ rest = '\x27' :: '\x27' :: '\x27' ::
      (openingLine content ++ (content ++ '\x27' :: '\x27' :: '\x27' :: rest)) := by
    simp [Style.write]
  have opened : dropLineEnd (openingLine content ++
      (content ++ '\x27' :: '\x27' :: '\x27' :: rest)) =
        content ++ '\x27' :: '\x27' :: '\x27' :: rest := by
    apply drop_line_end_opening_line
    intro single first found
    cases content with
    | nil =>
        cases found
        rfl
    | cons character content =>
        cases found
        rcases visible_of_not_needs_escape (plain _ List.mem_cons_self) with line | visible
        · exact absurd (line ▸ List.mem_cons_self) single
        · exact visible
  rw [shape, text, opened, multiline_literal_body_self [] short plain outside]
  rfl

/-- Every string is read back from what is written for it, as long as no quote follows directly. -/
theorem text_write_text (content : String) {rest : List Char} (double : rest.head? ≠ some '"')
    (single : rest.head? ≠ some '\x27') :
    text (writeText content ++ rest) = some (content, rest) := by
  suffices read : text ((Style.of content.toList).write content.toList ++ rest) =
      some (String.ofList content.toList, rest) by
    rwa [String.ofList_toList] at read
  generalize content.toList = content
  -- Only the styles without escapes depend on what the choice of style has ruled out.
  unfold Style.of
  dsimp only
  split_ifs with plain literal quoted spread several
  · exact text_basic content double
  · simp only [Bool.and_eq_true, Bool.not_eq_true', List.any_eq_false, Bool.not_eq_true,
      beq_iff_eq] at literal
    have noLine : '\n' ∉ content := by simpa using literal.2
    apply text_literal (not_mem_of_longest_run_eq_zero literal.1.2) _ single
    intro character member
    rcases visible_of_not_needs_escape (literal.1.1 character member) with line | visible
    · exact absurd (line ▸ member) noLine
    · exact visible
  · exact text_multiline_basic content double
  · simp only [Bool.and_eq_true, Bool.not_eq_true', List.any_eq_false, Bool.not_eq_true,
      decide_eq_true_eq] at spread
    exact text_multiline_literal spread.2 spread.1 single
  · exact text_multiline_basic content double
  · exact text_basic content double

theorem write_text_cases (content : String) :
    ∃ body, writeText content = '"' :: body ∨ writeText content = '\x27' :: body := by
  unfold writeText
  cases Style.of content.toList with
  | basic => exact ⟨_, Or.inl rfl⟩
  | literal => exact ⟨_, Or.inr rfl⟩
  | multilineBasic => exact ⟨_, Or.inl rfl⟩
  | multilineLiteral => exact ⟨_, Or.inr rfl⟩

end LockExplorer.Toml

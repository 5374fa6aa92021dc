import LockExplorer.Text
import Mathlib.Data.List.TakeWhile

/-!
# Trimmed text

Trimming takes the blanks off both ends of a text and leaves everything between them. A text that is
not blank throughout can be taken apart in one way only into blanks, a part that neither begins nor
ends with a blank, and further blanks; trimming gives that part.
-/

namespace LockExplorer.Text

/-! ## White space -/

def whiteSpaceCodes : List Nat :=
  [0x9, 0xA, 0xB, 0xC, 0xD, 0x20, 0x85, 0xA0, 0x1680, 0x2000, 0x2001, 0x2002, 0x2003, 0x2004,
    0x2005, 0x2006, 0x2007, 0x2008, 0x2009, 0x200A, 0x2028, 0x2029, 0x202F, 0x205F, 0x3000]

def IsWhiteSpace (character : Char) : Prop :=
  character.toNat ∈ whiteSpaceCodes

instance (character : Char) : Decidable (IsWhiteSpace character) :=
  inferInstanceAs (Decidable (character.toNat ∈ whiteSpaceCodes))

theorem is_blank_iff {character : Char} : isBlank character = true ↔ IsWhiteSpace character := by
  constructor
  · have controls : ∀ code ∈ List.range' 0x9 5, code ∈ whiteSpaceCodes := by decide
    have spaces : ∀ code ∈ List.range' 0x2000 11, code ∈ whiteSpaceCodes := by decide
    intro blank
    simp only [isBlank, Bool.or_eq_true, Bool.and_eq_true, decide_eq_true_eq, beq_iff_eq,
      or_assoc] at blank
    unfold IsWhiteSpace
    rcases blank with ⟨lower, upper⟩ | same | same | same | same | ⟨lower, upper⟩ | same | same |
      same | same | same
    · exact controls _ (List.mem_range'_1.mpr ⟨lower, Nat.lt_succ_of_le upper⟩)
    iterate 4 (rw [same]; decide)
    · exact spaces _ (List.mem_range'_1.mpr ⟨lower, Nat.lt_succ_of_le upper⟩)
    all_goals rw [same]; decide
  · have listed : ∀ code ∈ whiteSpaceCodes, isBlank (Char.ofNat code) = true := by decide
    intro white
    have blank := listed character.toNat white
    rwa [Char.ofNat_toNat] at blank

theorem is_blank_eq_false_iff {character : Char} :
    isBlank character = false ↔ ¬ IsWhiteSpace character := by
  rw [← is_blank_iff, Bool.not_eq_true]

def AllWhite (text : List Char) : Prop :=
  ∀ character ∈ text, IsWhiteSpace character

instance (text : List Char) : Decidable (AllWhite text) :=
  List.decidableBAll IsWhiteSpace text

theorem AllWhite.is_blank {text : List Char} (white : AllWhite text) :
    ∀ character ∈ text, isBlank character = true := by
  intro character member
  exact is_blank_iff.mpr (white character member)

theorem AllWhite.reverse {text : List Char} (white : AllWhite text) : AllWhite text.reverse := by
  intro character member
  exact white character (List.mem_reverse.mp member)

theorem is_all_blank_iff {text : List Char} : isAllBlank text = true ↔ AllWhite text := by
  simp only [isAllBlank, AllWhite, List.all_eq_true, is_blank_iff]

/-! ## One end -/

def StartsSolid (text : List Char) : Prop :=
  ∀ character ∈ text.head?, ¬ IsWhiteSpace character

theorem StartsSolid.append {text : List Char} (solid : StartsSolid text) (visible : text ≠ [])
    (after : List Char) : StartsSolid (text ++ after) := by
  rcases List.exists_cons_of_ne_nil visible with ⟨character, rest, rfl⟩
  exact solid

theorem trim_start_white {before : List Char} (white : AllWhite before) (text : List Char) :
    trimStart (before ++ text) = trimStart text :=
  List.dropWhile_append_of_pos white.is_blank

theorem trim_start_eq_self {text : List Char} (solid : StartsSolid text) :
    trimStart text = text := by
  cases text with
  | nil => rfl
  | cons character rest =>
      apply List.dropWhile_cons_of_neg
      rw [is_blank_iff]
      exact solid character rfl

theorem starts_solid_trim_start (text : List Char) : StartsSolid (trimStart text) := by
  intro character first
  have stops := List.head?_dropWhile_not isBlank text
  rw [show text.dropWhile isBlank = trimStart text from rfl, Option.mem_def.mp first] at stops
  exact is_blank_eq_false_iff.mp stops

theorem trim_start_parts (text : List Char) :
    ∃ before, AllWhite before ∧ text = before ++ trimStart text := by
  refine ⟨text.takeWhile isBlank, ?_, List.takeWhile_append_dropWhile.symm⟩
  intro character member
  exact is_blank_iff.mp (List.mem_takeWhile_imp member)

/-- The end of a text is trimmed like the start of its reversal. -/
theorem trim_end_eq (text : List Char) : trimEnd text = (trimStart text.reverse).reverse := rfl

/-! ## Both ends -/

structure Trimmed (text : List Char) : Prop where
  first : ∀ character ∈ text.head?, ¬ IsWhiteSpace character
  last : ∀ character ∈ text.getLast?, ¬ IsWhiteSpace character

theorem trimmed_iff {text : List Char} :
    Trimmed text ↔ StartsSolid text ∧ StartsSolid text.reverse := by
  unfold StartsSolid
  rw [List.head?_reverse]
  exact ⟨fun trimmed => ⟨trimmed.first, trimmed.last⟩, fun solid => ⟨solid.1, solid.2⟩⟩

theorem trim_end_parts (text : List Char) :
    ∃ after, AllWhite after ∧ text = trimEnd text ++ after := by
  rcases trim_start_parts text.reverse with ⟨before, white, parts⟩
  refine ⟨before.reverse, white.reverse, ?_⟩
  rw [trim_end_eq, ← List.reverse_append, ← parts, List.reverse_reverse]

theorem trimmed_trim (text : List Char) : Trimmed (trim text) := by
  rw [trimmed_iff]
  constructor
  · -- What is left begins like the text did before its end was trimmed.
    intro character first
    rcases trim_end_parts (trimStart text) with ⟨after, _, parts⟩
    apply starts_solid_trim_start text
    rw [parts, List.head?_append, show (trimEnd (trimStart text)).head? = some character from first]
    rfl
  · rw [trim, trim_end_eq, List.reverse_reverse]
    exact starts_solid_trim_start _

theorem trim_parts (text : List Char) :
    ∃ before after, AllWhite before ∧ AllWhite after ∧ text = before ++ trim text ++ after := by
  rcases trim_start_parts text with ⟨before, whiteBefore, start⟩
  rcases trim_end_parts (trimStart text) with ⟨after, whiteAfter, rest⟩
  refine ⟨before, after, whiteBefore, whiteAfter, ?_⟩
  rw [List.append_assoc, trim, ← rest, ← start]

theorem trim_eq_self {text : List Char} (trimmed : Trimmed text) : trim text = text := by
  rcases trimmed_iff.mp trimmed with ⟨starts, ends⟩
  rw [trim, trim_start_eq_self starts, trim_end_eq, trim_start_eq_self ends, List.reverse_reverse]

theorem trim_eq_self_iff {text : List Char} : trim text = text ↔ Trimmed text := by
  constructor
  · intro same
    rw [← same]
    exact trimmed_trim text
  · exact trim_eq_self

variable {before text after : List Char}

theorem trim_around (whiteBefore : AllWhite before) (trimmed : Trimmed text) (visible : text ≠ [])
    (whiteAfter : AllWhite after) : trim (before ++ text ++ after) = text := by
  rcases trimmed_iff.mp trimmed with ⟨starts, ends⟩
  rw [List.append_assoc, trim, trim_start_white whiteBefore,
    trim_start_eq_self (starts.append visible after), trim_end_eq, List.reverse_append,
    trim_start_white whiteAfter.reverse, trim_start_eq_self ends, List.reverse_reverse]

theorem take_while_around (whiteBefore : AllWhite before) (trimmed : Trimmed text)
    (visible : text ≠ []) : (before ++ text ++ after).takeWhile isBlank = before := by
  rcases List.exists_cons_of_ne_nil visible with ⟨character, rest, rfl⟩
  have solid : ¬ isBlank character = true := by
    rw [is_blank_iff]
    exact trimmed.first character rfl
  rw [List.append_assoc, List.takeWhile_append_of_pos whiteBefore.is_blank, List.cons_append,
    List.takeWhile_cons_of_neg solid, List.append_nil]

end LockExplorer.Text

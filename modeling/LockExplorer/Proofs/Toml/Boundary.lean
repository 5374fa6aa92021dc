import LockExplorer.Toml.Text
import Mathlib.Data.List.TakeWhile

/-!
# Where tokens and layout end

A token ends at the first character of another class, and layout is passed over up to the first
character that is none.
-/

namespace LockExplorer.Toml

/-- No character of the class comes first. -/
def Outside (among : Char → Bool) (input : List Char) : Prop :=
  ∀ character ∈ input.head?, among character = false

theorem Outside.cons {among : Char → Bool} {character : Char} (stop : among character = false)
    (rest : List Char) : Outside among (character :: rest) := by
  intro first found
  cases found
  exact stop

theorem Outside.drop_while {among : Char → Bool} {rest : List Char} (outside : Outside among rest) :
    rest.dropWhile among = rest := by
  cases rest with
  | nil => rfl
  | cons character rest =>
      apply List.dropWhile_cons_of_neg
      rw [outside character rfl]
      decide

theorem take_while_token {among : Char → Bool} {token rest : List Char}
    (inside : ∀ character ∈ token, among character = true) (outside : Outside among rest) :
    (token ++ rest).takeWhile among = token := by
  rw [List.takeWhile_append_of_pos inside]
  cases rest with
  | nil => exact List.append_nil token
  | cons character rest =>
      rw [List.takeWhile_cons_of_neg, List.append_nil]
      rw [outside character rfl]
      decide

theorem drop_while_token {among : Char → Bool} {token rest : List Char}
    (inside : ∀ character ∈ token, among character = true) (outside : Outside among rest) :
    (token ++ rest).dropWhile among = rest := by
  rw [List.dropWhile_append_of_pos inside, outside.drop_while]

/-! ## Layout -/

/-- A character that is no layout and starts none. -/
def isSolid (character : Char) : Bool :=
  !isSpace character && character != '\n' && character != '\r' && character != '#'

theorem is_space_of_is_solid {character : Char} (solid : isSolid character = true) :
    isSpace character = false := by
  simp only [isSolid, Bool.and_eq_true, Bool.not_eq_true'] at solid
  exact solid.1.1.1

theorem ne_of_is_solid {character : Char} (solid : isSolid character = true) :
    character ≠ '\n' ∧ character ≠ '\r' ∧ character ≠ '#' := by
  simp only [isSolid, Bool.and_eq_true, bne_iff_ne] at solid
  exact ⟨solid.1.1.2, solid.1.2, solid.2⟩

theorem skip_space_of_is_solid {character : Char} (solid : isSolid character = true)
    (rest : List Char) : skipSpace (character :: rest) = character :: rest :=
  (Outside.cons (is_space_of_is_solid solid) rest).drop_while

theorem skip_lines_of_is_solid {character : Char} (solid : isSolid character = true)
    (rest : List Char) : skipLines false (character :: rest) = character :: rest := by
  have different := ne_of_is_solid solid
  rw [skipLines.eq_def]
  split
  · next same => cases same
  · next same => exact absurd (List.cons.inj same).1 different.1
  · next same => exact absurd (List.cons.inj same).1 different.2.1
  · next same =>
      cases same
      rw [if_neg (by decide), if_neg (by simpa using different.2.2),
        is_space_of_is_solid solid, if_neg (by decide)]

/-- A line that begins with such a character is not empty. -/
theorem line_end_of_is_solid {character : Char} (solid : isSolid character = true)
    (rest : List Char) : lineEnd? (skipComment (character :: rest)) = none := by
  have different := ne_of_is_solid solid
  have noComment : skipComment (character :: rest) = character :: rest := by
    unfold skipComment
    split
    · next same => exact absurd (List.cons.inj same).1 different.2.2
    · rfl
  rw [noComment]
  unfold lineEnd?
  split
  · next same => cases same
  · next same => exact absurd (List.cons.inj same).1 different.1
  · next same => exact absurd (List.cons.inj same).1 different.2.1
  · rfl

end LockExplorer.Toml

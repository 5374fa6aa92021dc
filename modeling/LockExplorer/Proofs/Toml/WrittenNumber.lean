import LockExplorer.Proofs.Toml.Boundary
import LockExplorer.Toml.Literal

/-!
# Numbers read back as they were written

A whole number is written as its decimal digits. A token of digits alone is neither a date nor a
time, since both have a mark after their first digits, and the digits of a number begin with a zero
only for zero itself. So the reader takes the token for a decimal number and finds the same value,
as long as it fits sixty-four bits with a sign.
-/

namespace LockExplorer.Toml

def AllDigits (token : List Char) : Prop :=
  ∀ character ∈ token, character.isDigit = true

theorem all_digits_to_digits (number : Nat) : AllDigits (Nat.toDigits 10 number) := by
  intro character member
  exact Nat.isDigit_of_mem_toDigits (by decide) (by decide) member

theorem AllDigits.head {character : Char} {rest : List Char}
    (digits : AllDigits (character :: rest)) : character.isDigit = true :=
  digits character List.mem_cons_self

theorem AllDigits.tail {character : Char} {rest : List Char}
    (digits : AllDigits (character :: rest)) : AllDigits rest := by
  intro other member
  exact digits other (List.mem_cons_of_mem _ member)

/-! ## Neither a date nor a time -/

theorem fixed_digits_rest {count value : Nat} {input rest : List Char}
    (read : fixedDigits count input = some (value, rest)) : rest = input.drop count := by
  unfold fixedDigits at read
  dsimp only at read
  split at read
  · cases read
    rfl
  · cases read

theorem bounded_pair_rest {least greatest value : Nat} {input rest : List Char}
    (read : boundedPair least greatest input = some (value, rest)) : rest = input.drop 2 := by
  unfold boundedPair at read
  split at read
  · next found =>
      split at read
      · cases read
        exact fixed_digits_rest found
      · cases read
  · cases read

theorem after_drop_eq_none {mark : Char} {token : List Char} (count : Nat)
    (digits : AllDigits token) (notDigit : mark.isDigit = false) :
    after? mark (token.drop count) = none := by
  unfold after?
  split
  · next first rest shape =>
      have member : first ∈ token.drop count := by
        rw [shape]
        exact List.mem_cons_self
      have digit := digits first (List.mem_of_mem_drop member)
      rw [if_neg]
      intro same
      rw [eq_of_beq same, notDigit] at digit
      cases digit
  · rfl

theorem after_date_eq_none {token : List Char} (digits : AllDigits token) :
    afterDate? token = none := by
  unfold afterDate?
  cases read : fixedDigits 4 token with
  | none => rfl
  | some year =>
      change (after? '-' year.2).bind _ = none
      rw [fixed_digits_rest read, after_drop_eq_none 4 digits rfl]
      rfl

theorem after_time_eq_none {token : List Char} (digits : AllDigits token) :
    afterTime? token = none := by
  unfold afterTime?
  cases read : boundedPair 0 23 token with
  | none => rfl
  | some hour =>
      change (after? ':' hour.2).bind _ = none
      rw [bounded_pair_rest read, after_drop_eq_none 2 digits rfl]
      rfl

theorem is_date_eq_false {token : List Char} (digits : AllDigits token) : isDate token = false := by
  rw [isDate, after_date_eq_none digits]
  rfl

theorem is_moment_eq_false {token : List Char} (digits : AllDigits token) :
    isMoment token = false := by
  rw [isMoment, is_date_eq_false digits, after_time_eq_none digits, after_date_eq_none digits]
  rfl

/-! ## The value of the digits -/

theorem digit_value_of_is_digit {character : Char} (digit : character.isDigit = true) :
    digitValue? 10 character = some (character.toNat - '0'.toNat) := by
  have bounds : 48 ≤ character.toNat ∧ character.toNat ≤ 57 := by
    simpa [Char.isDigit, UInt32.le_iff_toNat_le] using digit
  have zero : '0'.toNat = 48 := rfl
  have decimal : (48 ≤ character.toNat && character.toNat ≤ 57) = true := by simpa using bounds
  unfold digitValue?
  dsimp only
  rw [decimal, if_pos rfl, if_pos (by omega), zero]

theorem digits_value_of_all_digits {digits : List Char} (all : AllDigits digits) (value : Nat) :
    digitsValue? 10 value digits = some (Nat.ofDigitChars 10 digits value) := by
  induction digits generalizing value with
  | nil => rfl
  | cons character digits induction =>
      rw [digitsValue?, digit_value_of_is_digit all.head]
      dsimp only
      rw [induction all.tail, Nat.ofDigitChars_cons, Nat.mul_comm]

theorem separated_digits_of_all_digits {digits : List Char} (all : AllDigits digits)
    (some : digits ≠ []) : separatedDigits digits = Option.some digits := by
  have ordinary {character : Char} (digit : character.isDigit = true) :
      (character == '_') = false := by
    by_contra same
    rw [Bool.not_eq_false, beq_iff_eq] at same
    rw [same] at digit
    cases digit
  fun_induction separatedDigits digits with
  | case1 => exact absurd rfl some
  | case2 digit underscore => rw [ordinary all.head] at underscore; cases underscore
  | case3 => rfl
  | case4 digit rest underscore => rw [ordinary all.head] at underscore; cases underscore
  | case5 digit rest _ _ =>
      have underscore := ordinary all.tail.head
      cases underscore
  | case6 digit rest _ _ underscore => rw [ordinary all.head] at underscore; cases underscore
  | case7 digit rest single _ _ induction =>
      have more : rest ≠ [] := by
        intro empty
        exact single empty
      rw [induction all.tail more]
      rfl

theorem separated_value_to_digits (number : Nat) :
    separatedValue? 10 (Nat.toDigits 10 number) = some number := by
  have all := all_digits_to_digits number
  rw [separatedValue?, separated_digits_of_all_digits all Nat.toDigits_ne_nil]
  dsimp only
  rw [digits_value_of_all_digits all, Nat.ofDigitChars_toDigits (by decide) (by decide)]

/-- Only zero is written with a zero first. -/
theorem to_digits_ne_zero_cons (number : Nat) (next : Char) (rest : List Char) :
    Nat.toDigits 10 number ≠ '0' :: next :: rest := by
  induction number using Nat.strongRecOn generalizing next rest with
  | ind number induction =>
      intro shape
      rw [Nat.toDigits_eq_if (by decide)] at shape
      split at shape
      · cases (List.cons.inj shape).2
      · next large =>
          -- The digits before the last are those of a smaller number that is not zero.
          cases front : Nat.toDigits 10 (number / 10) with
          | nil => exact Nat.toDigits_ne_nil front
          | cons first others =>
              rw [front, List.cons_append] at shape
              cases others with
              | nil =>
                  have value := Nat.ofDigitChars_toDigits (b := 10) (n := number / 10)
                    (by decide) (by decide)
                  rw [front, (List.cons.inj shape).1] at value
                  have zero : Nat.ofDigitChars 10 ['0'] 0 = 0 := rfl
                  omega
              | cons second others =>
                  apply induction (number / 10) (by omega) second others
                  rw [front, (List.cons.inj shape).1]

theorem plain_value_to_digits (number : Nat) :
    plainValue? (Nat.toDigits 10 number) = some number := by
  unfold plainValue?
  split
  · next shape => exact absurd shape (to_digits_ne_zero_cons number _ _)
  · exact separated_value_to_digits number

theorem split_sign_of_all_digits {token : List Char} (digits : AllDigits token) :
    splitSign token = (false, token) := by
  unfold splitSign
  split
  · cases digits.head
  · cases digits.head
  · rfl

theorem integer_to_digits {number : Nat} (fits : number < Nat.pow 2 63) :
    integer? (Nat.toDigits 10 number) = some (number : Int) := by
  unfold integer?
  split
  · next shape => exact absurd shape (to_digits_ne_zero_cons number _ _)
  · next shape => exact absurd shape (to_digits_ne_zero_cons number _ _)
  · next shape => exact absurd shape (to_digits_ne_zero_cons number _ _)
  · rw [split_sign_of_all_digits (all_digits_to_digits number)]
    dsimp only
    rw [plain_value_to_digits, Option.bind_some]
    unfold fitting?
    dsimp only
    rw [if_pos]
    · rfl
    · rw [Bool.and_eq_true, decide_eq_true_eq, decide_eq_true_eq]
      constructor
      · omega
      · exact Int.ofNat_lt.mpr fits

/-! ## The number as a value -/

theorem scalar_of_token_to_digits {number : Nat} (fits : number < Nat.pow 2 63) :
    scalarOfToken? (Nat.toDigits 10 number) = some (.integer number) := by
  have digits := all_digits_to_digits number
  unfold scalarOfToken?
  rw [if_neg, if_neg, is_moment_eq_false digits, if_neg (by decide), integer_to_digits fits]
  · intro same
    rw [same] at digits
    cases digits.head
  · intro same
    rw [same] at digits
    cases digits.head

theorem is_token_part_of_is_digit {character : Char} (digit : character.isDigit = true) :
    isTokenPart character = true := by
  simp [isTokenPart, Char.isAlphanum, digit]

theorem scalar_to_digits {number : Nat} {rest : List Char} (fits : number < Nat.pow 2 63)
    (outside : Outside isTokenPart rest) :
    scalar (Nat.toDigits 10 number ++ rest) = some (.integer number, rest) := by
  have digits := all_digits_to_digits number
  have parts : ∀ character ∈ Nat.toDigits 10 number, isTokenPart character = true := by
    intro character member
    exact is_token_part_of_is_digit (digits character member)
  unfold scalar
  dsimp only
  rw [take_while_token parts outside, drop_while_token parts outside, is_date_eq_false digits,
    scalar_of_token_to_digits fits]
  rfl

theorem value_within_of_is_digit (nesting : Nat) {first : Char} (digit : first.isDigit = true)
    (rest : List Char) : valueWithin nesting (first :: rest) = scalar (first :: rest) := by
  unfold valueWithin
  split
  · next same => cases same; cases digit
  · next same => cases same; cases digit
  · next same => cases same; cases digit
  · next same => cases same; cases digit
  · rfl

theorem value_within_to_digits (nesting : Nat) {number : Nat} {rest : List Char}
    (fits : number < Nat.pow 2 63) (outside : Outside isTokenPart rest) :
    valueWithin nesting (Nat.toDigits 10 number ++ rest) = some (.integer number, rest) := by
  have digits := all_digits_to_digits number
  rw [← scalar_to_digits fits outside]
  cases front : Nat.toDigits 10 number with
  | nil => exact absurd front Nat.toDigits_ne_nil
  | cons first others =>
      rw [front] at digits
      exact value_within_of_is_digit nesting digits.head _

theorem outside_is_space_to_digits (number : Nat) (rest : List Char) :
    Outside isSpace (Nat.toDigits 10 number ++ rest) := by
  have digits := all_digits_to_digits number
  cases front : Nat.toDigits 10 number with
  | nil => exact absurd front Nat.toDigits_ne_nil
  | cons first others =>
      rw [front] at digits
      apply Outside.cons
      by_contra space
      rw [Bool.not_eq_false, isSpace, Bool.or_eq_true, beq_iff_eq, beq_iff_eq] at space
      rcases space with space | tab
      · rw [space] at digits
        cases digits.head
      · rw [tab] at digits
        cases digits.head

end LockExplorer.Toml

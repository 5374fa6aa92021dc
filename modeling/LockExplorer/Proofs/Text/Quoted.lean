import LockExplorer.Text
import Mathlib.Logic.Function.Defs

/-!
# Quoted text stands for one text

Between the quotes every character is written as a code: itself, a backslash and a letter, or its
code point in hexadecimal digits between braces. No code begins another one, so the codes can be
told apart from the left, and what is quoted can be told from its quotation.
-/

namespace LockExplorer.Text

/-! ## Hexadecimal digits -/

theorem digit_char_inj : ∀ left < 16, ∀ right < 16,
    Nat.digitChar left = Nat.digitChar right → left = right := by
  decide

theorem digit_char_ne_brace : ∀ value < 16, (Nat.digitChar value != '\x7d') = true := by
  decide

/-- The last digit, behind the digits of what is left without it. -/
theorem to_digits_eq_concat (number : Nat) :
    Nat.toDigits 16 number =
      (if number < 16 then [] else Nat.toDigits 16 (number / 16)) ++
        [Nat.digitChar (number % 16)] := by
  rw [Nat.toDigits_eq_if (by decide)]
  split
  · next small => rw [Nat.mod_eq_of_lt small, List.nil_append]
  · rfl

theorem to_digits_ne_brace (number : Nat) :
    ∀ digit ∈ Nat.toDigits 16 number, (digit != '\x7d') = true := by
  induction number using Nat.strongRecOn with
  | ind number induction =>
      intro digit member
      rw [to_digits_eq_concat] at member
      rcases List.mem_append.mp member with front | last
      · split at front
        · cases front
        · next large => exact induction (number / 16) (by omega) digit front
      · rw [List.mem_singleton.mp last]
        exact digit_char_ne_brace _ (by omega)

theorem to_digits_inj {left right : Nat} (same : Nat.toDigits 16 left = Nat.toDigits 16 right) :
    left = right := by
  induction left using Nat.strongRecOn generalizing right with
  | ind left induction =>
      rw [to_digits_eq_concat left, to_digits_eq_concat right] at same
      obtain ⟨fronts, lasts⟩ := List.append_inj' same rfl
      have remainders : left % 16 = right % 16 :=
        digit_char_inj _ (by omega) _ (by omega) (List.cons.inj lasts).1
      -- Either both numbers have one digit, or both have digits in front of the last one.
      by_cases small : left < 16
      · by_cases other : right < 16
        · omega
        · rw [if_pos small, if_neg other] at fronts
          exact absurd fronts.symm Nat.toDigits_ne_nil
      · by_cases other : right < 16
        · rw [if_neg small, if_pos other] at fronts
          exact absurd fronts Nat.toDigits_ne_nil
        · rw [if_neg small, if_neg other] at fronts
          have quotients := induction (left / 16) (by omega) fronts
          omega

/-! ## Codes -/

/-- The characters that are written as a backslash and a letter, each with its letter. -/
def letters : List (Char × Char) :=
  [('"', '"'), ('\\', '\\'), ('\t', 't'), ('\n', 'n'), ('\r', 'r'), ('\x00', '0')]

/-- How a character may be written between the quotes. -/
inductive Code (character : Char) : List Char → Prop where
  | itself (solid : character ≠ '\\') : Code character [character]
  | letter {letter : Char} (listed : (character, letter) ∈ letters) :
      Code character ['\\', letter]
  | point :
      Code character ('\\' :: 'u' :: '\x7b' :: (Nat.toDigits 16 character.toNat ++ ['\x7d']))

theorem code_quote_char (character : Char) : Code character (quoteChar character).toList := by
  unfold quoteChar
  split
  · exact Code.letter (by decide)
  · exact Code.letter (by decide)
  · exact Code.letter (by decide)
  · exact Code.letter (by decide)
  · exact Code.letter (by decide)
  · exact Code.letter (by decide)
  · next solid _ _ _ _ =>
      split
      · rw [Char.toString_eq_singleton, String.toList_singleton]
        exact Code.itself solid
      · simp only [String.toList_append, String.toList_ofList]
        exact Code.point

theorem letters_inj : ∀ left ∈ letters, ∀ right ∈ letters, left.2 = right.2 → left.1 = right.1 := by
  decide

theorem letters_ne_u : ∀ entry ∈ letters, entry.2 ≠ 'u' := by
  decide

namespace Code

variable {left right : Char} {code other rest others : List Char}

theorem ne_nil (first : Code left code) : code ≠ [] := by
  cases first <;> simp

/-- No code begins another one. -/
theorem cancel (first : Code left code) (second : Code right other)
    (same : code ++ rest = other ++ others) : left = right ∧ rest = others := by
  cases first with
  | itself solid =>
      cases second with
      | itself _ => exact List.cons.inj same
      | letter _ => exact absurd (List.cons.inj same).1 solid
      | point => exact absurd (List.cons.inj same).1 solid
  | letter listed =>
      cases second with
      | itself solid => exact absurd (List.cons.inj same).1.symm solid
      | letter alsoListed =>
          obtain ⟨letters, behind⟩ := List.cons.inj (List.cons.inj same).2
          exact ⟨letters_inj _ listed _ alsoListed letters, behind⟩
      | point => exact absurd (List.cons.inj (List.cons.inj same).2).1 (letters_ne_u _ listed)
  | point =>
      cases second with
      | itself solid => exact absurd (List.cons.inj same).1.symm solid
      | letter listed =>
          exact absurd (List.cons.inj (List.cons.inj same).2).1.symm (letters_ne_u _ listed)
      | point =>
          simp only [List.cons_append, List.append_assoc, List.cons.injEq, true_and] at same
          have digits := congrArg (List.takeWhile (· != '\x7d')) same
          simp only [List.nil_append, List.takeWhile_append_of_pos (to_digits_ne_brace _),
            List.takeWhile_cons, bne_self_eq_false, Bool.false_eq_true, if_false,
            List.append_nil] at digits
          rw [digits] at same
          exact ⟨Char.toNat_inj.mp (to_digits_inj digits),
            (List.cons.inj (List.append_cancel_left same)).2⟩

end Code

theorem codes_inj {left right : List Char}
    (same : left.flatMap (fun character => (quoteChar character).toList) =
      right.flatMap fun character => (quoteChar character).toList) : left = right := by
  induction left generalizing right with
  | nil =>
      cases right with
      | nil => rfl
      | cons first later =>
          exact absurd (List.append_eq_nil_iff.mp same.symm).1 (code_quote_char first).ne_nil
  | cons first later induction =>
      cases right with
      | nil => exact absurd (List.append_eq_nil_iff.mp same).1 (code_quote_char first).ne_nil
      | cons other others =>
          obtain ⟨heads, tails⟩ := (code_quote_char first).cancel (code_quote_char other) same
          rw [heads, induction tails]

theorem quote_injective : Function.Injective quote := by
  intro left right same
  have joined : String.join (left.toList.map quoteChar) = String.join (right.toList.map quoteChar) :=
    (String.append_right_inj _).mp ((String.append_left_inj _).mp same)
  have codes := congrArg String.toList joined
  rw [String.toList_join, String.toList_join, List.flatMap_map, List.flatMap_map] at codes
  exact String.toList_inj.mp (codes_inj codes)

end LockExplorer.Text

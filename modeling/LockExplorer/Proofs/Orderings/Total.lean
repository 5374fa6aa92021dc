import LockExplorer.Proofs.Orderings.Refinement

/-!
# The announced total

At every point of an enumeration, what it has given and what is left make up all orderings, and the
announced total is their number whenever that number fits a word of 128 bits. The last number of
items for which it does is thirty-four. A product that is kept in such words, and given up as soon
as it would wrap around, comes to the same total.
-/

namespace LockExplorer

namespace Orderings

variable {α : Type}

/-! ## Given and left -/

def givenBy (orderings : Orderings α) (calls : Nat) : Nat :=
  (List.range calls).countP fun earlier => (orderings.after earlier).next.1.isSome

theorem after_after (orderings : Orderings α) (first more : Nat) :
    (orderings.after first).after more = orderings.after (first + more) := by
  induction first generalizing orderings with
  | zero => simp [after]
  | succ first induction =>
      rw [Nat.add_right_comm]
      exact induction orderings.next.2

namespace Yields

variable {orderings : Orderings α} {sequence : List (List α)}

theorem after (yields : orderings.Yields sequence) (calls : Nat) :
    (orderings.after calls).Yields (sequence.drop calls) := by
  intro more
  rw [after_after, yields, List.getElem?_drop]

theorem given_by_eq (yields : orderings.Yields sequence) (calls : Nat) :
    orderings.givenBy calls = min calls sequence.length := by
  induction calls with
  | zero => simp [givenBy]
  | succ calls induction =>
      rw [givenBy, List.range_succ, List.countP_append, ← givenBy, induction,
        List.countP_singleton, yields]
      by_cases inside : calls < sequence.length
      · rw [List.getElem?_eq_getElem inside, Option.isSome_some, if_pos rfl]
        omega
      · rw [List.getElem?_eq_none (by omega), Option.isSome_none, if_neg Bool.false_ne_true]
        omega

/-- Counting goes through the sequence and stops behind its end. -/
theorem count_left_eq (yields : orderings.Yields sequence) (most counted : Nat) :
    orderings.countLeft most counted = counted + min most sequence.length := by
  induction most generalizing orderings sequence counted with
  | zero => simp [countLeft]
  | succ most induction =>
      rw [countLeft]
      cases sequence with
      | nil =>
          have ended : orderings.next = (none, orderings.next.2) :=
            Prod.ext yields.next_eq_none rfl
          rw [ended]
          simp
      | cons first rest =>
          obtain ⟨given, laterYields⟩ := yields.next_eq_some
          have goesOn : orderings.next = (some first, orderings.next.2) := Prod.ext given rfl
          rw [goesOn]
          simp only [induction laterYields, List.length_cons]
          omega

end Yields

theorem count_eq_factorial (items : Nat) : count items = items.factorial := by
  induction items with
  | zero => rfl
  | succ items induction => rw [count, induction, Nat.factorial_succ]

theorem Reached.size_items {items : List α} {orderings : Orderings α} {calls : Nat}
    (reached : Reached items calls orderings) : orderings.items.size = items.length := by
  cases reached with
  | fresh => simp [ofList]
  | underway _ settled => exact settled.size_items
  | exhausted _ restored _ => simp [restored]

theorem size_items_after (items : List α) (calls : Nat) :
    ((ofList items).after calls).items.size = items.length :=
  (reached_after items calls).size_items

theorem remaining_after (items : List α) (calls : Nat) :
    ((ofList items).after calls).remaining = items.length.factorial - calls := by
  have left := (yields_of_list items).after calls
  rw [remaining, left.count_left_eq, size_items_after, count_eq_factorial, List.length_drop,
    SwapRecursion.length_orderings]
  omega

theorem given_by_of_list (items : List α) (calls : Nat) :
    (ofList items).givenBy calls = min calls items.length.factorial := by
  rw [(yields_of_list items).given_by_eq, SwapRecursion.length_orderings]

theorem given_add_remaining (items : List α) (calls : Nat) :
    (ofList items).givenBy calls + ((ofList items).after calls).remaining =
      items.length.factorial := by
  rw [given_by_of_list, remaining_after]
  omega

/-! ## The bound -/

theorem factorial_lt_total_bound_iff (items : Nat) : items.factorial < totalBound ↔ items ≤ 34 := by
  have last : Nat.factorial 34 < totalBound := by decide
  have past : totalBound ≤ Nat.factorial 35 := by decide
  constructor
  · intro below
    by_contra more
    have larger : Nat.factorial 35 ≤ items.factorial := Nat.factorial_le (by omega)
    omega
  · intro few
    have smaller : items.factorial ≤ Nat.factorial 34 := Nat.factorial_le few
    omega

/-- The products only grow, so one that is given up would not have come back below the bound. -/
theorem not_lt_total_bound_succ {factors : Nat} (past : ¬ factors.factorial < totalBound) :
    ¬ (factors + 1).factorial < totalBound := by
  have growing : factors.factorial ≤ (factors + 1).factorial :=
    Nat.factorial_le (Nat.le_succ factors)
  omega

theorem foldlm_bounded_product (factors : Nat) :
    (List.range factors).foldlM (fun product index => boundedProduct product (index + 1)) 1 =
      if factors.factorial < totalBound then some factors.factorial else none := by
  induction factors with
  | zero => decide
  | succ factors induction =>
      rw [List.range_succ, List.foldlM_append, induction]
      by_cases below : factors.factorial < totalBound
      · simp [below, boundedProduct, Nat.factorial_succ, Nat.mul_comm]
      · simp [below, not_lt_total_bound_succ below]

theorem total_eq (orderings : Orderings α) :
    orderings.total? =
      if orderings.items.size.factorial < totalBound then some orderings.items.size.factorial
      else none :=
  foldlm_bounded_product orderings.items.size

theorem total_after (items : List α) (calls : Nat) :
    ((ofList items).after calls).total? =
      if items.length.factorial < totalBound then some items.length.factorial else none := by
  rw [total_eq, size_items_after]

/-! ## Products in words -/

def wordProduct? (left right : BitVec 128) : Option (BitVec 128) :=
  if left.umulOverflow right then none else some (left * right)

def wordFactorial? (factors : Nat) : Option (BitVec 128) :=
  (List.range factors).foldlM
    (fun product index => wordProduct? product (BitVec.ofNat 128 (index + 1))) 1

theorem to_nat_word_product (left right : BitVec 128) :
    (wordProduct? left right).map BitVec.toNat = boundedProduct left.toNat right.toNat := by
  have bound : totalBound = 2 ^ 128 := rfl
  rw [wordProduct?, boundedProduct, bound]
  by_cases below : left.toNat * right.toNat < 2 ^ 128
  · have fits : left.umulOverflow right = false := by
      simp only [BitVec.umulOverflow, decide_eq_false_iff_not]
      omega
    rw [fits, if_pos below, if_neg Bool.false_ne_true, Option.map_some, BitVec.toNat_mul,
      Nat.mod_eq_of_lt below]
  · have wraps : left.umulOverflow right = true := by
      simp only [BitVec.umulOverflow, decide_eq_true_eq]
      omega
    rw [wraps, if_neg below]
    simp

/-- The words hold the true products as long as these stay below the bound, and from then on there
is none. -/
theorem to_nat_word_factorial (factors : Nat) :
    (wordFactorial? factors).map BitVec.toNat =
      if factors.factorial < totalBound then some factors.factorial else none := by
  induction factors with
  | zero => decide
  | succ factors induction =>
      have step : wordFactorial? (factors + 1) = (wordFactorial? factors).bind fun product =>
          wordProduct? product (BitVec.ofNat 128 (factors + 1)) := by
        simp [wordFactorial?, List.range_succ, List.foldlM_append]
      rw [step]
      by_cases below : factors.factorial < totalBound
      · rw [if_pos below] at induction
        obtain ⟨product, kept, exact⟩ := Option.map_eq_some_iff.mp induction
        -- A factor that did not fit a word would come long after the bound has been reached.
        have few : factors ≤ 34 := (factorial_lt_total_bound_iff factors).mp below
        have factor : (BitVec.ofNat 128 (factors + 1)).toNat = factors + 1 := by
          rw [BitVec.toNat_ofNat, Nat.mod_eq_of_lt (by omega)]
        rw [kept, Option.bind_some, to_nat_word_product, factor, exact, boundedProduct,
          Nat.factorial_succ, Nat.mul_comm]
      · rw [if_neg below] at induction
        rw [Option.map_eq_none_iff.mp induction, if_neg (not_lt_total_bound_succ below)]
        simp

/-! ## The whole life of an enumeration -/

/-- After any number of calls, what they gave and what is left add up to all orderings, what is left
being what further calls give before they give nothing. The total is this number exactly if it fits
a word of 128 bits, which is so for up to thirty-four items; otherwise there is no total. It is the
same at all times, and it is the product kept in words, no step of which wraps around. -/
theorem total?_agrees (items : List α) (calls : Nat) :
    (∃ left, ((ofList items).after calls).Yields left ∧
        left.length = ((ofList items).after calls).remaining) ∧
      (ofList items).givenBy calls + ((ofList items).after calls).remaining =
        items.length.factorial ∧
      (((ofList items).after calls).total? =
          some ((ofList items).givenBy calls + ((ofList items).after calls).remaining) ↔
        items.length.factorial < 2 ^ 128) ∧
      (items.length.factorial < 2 ^ 128 ↔ items.length ≤ 34) ∧
      (((ofList items).after calls).total? = none ↔ 35 ≤ items.length) ∧
      ((ofList items).after calls).total? = (ofList items).total? ∧
      (ofList items).total? = (wordFactorial? items.length).map BitVec.toNat ∧
      ∀ factors, (wordFactorial? factors).map BitVec.toNat =
        if factors.factorial < 2 ^ 128 then some factors.factorial else none := by
  have bound : totalBound = 2 ^ 128 := rfl
  rw [← bound]
  have length : ((SwapRecursion.orderings items).drop calls).length =
      ((ofList items).after calls).remaining := by
    rw [remaining_after, List.length_drop, SwapRecursion.length_orderings]
  have sum := given_add_remaining items calls
  have total := total_after items calls
  have fresh : (ofList items).total? = _ := total_after items 0
  have few := factorial_lt_total_bound_iff items.length
  have announced : ((ofList items).after calls).total? =
        some ((ofList items).givenBy calls + ((ofList items).after calls).remaining) ↔
      items.length.factorial < totalBound := by
    rw [total, sum]
    simp
  have unannounced : ((ofList items).after calls).total? = none ↔ 35 ≤ items.length := by
    rw [total]
    simp only [ite_eq_right_iff, reduceCtorEq, imp_false]
    omega
  have words := to_nat_word_factorial
  exact ⟨⟨_, (yields_of_list items).after calls, length⟩, sum, announced, few, unannounced,
    total.trans fresh.symm, fresh.trans (words items.length).symm, words⟩

example : (ofList (List.replicate 34 ())).total? =
    some 295232799039604140847618609643520000000 := by decide

end Orderings

end LockExplorer

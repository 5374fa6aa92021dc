import LockExplorer.Proofs.Scenario.WrittenDocument
import LockExplorer.Proofs.Toml.WholeNumbers

/-!
# Scenario files read back

A scenario can be written exactly when a document can hold its limit, and every scenario that was
itself read from a text can. What is written describes the scenario: reading it gives the same
scenario back, or refuses it with the fault that the scenario has.
-/

namespace LockExplorer.Scenario

open LockExplorer.Toml

/-! ## Limits that were read -/

theorem held_of_limit_of {value : Value} {limit : Option UInt64} (fits : value.Fits)
    (read : (limitOf value).map some = .ok limit) : LimitHeld limit := by
  unfold limitOf at read
  split at read
  · split at read
    · cases read
    · cases read
      intro bound same
      cases same
      cases fits with
      | integer below =>
          rw [UInt64.toNat_ofNat']
          omega
  · cases read

theorem held_of_settings_of {value : Value} {limit : Option UInt64} (fits : value.Fits)
    (read : settingsOf value = .ok limit) : LimitHeld limit := by
  unfold settingsOf at read
  split at read
  · next entries _ found =>
      split at read
      · next given => exact held_of_limit_of ((fits.entries found).get given) read
      · cases read
        intro bound none
        cases none
  · next found => exact held_of_limit_of (fits.elements found List.mem_cons_self) read
  · cases read
    intro bound none
    cases none
  · cases read

theorem held_of_visit {before after : Scenario} {entry : String × Value} (fits : entry.2.Fits)
    (held : LimitHeld before.limit) (visited : before.visit entry = .ok after) :
    LimitHeld after.limit := by
  unfold visit at visited
  split_ifs at visited
  · cases read : settingsOf entry.2 with
    | error reason =>
        rw [read] at visited
        cases visited
    | ok limit =>
        rw [read] at visited
        cases visited
        exact held_of_settings_of fits read
  · cases listed : elementsOf entry.2 with
    | error reason =>
        rw [listed] at visited
        cases visited
    | ok elements =>
        rw [listed] at visited
        change elements.mapM planOf >>= _ = _ at visited
        cases planned : elements.mapM planOf with
        | error reason =>
            rw [planned] at visited
            cases visited
        | ok plans =>
            rw [planned] at visited
            cases visited
            exact held
  · cases visited
    exact held

theorem held_of_visits {entries : Entries} {before after : Scenario} (fit : entries.Fit)
    (held : LimitHeld before.limit) (visited : entries.foldlM visit before = .ok after) :
    LimitHeld after.limit := by
  induction entries generalizing before with
  | nil =>
      cases visited
      exact held
  | cons entry entries induction =>
      rw [List.foldlM_cons] at visited
      cases first : before.visit entry with
      | error reason =>
          rw [first] at visited
          cases visited
      | ok middle =>
          rw [first] at visited
          apply induction _ (held_of_visit (fit entry List.mem_cons_self) held first) visited
          intro other member
          exact fit other (List.mem_cons_of_mem _ member)

theorem of_text_eq_ok {text : String} {scenario : Scenario} (read : ofText text = .ok scenario) :
    ∃ entries, Entries.ofText? text.toList = some entries ∧ ofEntries entries = .ok scenario ∧
      scenario.fault? = none := by
  unfold ofText at read
  split at read
  · cases read
  · next entries found =>
      split at read
      · cases read
      · next visited =>
          unfold checked at read
          split at read
          · cases read
          · next usable =>
              cases read
              exact ⟨entries, found, visited, usable⟩

/-- A limit that was read from a text can be held by a document. -/
theorem held_of_of_text {text : String} {scenario : Scenario}
    (read : ofText text = .ok scenario) : LimitHeld scenario.limit := by
  obtain ⟨entries, found, visited, _⟩ := of_text_eq_ok read
  apply held_of_visits (Entries.fit_of_of_text found) _ visited
  intro bound none
  cases none

/-! ## Writing and reading back -/

theorem any_greatest_written_iff (limit : Option UInt64) :
    (limit.any fun limit => greatestWritten < limit.toNat) = true ↔
      ∃ bound, limit = some bound ∧ Nat.pow 2 63 - 1 < bound.toNat := by
  rw [Option.any_eq_true]
  simp only [decide_eq_true_eq]
  rfl

theorem held_iff (limit : Option UInt64) :
    LimitHeld limit ↔ ¬ ∃ bound, limit = some bound ∧ Nat.pow 2 63 - 1 < bound.toNat := by
  constructor
  · intro held exceeded
    rcases exceeded with ⟨bound, same, above⟩
    exact Nat.not_lt.mpr (Nat.le_sub_one_of_lt (held bound same)) above
  · intro none bound same
    by_contra above
    have least : Nat.pow 2 63 - 1 < Nat.pow 2 63 := by decide
    exact none ⟨bound, same, Nat.lt_of_lt_of_le least (Nat.not_lt.mp above)⟩

theorem to_text_of_held {scenario : Scenario} (held : LimitHeld scenario.limit) :
    scenario.toText = .ok (String.ofList scenario.write) := by
  unfold toText
  rw [if_neg]
  rw [any_greatest_written_iff]
  exact (held_iff scenario.limit).mp held

theorem to_text_of_not_held {scenario : Scenario} (above : ¬ LimitHeld scenario.limit) :
    scenario.toText = .error .limitTooLarge := by
  unfold toText
  rw [if_pos]
  rw [any_greatest_written_iff]
  exact not_not.mp (mt (held_iff scenario.limit).mpr above)

/-- Writing fails exactly for a limit above the largest whole number of a document, and so never for
a scenario that was read. A text that was written is read as the same scenario if that is usable,
and is refused for the same fault otherwise. -/
theorem ofText_toText (scenario : Scenario) :
    ((∃ reason, scenario.toText = .error reason) ↔
        ∃ bound, scenario.limit = some bound ∧ Nat.pow 2 63 - 1 < bound.toNat) ∧
      (∀ text, ofText text = .ok scenario → ∃ written, scenario.toText = .ok written) ∧
      ∀ written, scenario.toText = .ok written →
        (scenario.fault? = none → ofText written = .ok scenario) ∧
          ∀ reason, scenario.fault? = some reason →
            ofText written = .error (.unusable reason) := by
  constructor
  · rw [← not_iff_not, ← held_iff]
    constructor
    · intro succeeds
      by_contra above
      exact succeeds ⟨_, to_text_of_not_held above⟩
    · intro held fails
      rcases fails with ⟨reason, failed⟩
      rw [to_text_of_held held] at failed
      cases failed
  constructor
  · intro text read
    exact ⟨_, to_text_of_held (held_of_of_text read)⟩
  · intro written success
    have held : LimitHeld scenario.limit := by
      by_contra above
      rw [to_text_of_not_held above] at success
      cases success
    have back := of_text_write held
    rw [to_text_of_held held] at success
    cases success
    unfold checked at back
    constructor
    · intro usable
      rw [back, usable]
    · intro reason faulty
      rw [back, faulty]

/-- Under the largest limit, names with quotes of both kinds, a backslash, a line feed and a control
character, and an action of quotes alone. -/
def awkward : Scenario where
  limit := some 9223372036854775807
  plans := [⟨"\x27\x27\x27\"\"\"\\\n\x00", ["LOCK \"a\"", "\t\x27b\n", "\"\"\"\"\x27"]⟩, ⟨"é", []⟩]

theorem ofText_toText_awkward :
    ∃ written, awkward.toText = .ok written ∧ ofText written = .ok awkward := by
  have success : awkward.toText = .ok (String.ofList awkward.write) := rfl
  exact ⟨_, success, ((ofText_toText awkward).2.2 _ success).1 (by decide)⟩

end LockExplorer.Scenario

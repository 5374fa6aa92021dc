import LockExplorer.Proofs.Scenario.RoundTrip
import LockExplorer.Proofs.Text.Trim
import Mathlib.Data.List.Nodup
import Mathlib.Order.Bounds.Basic

/-!
# The first fault of a scenario

The names of the threads are checked one after the other, each against those before it. A scenario
without faults has only names that can be seen, all of them different as they are spelled. Otherwise
the first name that breaks one of the two rules is reported: by its index when it cannot be seen,
even if an earlier one is the same, and by itself when it repeats an earlier one.
-/

namespace LockExplorer.Scenario

def Visible (id : String) : Prop :=
  ∃ character ∈ id.toList, ¬ Text.IsWhiteSpace character

instance (id : String) : Decidable (Visible id) :=
  List.decidableBEx (fun character => ¬ Text.IsWhiteSpace character) id.toList

theorem is_all_blank_iff_not_visible {id : String} :
    Text.isAllBlank id.toList = true ↔ ¬ Visible id := by
  rw [Text.is_all_blank_iff, Text.AllWhite, Visible]
  simp only [not_exists, not_and, not_not]

/-- The name at an index cannot be seen, or it stands at an earlier index too. -/
def OffendsAt (ids : List String) (index : Nat) : Prop :=
  ∃ id, ids[index]? = some id ∧ (¬ Visible id ∨ ∃ earlier < index, ids[earlier]? = some id)

def Fault.of (index : Nat) (id : String) : Fault :=
  if Visible id then .duplicateId id else .blankId index

theorem Fault.message_of (index : Nat) (id : String) :
    (Fault.of index id).message =
      if Visible id then "duplicate thread id '" ++ id ++ "'"
      else "thread #" ++ toString index ++ " has an empty id" := by
  unfold Fault.of
  split <;> rfl

/-! ## The loop over the names -/

theorem get_elem_length_append (before : List String) (id : String) (later : List String) :
    (before ++ id :: later)[before.length]? = some id := by
  rw [List.getElem?_append_right (Nat.le_refl _), Nat.sub_self]
  rfl

theorem offends_at_length_iff {before : List String} {id : String} {later : List String} :
    OffendsAt (before ++ id :: later) before.length ↔ ¬ Visible id ∨ id ∈ before := by
  have repeats : (∃ earlier < before.length, (before ++ id :: later)[earlier]? = some id) ↔
      id ∈ before := by
    rw [List.mem_iff_getElem?]
    constructor
    · intro repeated
      rcases repeated with ⟨earlier, below, found⟩
      rw [List.getElem?_append_left below] at found
      exact ⟨earlier, found⟩
    · intro member
      rcases member with ⟨earlier, found⟩
      have below : earlier < before.length := (List.getElem?_eq_some_iff.mp found).1
      exact ⟨earlier, below, (List.getElem?_append_left below).trans found⟩
  rw [← repeats]
  constructor
  · intro offender
    rcases offender with ⟨other, here, offends⟩
    rw [get_elem_length_append] at here
    cases here
    exact offends
  · intro offends
    exact ⟨id, get_elem_length_append before id later, offends⟩

/-- No name offends, or the fault is that of the first name that does. -/
def Judges (ids : List String) : Option Fault → Prop
  | none => ∀ index, ¬ OffendsAt ids index
  | some reason => ∃ index id, IsLeast {index | OffendsAt ids index} index ∧
      ids[index]? = some id ∧ reason = Fault.of index id

theorem judges_here {before : List String} {id : String} {later : List String}
    (clean : ∀ index < before.length, ¬ OffendsAt (before ++ id :: later) index)
    (offends : ¬ Visible id ∨ id ∈ before) :
    Judges (before ++ id :: later) (some (Fault.of before.length id)) := by
  refine ⟨before.length, id, ⟨offends_at_length_iff.mpr offends, ?_⟩,
    get_elem_length_append before id later, rfl⟩
  intro index also
  by_contra below
  exact clean index (Nat.lt_of_not_le below) also

/-- While no name before an index offends, the check goes on with the names that it has seen. -/
theorem judges_fault_from (before : List String) (later : List ThreadPlan)
    (clean : ∀ index < before.length, ¬ OffendsAt (before ++ later.map ThreadPlan.id) index) :
    Judges (before ++ later.map ThreadPlan.id)
      (faultFrom before.reverse before.length later) := by
  -- The names are fixed; the induction moves the boundary between those seen and those to come.
  induction later generalizing before with
  | nil =>
      intro index offends
      have ⟨_, here, _⟩ := offends
      rw [List.map_nil, List.append_nil] at here
      exact clean index (List.getElem?_eq_some_iff.mp here).1 offends
  | cons plan later induction =>
      rw [List.map_cons] at clean ⊢
      rw [faultFrom]
      split
      · next blank =>
          have hidden : ¬ Visible plan.id := is_all_blank_iff_not_visible.mp blank
          have judged := judges_here clean (Or.inl hidden)
          rwa [Fault.of, if_neg hidden] at judged
      · next notBlank =>
          have visible : Visible plan.id := by
            by_contra hidden
            exact notBlank (is_all_blank_iff_not_visible.mpr hidden)
          split
          · next seen =>
              have judged := judges_here clean (Or.inr (List.mem_reverse.mp seen))
              rwa [Fault.of, if_pos visible] at judged
          · next fresh =>
              have onward := induction (before ++ [plan.id])
              rw [List.append_assoc, List.singleton_append, List.reverse_append,
                List.length_append] at onward
              apply onward
              intro index below
              rcases Nat.lt_succ_iff_lt_or_eq.mp below with earlier | rfl
              · exact clean index earlier
              · rw [offends_at_length_iff, not_or, not_not, ← List.mem_reverse]
                exact ⟨visible, fresh⟩

theorem judges_fault (scenario : Scenario) :
    Judges (scenario.plans.map ThreadPlan.id) scenario.fault? := by
  apply judges_fault_from []
  intro index below
  exact absurd below (Nat.not_lt_zero index)

/-! ## The verdict -/

theorem forall_not_offends_at_iff {ids : List String} :
    (∀ index, ¬ OffendsAt ids index) ↔ (∀ id ∈ ids, Visible id) ∧ ids.Nodup := by
  rw [List.nodup_iff_getElem?_ne_getElem?]
  constructor
  · intro clean
    constructor
    · intro id member
      rcases List.mem_iff_getElem?.mp member with ⟨index, here⟩
      by_contra hidden
      exact clean index ⟨id, here, Or.inl hidden⟩
    · intro earlier index below bounded same
      have here := List.getElem?_eq_getElem bounded
      exact clean index ⟨_, here, Or.inr ⟨earlier, below, same.trans here⟩⟩
  · intro rules index offender
    rcases rules with ⟨visible, different⟩
    rcases offender with ⟨id, here, hidden | ⟨earlier, below, found⟩⟩
    · exact hidden (visible id (List.mem_of_getElem? here))
    · have bounded : index < ids.length := (List.getElem?_eq_some_iff.mp here).1
      exact different earlier index below bounded (found.trans here.symm)

theorem fault_eq_none_iff {scenario : Scenario} :
    scenario.fault? = none ↔
      ∀ index, ¬ OffendsAt (scenario.plans.map ThreadPlan.id) index := by
  have judged := judges_fault scenario
  cases verdict : scenario.fault? with
  | none =>
      rw [verdict] at judged
      exact ⟨fun _ => judged, fun _ => rfl⟩
  | some reason =>
      rw [verdict] at judged
      rcases judged with ⟨index, _, least, _⟩
      exact ⟨fun none => (nomatch none), fun clean => absurd least.1 (clean index)⟩

theorem fault_eq_some_iff {scenario : Scenario} {reason : Fault} :
    scenario.fault? = some reason ↔
      ∃ index id, IsLeast {index | OffendsAt (scenario.plans.map ThreadPlan.id) index} index ∧
        (scenario.plans.map ThreadPlan.id)[index]? = some id ∧ reason = Fault.of index id := by
  have judged := judges_fault scenario
  constructor
  · intro verdict
    rw [verdict] at judged
    exact judged
  · intro first
    rcases first with ⟨index, id, least, here, rfl⟩
    cases verdict : scenario.fault? with
    | none => exact absurd least.1 (fault_eq_none_iff.mp verdict index)
    | some reason =>
        rw [verdict] at judged
        rcases judged with ⟨other, otherId, otherLeast, otherHere, rfl⟩
        cases least.unique otherLeast
        rw [here] at otherHere
        cases otherHere
        rfl

/-- The check of the names is exact. It finds nothing wrong exactly if every name has a character
that is not white space and all names are different. What it reports otherwise is about the name at
the least index that breaks one of these rules: that the thread with this index has no name if the
name cannot be seen, and that the name is a duplicate if it can. So the threads of every scenario
that was read from a text have different names that can be seen. -/
theorem fault?_exact (scenario : Scenario) :
    let ids := scenario.plans.map ThreadPlan.id
    (scenario.fault? = none ↔ (∀ id ∈ ids, Visible id) ∧ ids.Nodup) ∧
      (∀ report, scenario.fault?.map Fault.message = some report ↔
        ∃ index id, IsLeast {index | OffendsAt ids index} index ∧ ids[index]? = some id ∧
          report = if Visible id then "duplicate thread id '" ++ id ++ "'"
            else "thread #" ++ toString index ++ " has an empty id") ∧
      ∀ text, ofText text = .ok scenario → (∀ id ∈ ids, Visible id) ∧ ids.Nodup := by
  intro ids
  have accepted : scenario.fault? = none ↔ (∀ id ∈ ids, Visible id) ∧ ids.Nodup :=
    fault_eq_none_iff.trans forall_not_offends_at_iff
  refine ⟨accepted, ?_, ?_⟩
  · intro report
    rw [Option.map_eq_some_iff]
    constructor
    · intro reported
      rcases reported with ⟨reason, verdict, rfl⟩
      rcases fault_eq_some_iff.mp verdict with ⟨index, id, least, here, rfl⟩
      exact ⟨index, id, least, here, Fault.message_of index id⟩
    · intro first
      rcases first with ⟨index, id, least, here, rfl⟩
      exact ⟨Fault.of index id, fault_eq_some_iff.mpr ⟨index, id, least, here, rfl⟩,
        Fault.message_of index id⟩
  · intro text read
    rcases of_text_eq_ok read with ⟨_, _, _, usable⟩
    exact accepted.mp usable

example : fault? { plans := [⟨"T", []⟩, ⟨"T ", []⟩, ⟨"\u3000", []⟩, ⟨"T", []⟩, ⟨"", []⟩] } =
    some (.blankId 2) := by decide
example : fault? { plans := [⟨"T", []⟩, ⟨"T", []⟩, ⟨" ", []⟩] } =
    some (.duplicateId "T") := by decide

def padded : Scenario where
  plans := [⟨"T", ["LOCK R"]⟩, ⟨" T", []⟩, ⟨"T\u00a0", []⟩]

theorem fault?_exact_padded :
    ∃ text, ofText text = .ok padded ∧ (∀ id ∈ ["T", " T", "T\u00a0"], Visible id) ∧
      ["T", " T", "T\u00a0"].Nodup := by
  have held : LimitHeld padded.limit := fun _ limited => (nomatch limited)
  have read : ofText (String.ofList padded.write) = .ok padded := by
    rw [of_text_write held]
    decide
  exact ⟨_, read, (fault?_exact padded).2.2 _ read⟩

end LockExplorer.Scenario

import LockExplorer.Toml.Document
import Mathlib.Data.List.Basic

/-!
# Whole numbers of a document

Every whole number in a document that is read fits sixty-four bits with a sign. The numbers are
checked where a token is read; arrays, tables, keys and headers only move values about, so the bound
is kept from a single token up to the entries of the document.
-/

namespace LockExplorer.Toml

/-- Every whole number in a value fits sixty-four bits with a sign. -/
inductive Value.Fits : Value → Prop where
  | string (text : String) : Fits (.string text)
  | integer {number : Int} (below : number < Nat.pow 2 63) : Fits (.integer number)
  | decimal (number : Decimal.Binary64) : Fits (.decimal number)
  | boolean (truth : Bool) : Fits (.boolean truth)
  | moment : Fits .moment
  | array {elements : List Value} (each : ∀ element ∈ elements, Fits element) :
      Fits (.array elements)
  | tables {elements : List Entries}
      (each : ∀ entries ∈ elements, ∀ entry ∈ entries, Fits entry.2) : Fits (.tables elements)
  | table {origin : Origin} {entries : Entries} (each : ∀ entry ∈ entries, Fits entry.2) :
      Fits (.table origin entries)

def Entries.Fit (entries : Entries) : Prop :=
  ∀ entry ∈ entries, entry.2.Fits

def AssignmentsFit (assignments : List (List String × Value)) : Prop :=
  ∀ assignment ∈ assignments, assignment.2.Fits

/-! ## Building tables -/

theorem foldlm_keeps {α β : Type} {step : β → α → Option β} {property : β → Prop} {items : List α}
    (kept : ∀ {before after : β} {item : α}, item ∈ items → property before →
      step before item = some after → property after)
    {first last : β} (held : property first) (folded : items.foldlM step first = some last) :
    property last := by
  induction items generalizing first with
  | nil =>
      cases folded
      exact held
  | cons item items induction =>
      rw [List.foldlM_cons, Option.bind_eq_bind, Option.bind_eq_some_iff] at folded
      rcases folded with ⟨middle, one, others⟩
      apply induction _ (kept List.mem_cons_self held one) others
      intro before after other member
      exact kept (List.mem_cons_of_mem _ member)

namespace Entries

theorem Fit.nil : Fit [] := by
  intro entry member
  cases member

theorem Fit.get {entries : Entries} {key : String} {value : Value} (fit : entries.Fit)
    (found : entries.get? key = some value) : value.Fits := by
  rcases List.lookup_eq_some_iff.mp found with ⟨before, after, split, _⟩
  apply fit (key, value)
  rw [split]
  exact List.mem_append_right before List.mem_cons_self

theorem Fit.add {entries : Entries} {value : Value} (fit : entries.Fit) (key : String)
    (fits : value.Fits) : (entries.add key value).Fit := by
  intro entry member
  rcases List.mem_append.mp member with old | new
  · exact fit entry old
  · rw [List.mem_singleton.mp new]
    exact fits

theorem Fit.replace {entries : Entries} {value : Value} (fit : entries.Fit) (key : String)
    (fits : value.Fits) : (entries.replace key value).Fit := by
  intro entry member
  rcases List.mem_map.mp member with ⟨old, present, same⟩
  split at same
  · rw [← same]
    exact fits
  · rw [← same]
    exact fit old present

theorem Fit.erase {entries : Entries} (fit : entries.Fit) (key : String) :
    (entries.erase key).Fit := by
  intro entry member
  exact fit entry (List.mem_filter.mp member).1

theorem Fit.inner {origin : Origin} {inner : Entries} (fits : (Value.table origin inner).Fits) :
    inner.Fit := by
  cases fits with
  | table each => exact each

theorem Fit.newest {elements : List Entries} {newest : Entries}
    (fits : (Value.tables elements).Fits) (last : elements.getLast? = some newest) :
    newest.Fit := by
  cases fits with
  | tables each => exact each newest (List.mem_of_getLast? last)

theorem Fit.extended {elements : List Entries} {added : Entries}
    (each : ∀ entries ∈ elements, entries.Fit) (fit : added.Fit) :
    (Value.tables (elements ++ [added])).Fits := by
  apply Value.Fits.tables
  intro entries member
  rcases List.mem_append.mp member with old | new
  · exact each entries old
  · rw [List.mem_singleton.mp new]
    exact fit

theorem Fit.renewed {elements : List Entries} {newest : Entries}
    (fits : (Value.tables elements).Fits) (fit : newest.Fit) :
    (Value.tables (elements.dropLast ++ [newest])).Fits := by
  cases fits with
  | tables each =>
      apply Fit.extended _ fit
      intro entries member
      exact each entries (List.dropLast_subset elements member)

theorem Fit.assign {direct : Bool} {entries result : Entries} {path : List String} {value : Value}
    (fit : entries.Fit) (fits : value.Fits)
    (assigned : entries.assign direct path value = some result) : result.Fit := by
  fun_induction Entries.assign direct entries path value generalizing result with
  | case1 => cases assigned
  | case2 direct entries key value free =>
      cases assigned
      exact fit.add key fits
  | case3 => cases assigned
  | case4 direct entries key path value single missing induction =>
      rcases Option.map_eq_some_iff.mp assigned with ⟨inner, built, same⟩
      rw [← same]
      exact fit.add key (.table (induction Fit.nil fits built))
  | case5 direct entries key path value single inner found induction =>
      rcases Option.map_eq_some_iff.mp assigned with ⟨changed, built, same⟩
      rw [← same]
      exact fit.replace key (.table (induction (Fit.inner (fit.get found)) fits built))
  | case6 direct entries key path value single inner found induction =>
      rcases Option.map_eq_some_iff.mp assigned with ⟨changed, built, same⟩
      rw [← same]
      exact fit.replace key (.table (induction (Fit.inner (fit.get found)) fits built))
  | case7 direct entries key path value single elements found newest last induction =>
      rcases Option.map_eq_some_iff.mp assigned with ⟨changed, built, same⟩
      have whole := fit.get found
      rw [← same]
      exact fit.replace key (Fit.renewed whole (induction (Fit.newest whole last) fits built))
  | case8 => cases assigned
  | case9 => cases assigned

theorem Fit.assign_all {entries result : Entries} {assignments : List (List String × Value)}
    (fit : entries.Fit) (fits : AssignmentsFit assignments)
    (assigned : entries.assignAll assignments = some result) : result.Fit := by
  apply foldlm_keeps _ fit assigned
  intro before after assignment member whole one
  exact whole.assign (fits assignment member) one

theorem Fit.define_table {entries result : Entries} {key : String}
    {assignments : List (List String × Value)} (fit : entries.Fit)
    (fits : AssignmentsFit assignments)
    (defined : entries.defineTable key assignments = some result) : result.Fit := by
  unfold Entries.defineTable at defined
  split at defined
  · rcases Option.map_eq_some_iff.mp defined with ⟨body, filled, same⟩
    rw [← same]
    exact fit.add key (.table (Fit.nil.assign_all fits filled))
  · next found =>
      rcases Option.map_eq_some_iff.mp defined with ⟨body, filled, same⟩
      rw [← same]
      exact (fit.erase key).add key
        (.table ((Fit.inner (fit.get found)).assign_all fits filled))
  · cases defined

theorem Fit.extend_tables {entries result : Entries} {key : String}
    {assignments : List (List String × Value)} (fit : entries.Fit)
    (fits : AssignmentsFit assignments)
    (extended : entries.extendTables key assignments = some result) : result.Fit := by
  unfold Entries.extendTables at extended
  split at extended
  · rcases Option.map_eq_some_iff.mp extended with ⟨body, filled, same⟩
    rw [← same]
    have none : ∀ element ∈ ([] : List Entries), element.Fit := by
      intro element member
      cases member
    exact fit.add key (Fit.extended none (Fit.nil.assign_all fits filled))
  · next elements found =>
      rcases Option.map_eq_some_iff.mp extended with ⟨body, filled, same⟩
      rw [← same]
      cases fit.get found with
      | tables each =>
          exact fit.replace key (Fit.extended each (Fit.nil.assign_all fits filled))
  · cases extended

theorem Fit.within {change : Entries → Option Entries} {entries result : Entries}
    {path : List String}
    (kept : ∀ {before after : Entries}, before.Fit → change before = some after → after.Fit)
    (fit : entries.Fit) (changed : entries.within change path = some result) : result.Fit := by
  fun_induction Entries.within change entries path generalizing result with
  | case1 entries => exact kept fit changed
  | case2 entries key path missing induction =>
      rcases Option.map_eq_some_iff.mp changed with ⟨inner, built, same⟩
      rw [← same]
      exact fit.add key (.table (induction Fit.nil built))
  | case3 => cases changed
  | case4 entries key path origin inner found written induction =>
      rcases Option.map_eq_some_iff.mp changed with ⟨after, built, same⟩
      rw [← same]
      exact fit.replace key (.table (induction (Fit.inner (fit.get found)) built))
  | case5 entries key path elements found newest last induction =>
      rcases Option.map_eq_some_iff.mp changed with ⟨after, built, same⟩
      have whole := fit.get found
      rw [← same]
      exact fit.replace key (Fit.renewed whole (induction (Fit.newest whole last) built))
  | case6 => cases changed
  | case7 => cases changed

end Entries

/-! ## Looking into values -/

theorem Value.Fits.entries {value : Value} {entries : Entries} (fits : value.Fits)
    (found : value.entries? = some entries) : entries.Fit := by
  unfold Value.entries? at found
  split at found
  · cases found
    exact Entries.Fit.inner fits
  · cases found
    exact Entries.Fit.nil
  · cases found

theorem Value.Fits.elements {value element : Value} {elements : List Value} (fits : value.Fits)
    (found : value.elements? = some elements) (member : element ∈ elements) : element.Fits := by
  unfold Value.elements? at found
  split at found
  · cases found
    cases fits with
    | array each => exact each element member
  · cases found
    cases fits with
    | tables each =>
        rcases List.mem_map.mp member with ⟨entries, present, same⟩
        rw [← same]
        exact .table (each entries present)
  · cases found

/-! ## Reading values -/

/-- Whatever a reader reads has the property. -/
def Gives {α : Type} (property : α → Prop) (reader : Reader α) : Prop :=
  ∀ {input rest : List Char} {read : α}, reader input = some (read, rest) → property read

theorem lt_of_fitting {number kept : Int} (fitted : fitting? number = some kept) :
    kept < Nat.pow 2 63 := by
  unfold fitting? at fitted
  dsimp only at fitted
  split at fitted
  · next bounds =>
      cases fitted
      rw [Bool.and_eq_true, decide_eq_true_eq, decide_eq_true_eq] at bounds
      exact bounds.2
  · cases fitted

theorem lt_of_integer {token : List Char} {number : Int} (read : integer? token = some number) :
    number < Nat.pow 2 63 := by
  unfold integer? at read
  split at read
  all_goals
    rcases Option.bind_eq_some_iff.mp read with ⟨value, _, fitted⟩
    exact lt_of_fitting fitted

theorem fits_of_scalar_of_token {token : List Char} {value : Value}
    (read : scalarOfToken? token = some value) : value.Fits := by
  unfold scalarOfToken? at read
  split_ifs at read
  · cases read
    exact .boolean true
  · cases read
    exact .boolean false
  · cases read
    exact .moment
  · split at read
    · next number found =>
        cases read
        exact .integer (lt_of_integer found)
    · rcases Option.map_eq_some_iff.mp read with ⟨number, _, same⟩
      rw [← same]
      exact .decimal number

theorem gives_scalar : Gives Value.Fits scalar := by
  intro input rest read found
  unfold scalar at found
  dsimp only at found
  split at found
  · split_ifs at found
    · cases found
      exact .moment
    · cases found
      exact .moment
  · rcases Option.map_eq_some_iff.mp found with ⟨value, token, same⟩
    cases same
    exact fits_of_scalar_of_token token

section Composite

variable {value : Reader Value} (fits : Gives Value.Fits value)

include fits

theorem gives_elements (more : Nat) :
    Gives (fun values => ∀ element ∈ values, element.Fits) (elements value more) := by
  intro input rest read found
  fun_induction elements value more input generalizing rest read with
  | case1 => cases found
  | case2 =>
      cases found
      intro element member
      cases member
  | case3 => cases found
  | case4 more input first after _ _ _ valued =>
      cases found
      intro element member
      rw [List.mem_singleton.mp member]
      exact fits valued
  | case5 more input first after _ _ others later listed _ valued induction =>
      cases found
      intro element member
      rcases List.mem_cons.mp member with same | other
      · rw [same]
        exact fits valued
      · exact induction listed element other
  | case6 => cases found
  | case7 => cases found

theorem gives_assignment : Gives (fun read => read.2.Fits) (assignment value) := by
  intro input rest read found
  unfold assignment at found
  split at found
  · split at found
    · next valued =>
        cases found
        exact fits valued
    · cases found
  · cases found

theorem gives_assignments (more : Nat) : Gives AssignmentsFit (assignments value more) := by
  intro input rest read found
  fun_induction assignments value more input generalizing rest read with
  | case1 => cases found
  | case2 => cases found
  | case3 more input first after assigned =>
      cases found
      intro assignment member
      rw [List.mem_singleton.mp member]
      exact gives_assignment fits assigned
  | case4 more input first after assigned _ _ others later listed induction =>
      cases found
      intro assignment member
      rcases List.mem_cons.mp member with same | other
      · rw [same]
        exact gives_assignment fits assigned
      · exact induction listed assignment other
  | case5 => cases found
  | case6 => cases found

theorem gives_inline_table : Gives Value.Fits (inlineTable value) := by
  intro input rest read found
  unfold inlineTable at found
  split at found
  · cases found
    exact .table Entries.Fit.nil
  · split at found
    · cases found
    · next listed =>
        split at found
        · next assigned =>
            cases found
            exact .table (Entries.Fit.nil.assign_all (gives_assignments fits _ listed) assigned)
        · cases found

end Composite

theorem gives_text : Gives Value.Fits fun input =>
    (text input).map fun read => (Value.string read.1, read.2) := by
  intro input rest read found
  rcases Option.map_eq_some_iff.mp found with ⟨content, _, same⟩
  cases same
  exact .string content.1

theorem gives_value_within (nesting : Nat) : Gives Value.Fits (valueWithin nesting) := by
  -- Arrays and tables hold values of one level less; everything else is read as it stands.
  induction nesting with
  | zero =>
      intro input rest read found
      unfold valueWithin at found
      split at found
      · cases found
      · cases found
      · exact gives_text found
      · exact gives_text found
      · exact gives_scalar found
  | succ nesting induction =>
      intro input rest read found
      unfold valueWithin at found
      split at found
      · dsimp only at found
        split at found
        · next listed =>
            cases found
            exact .array (gives_elements induction _ listed)
        · cases found
      · exact gives_inline_table induction found
      · exact gives_text found
      · exact gives_text found
      · exact gives_scalar found

/-! ## Reading documents -/

def StatementsFit (statements : List Statement) : Prop :=
  ∀ {path : List String} {value : Value}, .assignment path value ∈ statements → value.Fits

theorem gives_statement : Gives (fun read => StatementsFit [read]) statement := by
  intro input rest read found path value member
  have same := List.mem_singleton.mp member
  subst same
  unfold statement at found
  split at found
  · split at found
    · cases found
    · cases found
  · split at found
    · cases found
    · cases found
  · rcases Option.map_eq_some_iff.mp found with ⟨assigned, stated, same⟩
    cases same
    exact gives_assignment (gives_value_within nestingBound) stated

theorem fit_of_statements {more : Nat} {input : List Char} {read : List Statement}
    (found : statements more input = some read) : StatementsFit read := by
  fun_induction statements more input generalizing read with
  | case1 => cases found
  | case2 =>
      cases found
      intro path value member
      cases member
  | case3 more input rest _ _ induction => exact induction found
  | case4 => cases found
  | case5 => cases found
  | case6 more input first rest after _ _ _ stated induction =>
      rcases Option.map_eq_some_iff.mp found with ⟨others, later, same⟩
      rw [← same]
      intro path value member
      rcases List.mem_cons.mp member with head | other
      · exact gives_statement stated (List.mem_singleton.mpr head)
      · exact induction later other

/-- The values stand in the sections as they stood in the statements. -/
theorem fit_of_group {read : List Statement} (fit : StatementsFit read) :
    AssignmentsFit (group read).1 ∧
      ∀ written ∈ (group read).2, AssignmentsFit written.assignments := by
  induction read with
  | nil =>
      constructor
      · intro assignment member
        cases member
      · intro written member
        cases member
  | cons first later induction =>
      have behind := induction fun member => fit (List.mem_cons_of_mem _ member)
      cases first with
      | assignment path value =>
          constructor
          · intro assignment member
            rcases List.mem_cons.mp member with same | other
            · rw [same]
              exact fit List.mem_cons_self
            · exact behind.1 assignment other
          · exact behind.2
      | header repeated path =>
          constructor
          · intro assignment member
            cases member
          · intro written member
            rcases List.mem_cons.mp member with same | other
            · rw [same]
              exact behind.1
            · exact behind.2 written other

namespace Entries

theorem Fit.attach {entries result : Entries} {added : Section} (fit : entries.Fit)
    (fits : AssignmentsFit added.assignments) (attached : entries.attach added = some result) :
    result.Fit := by
  unfold Entries.attach at attached
  split at attached
  · cases attached
  · refine Fit.within ?_ fit attached
    intro before after whole changed
    split at changed
    · exact whole.extend_tables fits changed
    · exact whole.define_table fits changed

/-- Whatever text is read, every whole number among the entries of its document fits. -/
theorem fit_of_of_text {input : List Char} {entries : Entries}
    (read : Entries.ofText? input = some entries) : entries.Fit := by
  unfold Entries.ofText? at read
  rcases Option.bind_eq_some_iff.mp read with ⟨stated, found, built⟩
  have fit := fit_of_group (fit_of_statements found)
  unfold Entries.ofStatements at built
  dsimp only at built
  split at built
  · next assigned =>
      apply foldlm_keeps _ (Fit.nil.assign_all fit.1 assigned) built
      intro before after written member whole attached
      exact whole.attach (fit.2 written member) attached
  · cases built

end Entries

end LockExplorer.Toml

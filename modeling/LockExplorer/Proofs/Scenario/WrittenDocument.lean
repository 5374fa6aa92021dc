import LockExplorer.Proofs.Toml.WrittenLines
import LockExplorer.Scenario.File

/-!
# The document of a scenario

The text that describes a scenario is read as one section for the settings and one for each thread,
in order; without threads, an empty array of them comes first. These sections make up the entries
that describe the same scenario.
-/

namespace LockExplorer.Scenario

open LockExplorer.Toml

def LimitHeld (limit : Option UInt64) : Prop :=
  ∀ bound ∈ limit, bound.toNat < Nat.pow 2 63

/-! ## Text to statements -/

def settingsSection (limit : Option UInt64) : Section where
  repeated := false
  path := ["explore"]
  assignments := limit.toList.map fun limit => (["max_permutations"], .integer limit.toNat)

def planSection (plan : ThreadPlan) : Section where
  repeated := true
  path := ["threads"]
  assignments :=
    [(["id"], .string plan.id), (["actions"], .array (plan.actions.map .string))]

theorem reads_settings {limit : Option UInt64} {rest : List Char} {read : List Statement}
    (held : LimitHeld limit) (later : Reads rest read) :
    Reads (writeSettings limit ++ rest) ((settingsSection limit).statements ++ read) := by
  have table : Bare "explore".toList := by decide
  have key : Bare "max_permutations".toList := by decide
  have heading : "[explore]\n".toList = '[' :: ("explore".toList ++ [']', '\n']) := by decide
  have prompt : "max_permutations = ".toList = "max_permutations".toList ++ [' ', '=', ' '] := by
    decide
  unfold writeSettings
  rw [heading]
  cases limit with
  | none =>
      simp only [List.append_assoc, List.cons_append, List.nil_append]
      exact table.reads_table later
  | some limit =>
      have numbered : value (Nat.toDigits 10 limit.toNat ++ '\n' :: rest) =
          some (.integer limit.toNat, '\n' :: rest) :=
        value_within_to_digits nestingBound (held limit rfl) (Outside.cons rfl rest)
      dsimp only
      rw [prompt]
      simp only [List.append_assoc, List.cons_append, List.nil_append]
      apply table.reads_table
      exact key.reads_assignment numbered (outside_is_space_to_digits _ _) later

theorem reads_plan (plan : ThreadPlan) {rest : List Char} {read : List Statement}
    (later : Reads rest read) :
    Reads (writePlan plan ++ rest) ((planSection plan).statements ++ read) := by
  have table : Bare "threads".toList := by decide
  have idKey : Bare "id".toList := by decide
  have actionsKey : Bare "actions".toList := by decide
  have heading : "\n[[threads]]\nid = ".toList = '\n' :: '[' :: '[' :: ("threads".toList ++
      (']' :: ']' :: '\n' :: ("id".toList ++ [' ', '=', ' ']))) := by decide
  have prompt : "\nactions = ".toList = '\n' :: ("actions".toList ++ [' ', '=', ' ']) := by decide
  unfold writePlan
  rw [heading, prompt]
  simp only [List.append_assoc, List.cons_append, List.nil_append]
  apply Reads.blank
  apply table.reads_tables
  apply idKey.reads_assignment
    (value_within_write_text nestingBound plan.id (by simp) (by simp))
    (outside_is_space_write_text plan.id _)
  exact actionsKey.reads_assignment (value_write_texts plan.actions _)
    (outside_is_space_write_texts plan.actions _) later

theorem reads_plans (plans : List ThreadPlan) :
    Reads (plans.flatMap writePlan) ((plans.map planSection).flatMap Section.statements) := by
  induction plans with
  | nil => exact Reads.nil
  | cons plan plans induction =>
      rw [List.flatMap_cons, List.map_cons, List.flatMap_cons]
      exact reads_plan plan induction

def leadingAssignments (plans : List ThreadPlan) : List (List String × Value) :=
  if plans.isEmpty then [(["threads"], .array [])] else []

def sections (scenario : Scenario) : List Section :=
  settingsSection scenario.limit :: scenario.plans.map planSection

theorem reads_write {scenario : Scenario} (held : LimitHeld scenario.limit) :
    Reads scenario.write (assignmentStatements (leadingAssignments scenario.plans) ++
      scenario.sections.flatMap Section.statements) := by
  have settings : Reads (writeSettings scenario.limit ++ scenario.plans.flatMap writePlan)
      (scenario.sections.flatMap Section.statements) :=
    reads_settings held (reads_plans scenario.plans)
  unfold write leadingAssignments
  -- Without threads the array of them is written as an assignment, before the first section.
  by_cases empty : scenario.plans = []
  · have key : Bare "threads".toList := by decide
    have opening : "threads = []\n\n".toList =
        "threads".toList ++ ' ' :: '=' :: ' ' :: (writeTexts [] ++ ['\n', '\n']) := by decide
    rw [empty] at settings ⊢
    rw [List.isEmpty_nil, if_pos rfl, if_pos rfl, opening]
    rw [List.flatMap_nil, List.append_nil] at settings
    simp only [List.append_assoc, List.cons_append, List.nil_append]
    exact key.reads_assignment (value_write_texts [] _) (outside_is_space_write_texts [] _)
      settings.blank
  · have some : ¬ scenario.plans.isEmpty = true := by simpa using empty
    rw [if_neg some, if_neg some]
    exact settings

theorem head_write (scenario : Scenario) : scenario.write.head? ≠ some '\ufeff' := by
  have threads : "threads = []\n\n".toList.head? = some 't' := by decide
  have settings : "[explore]\n".toList.head? = some '[' := by decide
  unfold write writeSettings
  split
  · rw [List.head?_append, threads, Option.some_or]
    decide
  · rw [List.head?_append, List.head?_append, settings, Option.some_or, Option.some_or]
    decide

/-! ## Statements to entries -/

def settingsEntries (limit : Option UInt64) : Entries :=
  limit.toList.map fun limit => ("max_permutations", .integer limit.toNat)

def planEntries (plan : ThreadPlan) : Entries :=
  [("id", .string plan.id), ("actions", .array (plan.actions.map .string))]

theorem attach_settings (limit : Option UInt64) {entries : Entries}
    (fresh : entries.get? "explore" = none) :
    entries.attach (settingsSection limit) =
      some (entries.add "explore" (.table .header (settingsEntries limit))) := by
  have filled : Entries.assignAll [] (settingsSection limit).assignments =
      some (settingsEntries limit) := by
    cases limit with
    | none => rfl
    | some limit => rfl
  change entries.defineTable "explore" (settingsSection limit).assignments = _
  rw [Entries.defineTable, fresh]
  dsimp only
  rw [filled]
  rfl

theorem attach_plans (settings : Value) (bodies : List Entries) (plans : List ThreadPlan) :
    (plans.map planSection).foldlM Entries.attach
        [("explore", settings), ("threads", .tables bodies)] =
      some [("explore", settings), ("threads", .tables (bodies ++ plans.map planEntries))] := by
  induction plans generalizing bodies with
  | nil =>
      rw [List.map_nil, List.map_nil, List.append_nil]
      rfl
  | cons plan plans induction =>
      have attached : Entries.attach [("explore", settings), ("threads", .tables bodies)]
          (planSection plan) =
            some [("explore", settings), ("threads", .tables (bodies ++ [planEntries plan]))] := by
        rfl
      rw [List.map_cons, List.foldlM_cons, attached, Option.bind_eq_bind, Option.bind_some,
        induction, List.append_assoc]
      rfl

def writtenEntries (scenario : Scenario) : Entries :=
  let settings : String × Value := ("explore", .table .header (settingsEntries scenario.limit))
  if scenario.plans.isEmpty then [("threads", .array []), settings]
  else [settings, ("threads", .tables (scenario.plans.map planEntries))]

theorem of_statements_sections (scenario : Scenario) :
    Entries.ofStatements (assignmentStatements (leadingAssignments scenario.plans) ++
      scenario.sections.flatMap Section.statements) = some scenario.writtenEntries := by
  rw [Entries.of_statements_sections, sections, leadingAssignments, writtenEntries]
  cases scenario.plans with
  | nil =>
      change [settingsSection scenario.limit].foldlM Entries.attach [("threads", .array [])] = _
      rw [List.foldlM_cons, attach_settings scenario.limit rfl]
      rfl
  | cons plan plans =>
      -- The first thread brings the array of tables about; the others extend it.
      have first : Entries.attach
          [("explore", .table .header (settingsEntries scenario.limit))] (planSection plan) =
            some [("explore", .table .header (settingsEntries scenario.limit)),
              ("threads", .tables [planEntries plan])] := by
        rfl
      change (settingsSection scenario.limit :: planSection plan ::
        plans.map planSection).foldlM Entries.attach [] = _
      rw [List.foldlM_cons, attach_settings scenario.limit rfl, Option.bind_eq_bind,
        Option.bind_some, List.foldlM_cons]
      change (Entries.attach [("explore", .table .header (settingsEntries scenario.limit))]
        (planSection plan)).bind _ = _
      rw [first, Option.bind_some]
      exact attach_plans _ [planEntries plan] plans

/-! ## Entries to scenario -/

theorem settings_of_entries (limit : Option UInt64) :
    settingsOf (.table .header (settingsEntries limit)) = .ok limit := by
  cases limit with
  | none => rfl
  | some limit =>
      have read : limitOf (.integer limit.toNat) = .ok limit := by
        rw [limitOf, if_neg (by omega), Int.toNat_natCast, UInt64.ofNat_toNat]
      change (limitOf (.integer limit.toNat)).map some = _
      rw [read]
      rfl

theorem mapm_text_of (actions : List String) :
    (actions.map Value.string).mapM textOf = .ok actions := by
  induction actions with
  | nil => rfl
  | cons action actions induction =>
      rw [List.map_cons, List.mapM_cons, induction]
      rfl

theorem plan_of_entries (plan : ThreadPlan) :
    planOf (.table .header (planEntries plan)) = .ok plan := by
  have listed : actionsOf (.array (plan.actions.map .string)) = .ok plan.actions :=
    mapm_text_of plan.actions
  have visited : (planEntries plan).foldlM PartialPlan.visit {} =
      .ok ⟨some plan.id, plan.actions⟩ := by
    change (actionsOf (.array (plan.actions.map .string))).map _ >>= _ = _
    rw [listed]
    rfl
  unfold planOf
  dsimp only [Value.entries?]
  rw [visited]

theorem mapm_plan_of (plans : List ThreadPlan) :
    (plans.map fun plan => Value.table .header (planEntries plan)).mapM planOf = .ok plans := by
  induction plans with
  | nil => rfl
  | cons plan plans induction =>
      rw [List.map_cons, List.mapM_cons, plan_of_entries, induction]
      rfl

theorem visit_settings (scenario : Scenario) (limit : Option UInt64) :
    scenario.visit ("explore", .table .header (settingsEntries limit)) =
      .ok { scenario with limit } := by
  change (settingsOf (.table .header (settingsEntries limit))).map _ = _
  rw [settings_of_entries]
  rfl

theorem visit_plans (scenario : Scenario) (plans : List ThreadPlan) :
    scenario.visit ("threads", .tables (plans.map planEntries)) =
      .ok { scenario with plans } := by
  change ((plans.map planEntries).map (Value.table .header)).mapM planOf >>= _ = _
  rw [List.map_map]
  change (plans.map fun plan => Value.table .header (planEntries plan)).mapM planOf >>= _ = _
  rw [mapm_plan_of]
  rfl

theorem of_entries_written_entries (scenario : Scenario) :
    ofEntries scenario.writtenEntries = .ok scenario := by
  unfold writtenEntries ofEntries
  by_cases empty : scenario.plans = []
  · have whole : scenario = { limit := scenario.limit, plans := [] } := by
      rw [← empty]
    have noThreads : visit {} ("threads", .array []) = .ok { plans := [] } := rfl
    rw [if_pos (by simpa using empty), List.foldlM_cons, noThreads]
    change visit { plans := [] } _ >>= _ = _
    rw [visit_settings]
    exact congrArg Except.ok whole.symm
  · rw [if_neg (by simpa using empty)]
    change visit {} _ >>= _ = _
    rw [visit_settings]
    change visit { limit := scenario.limit } _ >>= _ = _
    rw [visit_plans]
    rfl

/-- What is written for a scenario whose limit fits describes this scenario. -/
theorem of_text_write {scenario : Scenario} (held : LimitHeld scenario.limit) :
    ofText (String.ofList scenario.write) = scenario.checked := by
  have document : Entries.ofText? scenario.write = some scenario.writtenEntries := by
    rw [← of_statements_sections]
    exact Entries.of_text_of_reads (head_write scenario) (reads_write held)
  unfold ofText
  rw [String.toList_ofList, document]
  dsimp only
  rw [of_entries_written_entries]

end LockExplorer.Scenario

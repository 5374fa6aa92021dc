import LockExplorer.Proofs.Exploration.SideBySide

/-!
# Reading the verdict off the log

Somebody who has only the text of the log looks for the lines that begin with the words of a find.
No other line begins with them, unless a thread is named so: what narrates an action begins with the
name of a thread and goes on with a blank and a word that is not the second word of the phrase.
Counting these lines therefore tells how long the log is and whether anything was reported.
-/

namespace LockExplorer

/-! ## Lines that look like a find -/

namespace Line

def isAlarm (line : String) : Bool :=
  line.startsWith "Deadlock detected"

theorem is_alarm_iff {line : String} :
    isAlarm line = true ↔ "Deadlock detected".toList <+: line.toList :=
  String.startsWith_string_iff

theorem is_alarm_eq_false_iff {line : String} :
    isAlarm line = false ↔ ¬ "Deadlock detected".toList <+: line.toList :=
  String.startsWith_string_eq_false_iff

theorem is_alarm_deadlock (thread : ThreadId) : isAlarm (deadlock thread) = true := by
  have begins : "Deadlock detected".toList <+: "Deadlock detected involving thread: ".toList := by
    decide
  have parts : (deadlock thread).toList =
      "Deadlock detected involving thread: ".toList ++ thread.name.toList :=
    String.toList_append
  rw [is_alarm_iff, parts]
  exact begins.trans (List.prefix_append _ _)

theorem is_alarm_of_other_first {line : String} {first : Char} {rest : List Char}
    (begins : line.toList = first :: rest) (other : first ≠ 'D') : isAlarm line = false := by
  apply is_alarm_eq_false_iff.mpr
  rw [begins]
  rintro ⟨behind, same⟩
  exact other (List.cons.inj same).1.symm

/-- After the blank of the phrase comes its second word. -/
theorem second_word (passed : Nat)
    (blank : ("Deadlock detected".toList.drop passed).head? = some ' ') :
    ("Deadlock detected".toList.drop passed)[1]? = some 'd' := by
  have within : ∀ passed < 17, ("Deadlock detected".toList.drop passed).head? = some ' ' →
      ("Deadlock detected".toList.drop passed)[1]? = some 'd' := by
    decide
  by_cases inside : passed < 17
  · exact within passed inside blank
  · have beyond : "Deadlock detected".toList.length ≤ passed := Nat.le_of_not_lt inside
    rw [List.drop_of_length_le beyond] at blank
    cases blank

/-- A name that does not begin with the phrase may still be the beginning of it. The words after the
name cannot complete the phrase then. -/
theorem is_alarm_after_name {name words : String} {next : Char}
    (plain : isAlarm name = false) (opens : words.toList.take 2 = [' ', next])
    (other : next ≠ 'd') (object : String) : isAlarm (name ++ words ++ object) = false := by
  have parts : (name ++ words ++ object).toList =
      name.toList ++ ' ' :: next :: (words.toList.drop 2 ++ object.toList) := by
    rw [String.toList_append, String.toList_append, List.append_assoc,
      ← List.take_append_drop 2 words.toList, opens, List.drop_left']
    · rfl
    · rfl
  rw [is_alarm_eq_false_iff] at plain ⊢
  rw [parts]
  intro begins
  -- Either the phrase ends within the name, or the name ends within the phrase.
  rcases List.prefix_or_prefix_of_prefix begins (List.prefix_append _ _) with whole | ⟨tail, phrase⟩
  · exact plain whole
  · have dropped : "Deadlock detected".toList.drop name.toList.length = tail := by
      rw [← phrase, List.drop_left]
    rw [← phrase, List.prefix_append_right_inj] at begins
    cases tail with
    | nil =>
        apply plain
        rw [← phrase, List.append_nil]
    | cons blank word =>
        rcases List.cons_prefix_cons.mp begins with ⟨rfl, inWord⟩
        have second := second_word name.toList.length (by rw [dropped]; rfl)
        rw [dropped] at second
        cases word with
        | nil => cases second
        | cons letter letters =>
            have letterNext := (List.cons_prefix_cons.mp inWord).1
            have letterSecond : letter = 'd' := Option.some.inj second
            exact other (letterNext.symm.trans letterSecond)

theorem is_alarm_exploring (order : List ThreadId) : isAlarm (exploring order) = false := by
  have parts : (exploring order).toList = "Exploring permutation: ".toList ++
      (String.intercalate ", " (order.map ThreadId.name)).toList := String.toList_append
  apply is_alarm_of_other_first parts
  decide

theorem is_alarm_running (thread : ThreadId) : isAlarm (running thread) = false := by
  have parts : (running thread).toList = "Running thread: ".toList ++ thread.name.toList :=
    String.toList_append
  apply is_alarm_of_other_first parts
  decide

end Line

/-! ## Finds of a run -/

namespace Ledger

variable {thread : ThreadId}

theorem is_alarm_narration (plain : Line.isAlarm thread.name = false) (ledger : Ledger)
    (action : Action) : Line.isAlarm (ledger.narration thread action) = false := by
  cases action with
  | lock resource =>
      rw [narration]
      split
      · exact Line.is_alarm_after_name plain rfl (by decide) resource.name
      · exact Line.is_alarm_after_name plain rfl (by decide) resource.name
  | unlock resource => exact Line.is_alarm_after_name plain rfl (by decide) resource.name
  | generic label => exact Line.is_alarm_after_name plain rfl (by decide) label

theorem countp_is_alarm_finding (ledger : Ledger) :
    ledger.finding.countP Line.isAlarm = if ledger.cycle?.isSome then 1 else 0 := by
  rw [finding]
  cases ledger.cycle? with
  | none => rfl
  | some named =>
      have found : Line.isAlarm (Line.deadlock named) = true := Line.is_alarm_deadlock named
      rw [Option.map_some, Option.toList_some, List.countP_cons_of_pos found]
      rfl

/-- Seen as text only, the lines of a run tell how often a check has found something. -/
theorem countp_is_alarm_lines_from (plain : Line.isAlarm thread.name = false) (ledger : Ledger)
    (actions : List Action) : (ledger.linesFrom thread actions).countP Line.isAlarm =
      (ledger.verdictsFrom thread actions).countP Option.isSome := by
  induction actions generalizing ledger with
  | nil => rfl
  | cons action later induction =>
      have narrated : ¬ Line.isAlarm (ledger.narration thread action) = true := by
        rw [is_alarm_narration plain]
        decide
      rw [linesFrom, verdictsFrom, List.cons_append, List.countP_cons_of_neg narrated,
        List.countP_append, induction, countp_is_alarm_finding, List.countP_cons]
      exact Nat.add_comm _ _

end Ledger

namespace ThreadRun

variable {run : ThreadRun}

def finds (run : ThreadRun) : Nat :=
  run.verdicts.countP Option.isSome

theorem countp_is_alarm_lines (plain : Line.isAlarm run.thread.id.name = false) :
    run.lines.countP Line.isAlarm = run.finds := by
  have marker : ¬ Line.isAlarm (Line.running run.thread.id) = true := by
    rw [Line.is_alarm_running]
    decide
  rw [lines, List.countP_cons_of_neg marker]
  exact Ledger.countp_is_alarm_lines_from plain run.before.ledger run.thread.actions

theorem finds_le (run : ThreadRun) : run.finds ≤ run.thread.actions.length := by
  have found : run.replays.map Replay.found = run.verdicts :=
    Simulation.map_found_replays run.announced run.thread.id run.thread.actions
  have length : run.verdicts.length = run.thread.actions.length := by
    rw [← found, List.length_map]
    exact Simulation.length_replays run.announced run.thread.id run.thread.actions
  rw [← length]
  exact List.countP_le_length

theorem finds_eq_zero_iff (run : ThreadRun) : run.finds = 0 ↔ run.report? = none := by
  rw [finds, List.countP_eq_zero, report_eq, Option.map_eq_none_iff, List.findSome?_eq_none_iff]
  simp only [Option.not_isSome_iff_eq_none, id]

theorem length_report_le (run : ThreadRun) : run.report?.toList.length ≤ run.finds := by
  cases reported : run.report? with
  | none => exact Nat.zero_le _
  | some report =>
      apply Nat.pos_of_ne_zero
      intro silent
      rw [run.finds_eq_zero_iff.mp silent] at reported
      cases reported

end ThreadRun

/-! ## Finds of an exploration -/

namespace Exploration

variable {threads : List Thread} {limit : Option UInt64}

theorem countp_is_alarm_ordering_lines {runs : List ThreadRun}
    (plain : ∀ run ∈ runs, Line.isAlarm run.thread.id.name = false) :
    (orderingLines runs).countP Line.isAlarm = (runs.map ThreadRun.finds).sum := by
  have marker : ¬ Line.isAlarm (Line.exploring (runs.map fun run => run.thread.id)) = true := by
    rw [Line.is_alarm_exploring]
    decide
  rw [orderingLines, List.countP_cons_of_neg marker, List.countP_flatMap]
  congr 1
  apply List.map_congr_left
  intro run member
  exact ThreadRun.countp_is_alarm_lines (plain run member)

theorem length_ordering_lines (runs : List ThreadRun) :
    (orderingLines runs).length =
      1 + ((runs.map fun run => 1 + run.thread.actions.length).sum +
        (runs.map ThreadRun.finds).sum) := by
  rw [orderingLines, List.length_cons, List.length_flatMap, ← List.sum_map_add, Nat.add_comm]
  congr 2
  apply List.map_congr_left
  intro run _
  rw [run.length_lines, ThreadRun.finds]
  omega

theorem countp_is_alarm_log (plain : ∀ thread ∈ threads, Line.isAlarm thread.id.name = false)
    (limit : Option UInt64) :
    (explore threads limit).simulation.log.toList.countP Line.isAlarm =
      ((threadRuns threads limit).map ThreadRun.finds).sum := by
  rw [log_explore, List.countP_flatMap, ← flatten_ordering_runs, List.map_flatten, List.sum_flatten,
    List.map_map]
  congr 1
  apply List.map_congr_left
  intro runs listed
  apply countp_is_alarm_ordering_lines
  intro run member
  have inside : run ∈ threadRuns threads limit := by
    rw [← flatten_ordering_runs]
    exact List.mem_flatten_of_mem listed member
  exact plain run.thread (thread_of_mem_thread_runs inside)

theorem length_ordering_runs (threads : List Thread) (limit : Option UInt64) :
    (orderingRuns threads limit).length = (explore threads limit).explored := by
  rw [(explore_spec threads limit).1, ← threads_ordering_runs, List.length_map]

theorem length_flat_map_ordering_lines (orderings : List (List ThreadRun)) :
    (orderings.flatMap orderingLines).length =
      orderings.length + ((orderings.flatten.map fun run => 1 + run.thread.actions.length).sum +
        (orderings.flatten.map ThreadRun.finds).sum) := by
  induction orderings with
  | nil => rfl
  | cons runs later induction =>
      rw [List.flatMap_cons, List.length_append, length_ordering_lines, induction,
        List.flatten_cons, List.map_append, List.map_append, List.sum_append, List.sum_append,
        List.length_cons]
      omega

theorem sum_flatten_of_perm {sequence : List (List Thread)}
    (rearranged : ∀ ordering ∈ sequence, ordering.Perm threads) (weight : Thread → Nat) :
    (sequence.flatten.map weight).sum = sequence.length * (threads.map weight).sum := by
  induction sequence with
  | nil => simp
  | cons ordering later induction =>
      rw [List.forall_mem_cons] at rearranged
      have first := (rearranged.1.map weight).sum_eq
      rw [List.flatten_cons, List.map_append, List.sum_append, induction rearranged.2, first,
        List.length_cons, Nat.succ_mul, Nat.add_comm]

/-- Every thread runs once in every ordering. -/
theorem sum_thread_runs (threads : List Thread) (limit : Option UInt64) (weight : Thread → Nat) :
    ((threadRuns threads limit).map fun run => weight run.thread).sum =
      (explore threads limit).explored * (threads.map weight).sum := by
  have rearranged : ∀ ordering ∈ orderingsWithin threads limit, ordering.Perm threads := by
    intro ordering member
    exact perm_of_mem_orderings_within member
  rw [(explore_spec threads limit).1, ← sum_flatten_of_perm rearranged weight, ←
    threads_runs_through _ (started threads limit), List.map_map]
  rfl

theorem deadlocks_le_finds (threads : List Thread) (limit : Option UInt64) :
    (explore threads limit).deadlocks.size ≤
      ((threadRuns threads limit).map ThreadRun.finds).sum := by
  rw [← Array.length_toList, deadlocks_explore, List.filterMap_eq_flatMap_toList,
    List.length_flatMap]
  apply List.sum_le_sum
  intro run _
  exact run.length_report_le

theorem finds_le_actions (threads : List Thread) (limit : Option UInt64) :
    ((threadRuns threads limit).map ThreadRun.finds).sum ≤
      (explore threads limit).explored *
        (threads.map fun thread => thread.actions.length).sum := by
  rw [← sum_thread_runs threads limit fun thread => thread.actions.length]
  apply List.sum_le_sum
  intro run _
  exact run.finds_le

theorem deadlock_free_iff (threads : List Thread) (limit : Option UInt64) :
    (explore threads limit).deadlockFree = true ↔
      ((threadRuns threads limit).map ThreadRun.finds).sum = 0 := by
  rw [deadlockFree, Array.isEmpty_iff, ← Array.toList_eq_nil_iff, deadlocks_explore,
    List.filterMap_eq_nil_iff, List.sum_eq_zero_iff, List.forall_mem_map]
  simp only [ThreadRun.finds_eq_zero_iff]

/-- The text of the log decides the verdict, as long as no thread is named like the beginning of a
find: with the lines that begin like a find counted, the length of the log is known, there are at
most as many reports and at most as many such lines as actions were replayed, and nothing was
reported exactly when there is no such line. -/
theorem log_decides_verdict (threads : List Thread) (limit : Option UInt64)
    (plain : ∀ thread ∈ threads, thread.id.name.startsWith "Deadlock detected" = false) :
    let result := explore threads limit
    let actions := (threads.map fun thread => thread.actions.length).sum
    let alarms := result.simulation.log.toList.countP fun line =>
      line.startsWith "Deadlock detected"
    result.simulation.log.size = result.explored * (1 + threads.length + actions) + alarms ∧
      result.deadlocks.size ≤ alarms ∧ alarms ≤ result.explored * actions ∧
      (result.deadlockFree = true ↔ alarms = 0) := by
  intro result actions alarms
  have counted : alarms = ((threadRuns threads limit).map ThreadRun.finds).sum :=
    countp_is_alarm_log plain limit
  have replayed : ((threadRuns threads limit).map fun run => 1 + run.thread.actions.length).sum =
      result.explored * (threads.length + actions) := by
    rw [sum_thread_runs threads limit fun thread => 1 + thread.actions.length, List.sum_map_add]
    simp [result, actions]
  refine ⟨?_, ?_, ?_, ?_⟩
  · rw [← Log.length_to_list, log_explore, length_flat_map_ordering_lines, flatten_ordering_runs,
      length_ordering_runs, replayed, counted]
    ring
  · rw [counted]
    exact deadlocks_le_finds threads limit
  · rw [counted]
    exact finds_le_actions threads limit
  · rw [counted]
    exact deadlock_free_iff threads limit

/-- The first thread is named by the first word of a find. -/
def halfNamed : List Thread :=
  [{ id := ⟨"Deadlock"⟩, actions := [.lock ⟨"B"⟩, .generic "detected"] },
    { id := ⟨"B"⟩, actions := [.lock ⟨"Deadlock"⟩, .lock ⟨"Deadlock"⟩] }]

theorem log_decides_verdict_halfNamed :
    (∀ thread ∈ halfNamed, thread.id.name.startsWith "Deadlock detected" = false) ∧
      (explore halfNamed (some 1)).simulation.log.size = 9 ∧
      (explore halfNamed (some 1)).deadlocks.size ≤ 2 ∧
      (explore halfNamed (some 1)).deadlockFree = false := by
  have plain : ∀ thread ∈ halfNamed,
      thread.id.name.startsWith "Deadlock detected" = false := by
    decide +kernel
  have found : ((explore halfNamed (some 1)).simulation.log.toList.countP fun line =>
      line.startsWith "Deadlock detected") = 2 := by
    decide +kernel
  have ran : (explore halfNamed (some 1)).explored = 1 := by decide +kernel
  rcases log_decides_verdict halfNamed (some 1) plain with ⟨size, reports, _, free⟩
  rw [found] at size reports free
  rw [ran] at size
  refine ⟨plain, size, reports, ?_⟩
  cases verdict : (explore halfNamed (some 1)).deadlockFree with
  | false => rfl
  | true => exact absurd (free.mp verdict) (by decide)

end Exploration

end LockExplorer

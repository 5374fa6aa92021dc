import LockExplorer.CommandLine
import LockExplorer.Proofs.Scenario.RoundTrip

/-!
# Printing a scenario and running it later

A command line that explores a scenario can be asked to print the scenario instead. Exploring what
was printed, without any limit on the new command line, gives the same answer as the original
command line: its limit is in the text. The text cannot hold every limit that a command line can
give, and then only printing fails. A scenario that cannot be loaded fails either way.
-/

namespace LockExplorer

namespace Scenario

theorem fault_with_limit (scenario : Scenario) (limit : Option UInt64) :
    (scenario.withLimit limit).fault? = scenario.fault? := rfl

theorem of_file_text (text : String) : ofFile (.ok text.toUTF8) = ofText text := by
  have decoded : String.fromUTF8? text.toUTF8 = some text := dif_pos text.isValidUTF8
  unfold ofFile
  dsimp only
  rw [decoded]

theorem fault_of_of_file {content : Except FileError ByteArray} {scenario : Scenario}
    (read : ofFile content = .ok scenario) : scenario.fault? = none := by
  unfold ofFile at read
  split at read
  · cases read
  · split at read
    · rcases of_text_eq_ok read with ⟨_, _, _, usable⟩
      exact usable
    · cases read

/-- A usable scenario whose limit a document can hold is read back from what is written for it. -/
theorem of_file_write {scenario : Scenario} (usable : scenario.fault? = none)
    (held : LimitHeld scenario.limit) :
    ofFile (.ok (String.ofList scenario.write).toUTF8) = .ok scenario := by
  rw [of_file_text, of_text_write held, checked, usable]

end Scenario

namespace CommandLine

/-! ## The flag that asks for printing -/

def Options.dumping (options : Options) : Options :=
  { options with dump := true }

theorem Options.dumping_with_path {options later : Options} {name : String}
    (named : options.withPath? name = some later) :
    options.dumping.withPath? name = some later.dumping ∧ later.dump = options.dump := by
  unfold withPath? at named ⊢
  split at named
  · cases named
  · next fresh =>
      cases named
      exact ⟨if_neg fresh, rfl⟩

theorem Options.dumping_with_limit {options later : Options} {value : String}
    (limited : options.withLimit? value = some later) :
    options.dumping.withLimit? value = some later.dumping ∧ later.dump = options.dump := by
  unfold withLimit? at limited ⊢
  split at limited
  · cases limited
  · next fresh =>
      rcases Option.map_eq_some_iff.mp limited with ⟨limit, number, rfl⟩
      rw [number]
      exact ⟨if_neg fresh, rfl⟩

theorem read_paths_dumping {options final : Options} {arguments : List String}
    (reads : readPaths options arguments = .explore final) :
    final.dump = options.dump ∧ readPaths options.dumping arguments = .explore final.dumping := by
  fun_induction readPaths options arguments with
  | case1 options =>
      cases reads
      exact ⟨rfl, rfl⟩
  | case2 options argument later named found induction =>
      rcases Options.dumping_with_path found with ⟨same, kept⟩
      rcases induction reads with ⟨ends, onward⟩
      rw [readPaths, same]
      exact ⟨ends.trans kept, onward⟩
  | case3 => cases reads

/-- Reading never takes the request to print back, and does not look at it before the flag turns up
again. So arguments without the flag are read the same way after it. -/
theorem read_dumping {options final : Options} {arguments : List String}
    (reads : read options arguments = .explore final) :
    (options.dump = true → final.dump = true) ∧
      (final.dump = false → read options.dumping arguments = .explore final.dumping) := by
  fun_induction read options arguments with
  | case1 options =>
      cases reads
      exact ⟨id, fun _ => rfl⟩
  | case2 options argument later meaning =>
      rcases read_paths_dumping reads with ⟨ends, onward⟩
      refine ⟨ends.trans, fun _ => ?_⟩
      unfold read
      simp only [meaning, onward]
  | case3 options argument later name meaning named found induction =>
      rcases Options.dumping_with_path found with ⟨same, kept⟩
      rcases induction reads with ⟨ends, onward⟩
      rw [kept] at ends
      refine ⟨ends, fun explores => ?_⟩
      unfold read
      simp only [meaning, same, onward explores]
  | case8 options argument later meaning once induction =>
      rcases induction reads with ⟨ends, onward⟩
      refine ⟨ends, fun explores => ?_⟩
      unfold read
      simp only [meaning]
      rw [if_neg]
      · exact onward explores
      · exact once
  | case10 options argument later meaning once induction =>
      -- Here the flag itself turns up, and then it is among the options in the end.
      have dumps : final.dump = true := (induction reads).1 rfl
      refine ⟨fun _ => dumps, fun explores => ?_⟩
      rw [dumps] at explores
      cases explores
  | case11 options argument later value meaning limited found induction =>
      rcases Options.dumping_with_limit found with ⟨same, kept⟩
      rcases induction reads with ⟨ends, onward⟩
      rw [kept] at ends
      refine ⟨ends, fun explores => ?_⟩
      unfold read
      simp only [meaning, same, onward explores]
  | case15 options argument meaning value later separate limited found induction =>
      rcases Options.dumping_with_limit found with ⟨same, kept⟩
      rcases induction reads with ⟨ends, onward⟩
      rw [kept] at ends
      refine ⟨ends, fun explores => ?_⟩
      simp only [read, meaning, same, onward explores, if_neg separate]
  -- In all other cases the arguments are misused or ask for a fixed text.
  | case4 | case5 | case6 | case7 | case9 | case12 | case13 | case14 | case16 | case17 =>
      cases reads

/-- The flag can be put in front of arguments that do without it. -/
theorem Request.of_dump {options : Options} {arguments : List String}
    (reads : Request.of arguments = .explore options) (explores : options.dump = false) :
    Request.of ("--dump-scenario" :: arguments) = .explore options.dumping := by
  have flag : Argument.of "--dump-scenario" = .dump := by decide
  have onward := (read_dumping reads).2 explores
  unfold Request.of read
  simp only [flag]
  exact onward

/-! ## What is loaded and what is answered -/

/-- The scenario that a command line names, as it stands there. -/
def named (content : String → Except FileError ByteArray) (options : Options) :
    Except Scenario.LoadError Scenario :=
  match options.path with
  | some name => Scenario.ofFile (content name)
  | none => .ok Scenario.canonical

def printed (scenario : Scenario) (summary : Bool) : String :=
  let exploration := LockExplorer.explore scenario.threads scenario.limit
  let log := exploration.simulation.log.text
  if summary then log ++ summaryText exploration else log

variable {content : String → Except FileError ByteArray} {options : Options} {scenario : Scenario}

theorem load_eq (content : String → Except FileError ByteArray) (options : Options) :
    load content options =
      (named content options).map fun scenario => scenario.withLimit options.limit := by
  unfold load named
  cases options.path <;> rfl

theorem fault_of_named (loaded : named content options = .ok scenario) :
    scenario.fault? = none := by
  unfold named at loaded
  split at loaded
  · exact Scenario.fault_of_of_file loaded
  · cases loaded
    decide

theorem respond_explore {arguments : List String}
    (accepted : Request.of arguments = .explore options) :
    respond content arguments = perform content options := by
  rw [respond, accepted, answer]

theorem perform_unloaded {reason : Scenario.LoadError}
    (failed : named content options = .error reason) :
    perform content options = .failure reason.message := by
  unfold perform
  rw [load_eq, failed]
  rfl

theorem perform_explore (loaded : named content options = .ok scenario)
    (explores : options.dump = false) :
    perform content options =
      .success (printed (scenario.withLimit options.limit) options.summary) := by
  unfold perform
  rw [load_eq, loaded, explores]
  rfl

theorem perform_dumping (loaded : named content options = .ok scenario) :
    perform content options.dumping =
      match (scenario.withLimit options.limit).toText with
      | .ok text => .success text
      | .error reason => .failure reason.message := by
  -- Printing or not, the command line names the same scenario under the same limit.
  have same : load content options.dumping = load content options := rfl
  unfold perform
  rw [same, load_eq, loaded]
  rfl

/-- The answer to a command line that names a file with what was written for a scenario. -/
theorem perform_written {stored : String → Except FileError ByteArray} {name : String}
    (summary : Bool) (usable : scenario.fault? = none) (held : Scenario.LimitHeld scenario.limit)
    (kept : stored name = .ok (String.ofList scenario.write).toUTF8) :
    perform stored { path := some name, summary } = .success (printed scenario summary) := by
  have loaded : named stored { path := some name, summary } = .ok scenario := by
    unfold named
    dsimp only
    rw [kept, Scenario.of_file_write usable held]
  exact perform_explore loaded rfl

/-- Printing a scenario and exploring what was printed, for any files and any accepted command line.
The flag that asks for printing can be added to it. When the scenario loads and the limit of the
command line, or else that of the scenario, fits a document, printing succeeds, and any command line
that names a file with the printed text, gives no limit and asks for a summary as before is answered
like the original one. When the scenario does not load, both fail and print nothing. When the limit
does not fit, only printing fails. -/
theorem rerun_of_dump (content : String → Except FileError ByteArray) (arguments : List String)
    (options : Options) (accepted : Request.of arguments = .explore options)
    (explores : options.dump = false) :
    Request.of ("--dump-scenario" :: arguments) = .explore { options with dump := true } ∧
    ∀ dumping, Request.of dumping = .explore { options with dump := true } →
      let plain := respond content arguments
      let dumped := respond content dumping
      (∀ scenario, named content options = .ok scenario →
        (∀ bound, options.limit.or scenario.limit = some bound →
          bound.toNat ≤ Nat.pow 2 63 - 1) →
        dumped.code = 0 ∧ plain.code = 0 ∧
          ∀ stored name again, stored name = .ok dumped.output.toUTF8 →
            Request.of again = .explore { path := some name, summary := options.summary } →
            (respond stored again).output = plain.output ∧ (respond stored again).code = 0) ∧
      (∀ reason, named content options = .error reason →
        (plain.code = 1 ∧ plain.output = "") ∧ dumped.code = 1 ∧ dumped.output = "") ∧
      (∀ scenario bound, named content options = .ok scenario →
        options.limit.or scenario.limit = some bound → Nat.pow 2 63 - 1 < bound.toNat →
        plain.code = 0 ∧ dumped.code = 1 ∧ dumped.output = "") := by
  refine ⟨Request.of_dump accepted explores, ?_⟩
  intro dumping (asked : Request.of dumping = .explore options.dumping)
  dsimp only
  rw [respond_explore accepted, respond_explore asked]
  refine ⟨?_, ?_, ?_⟩
  · intro scenario loaded fits
    have held : Scenario.LimitHeld (scenario.withLimit options.limit).limit := by
      rw [Scenario.held_iff]
      rintro ⟨bound, same, above⟩
      exact Nat.not_lt.mpr (fits bound same) above
    have usable : (scenario.withLimit options.limit).fault? = none := by
      rw [Scenario.fault_with_limit]
      exact fault_of_named loaded
    rw [perform_explore loaded explores, perform_dumping loaded, Scenario.to_text_of_held held]
    refine ⟨rfl, rfl, ?_⟩
    intro stored name again kept rerun
    rw [respond_explore rerun, perform_written options.summary usable held kept]
    exact ⟨rfl, rfl⟩
  · intro reason failed
    have same : named content options.dumping = .error reason := failed
    rw [perform_unloaded failed, perform_unloaded same]
    exact ⟨⟨rfl, rfl⟩, rfl, rfl⟩
  · intro scenario bound loaded effective above
    have exceeded : ¬ Scenario.LimitHeld (scenario.withLimit options.limit).limit := by
      rw [Scenario.held_iff, not_not]
      exact ⟨bound, effective, above⟩
    rw [perform_explore loaded explores, perform_dumping loaded,
      Scenario.to_text_of_not_held exceeded]
    exact ⟨rfl, rfl, rfl⟩

def crossed : Scenario where
  limit := some 2
  plans := [⟨"A", ["LOCK B"]⟩, ⟨"B", ["LOCK A"]⟩]

/-- The scenario in a layout that is not the printed one. -/
def crossedText : String :=
  "explore = [2]\nthreads = [[\"A\", [\"LOCK B\"]], [\"B\", [\"LOCK A\"]]]"

def crossedFile (name : String) : Except FileError ByteArray :=
  if name = "crossed.toml" then .ok crossedText.toUTF8 else .error .notFound

def crossedOptions : Options where
  path := some "crossed.toml"
  limit := some 1
  summary := true

def crossedArguments : List String :=
  ["crossed.toml", "--max-permutations", "1", "--summary"]

theorem rerun_of_dump_crossed :
    let plain := respond crossedFile crossedArguments
    let dumped := respond crossedFile ("--dump-scenario" :: crossedArguments)
    let again := respond (fun _ => .ok dumped.output.toUTF8) ["--summary", "saved.toml"]
    Request.of crossedArguments = .explore crossedOptions ∧
      named crossedFile crossedOptions = .ok crossed ∧ dumped.code = 0 ∧ plain.code = 0 ∧
      again.output = plain.output ∧ again.code = 0 := by
  have accepted : Request.of crossedArguments = .explore crossedOptions := by decide
  have rerun : Request.of ["--summary", "saved.toml"] =
      .explore { path := some "saved.toml", summary := crossedOptions.summary } := by decide
  have read : Scenario.ofText crossedText = .ok crossed := by decide +kernel
  have loaded : named crossedFile crossedOptions = .ok crossed := by
    change Scenario.ofFile (crossedFile "crossed.toml") = _
    rw [crossedFile, if_pos rfl, Scenario.of_file_text, read]
  have fits : ∀ bound, crossedOptions.limit.or crossed.limit = some bound →
      bound.toNat ≤ Nat.pow 2 63 - 1 := by
    intro bound same
    cases same
    decide
  rcases rerun_of_dump crossedFile crossedArguments crossedOptions accepted rfl with
    ⟨asked, answers⟩
  rcases (answers _ asked).1 crossed loaded fits with ⟨printing, exploring, same⟩
  exact ⟨accepted, loaded, printing, exploring,
    same (fun _ => .ok _) "saved.toml" _ rfl rerun⟩

example : (respond crossedFile ["--dump-scenario", "--max-permutations=9223372036854775808"]).code =
    1 := by decide +kernel

end CommandLine

end LockExplorer

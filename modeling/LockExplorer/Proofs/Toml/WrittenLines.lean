import LockExplorer.Proofs.Toml.WrittenNumber
import LockExplorer.Proofs.Toml.WrittenText
import LockExplorer.Toml.Document

/-!
# Lines read back as they were written

Written lines have one form each: a bare key, an equals sign and a value, or a bare key between
single or double brackets. Each is read as its statement and leaves what follows, so a text of such
lines is read line by line, and its statements fall into sections as they were written.
-/

namespace LockExplorer.Toml

/-! ## Strings and arrays of strings as values -/

theorem value_within_write_text (nesting : Nat) (content : String) {rest : List Char}
    (double : rest.head? ≠ some '"') (single : rest.head? ≠ some '\x27') :
    valueWithin nesting (writeText content ++ rest) = some (.string content, rest) := by
  have read := text_write_text content double single
  rcases write_text_cases content with ⟨body, quoted | quoted⟩
  · rw [quoted] at read ⊢
    unfold valueWithin
    change (text _).map _ = _
    rw [read]
    rfl
  · rw [quoted] at read ⊢
    unfold valueWithin
    change (text _).map _ = _
    rw [read]
    rfl

theorem write_text_front (content : String) :
    ∃ first body, writeText content = first :: body ∧ isSolid first = true ∧ first ≠ ']' := by
  rcases write_text_cases content with ⟨body, quoted | quoted⟩
  · exact ⟨_, body, quoted, rfl, by decide⟩
  · exact ⟨_, body, quoted, rfl, by decide⟩

theorem skip_lines_write_text (content : String) (rest : List Char) :
    skipLines false (writeText content ++ rest) = writeText content ++ rest := by
  rcases write_text_front content with ⟨first, body, shape, solid, _⟩
  rw [shape]
  exact skip_lines_of_is_solid solid _

theorem outside_is_space_write_text (content : String) (rest : List Char) :
    Outside isSpace (writeText content ++ rest) := by
  rcases write_text_front content with ⟨first, body, shape, solid, _⟩
  rw [shape]
  exact Outside.cons (is_space_of_is_solid solid) _

theorem write_text_ne_bracket (content : String) (rest after : List Char) :
    writeText content ++ rest ≠ ']' :: after := by
  intro same
  rcases write_text_front content with ⟨first, body, shape, _, different⟩
  rw [shape] at same
  exact different (List.cons.inj same).1

theorem elements_closed (value : Reader Value) (more : Nat) (rest : List Char) :
    elements value (more + 1) (']' :: rest) = some ([], rest) := by
  rw [elements, skip_lines_of_is_solid rfl]
  rfl

theorem elements_last (nesting more : Nat) {content : String} {input rest : List Char}
    (skipped : skipLines false input = writeText content ++ ']' :: rest) :
    elements (valueWithin nesting) (more + 1) input = some ([.string content], rest) := by
  rw [elements, skipped]
  split
  · next same => exact absurd same (write_text_ne_bracket content _ _)
  · rw [value_within_write_text nesting content (by simp) (by simp)]
    dsimp only
    rw [skip_lines_of_is_solid rfl]
    rfl

theorem elements_more (nesting more : Nat) {content : String} {input rest after : List Char}
    {others : List Value} (skipped : skipLines false input = writeText content ++ ',' :: rest)
    (read : elements (valueWithin nesting) more rest = some (others, after)) :
    elements (valueWithin nesting) (more + 1) input =
      some (.string content :: others, after) := by
  rw [elements, skipped]
  split
  · next same => exact absurd same (write_text_ne_bracket content _ _)
  · rw [value_within_write_text nesting content (by simp) (by simp)]
    dsimp only
    rw [skip_lines_of_is_solid rfl]
    split
    · next same => cases same
    · next same =>
        cases same
        rw [read]
    · next other => exact absurd rfl (other rest)

def elementLine (content : String) : List Char :=
  [' ', ' ', ' ', ' '] ++ writeText content ++ [',', '\n']

theorem elements_lines (nesting : Nat) (contents : List String) (rest : List Char) {more : Nat}
    (enough : contents.length < more) :
    elements (valueWithin nesting) more
        ('\n' :: (contents.flatMap elementLine ++ ']' :: rest)) =
      some (contents.map .string, rest) := by
  induction contents generalizing more with
  | nil =>
      cases more with
      | zero => cases enough
      | succ more =>
          have skipped : skipLines false ('\n' :: ']' :: rest) = ']' :: rest :=
            skip_lines_of_is_solid rfl rest
          change elements _ _ ('\n' :: ']' :: rest) = _
          rw [elements, skipped]
          rfl
  | cons content contents induction =>
      cases more with
      | zero => cases enough
      | succ more =>
          have onward := induction (Nat.lt_of_succ_lt_succ enough)
          apply elements_more nesting more _ onward
          rw [List.flatMap_cons, elementLine]
          simp only [List.cons_append, List.nil_append, List.append_assoc]
          exact skip_lines_write_text content _

theorem length_le_flat_map_element_line (contents : List String) :
    contents.length ≤ (contents.flatMap elementLine).length := by
  induction contents with
  | nil => exact Nat.le_refl _
  | cons content contents induction =>
      rw [List.flatMap_cons, List.length_append, List.length_cons, elementLine]
      simp only [List.length_append, List.length_cons]
      omega

theorem value_array {input rest : List Char} {values : List Value}
    (read : elements (valueWithin 78) (input.length + 1) input = some (values, rest)) :
    value ('[' :: input) = some (.array values, rest) := by
  unfold value nestingBound valueWithin
  split
  · next same =>
      cases same
      dsimp only
      rw [read]
  · next same => cases same
  · next same => cases same
  · next same => cases same
  · next bracket _ _ _ => exact absurd rfl (bracket input)

theorem value_write_texts (contents : List String) (rest : List Char) :
    value (writeTexts contents ++ rest) = some (.array (contents.map .string), rest) := by
  unfold writeTexts
  split
  · exact value_array (elements_closed _ _ rest)
  · next content =>
      rw [List.cons_append, List.cons_append, List.append_assoc]
      apply value_array
      apply elements_last
      exact skip_lines_write_text content _
  · rw [List.append_assoc, List.append_assoc]
    apply value_array
    apply elements_lines
    have lines := length_le_flat_map_element_line contents
    change contents.length < ('\n' :: (contents.flatMap elementLine ++ ']' :: rest)).length + 1
    rw [List.length_cons, List.length_append]
    omega

theorem outside_is_space_write_texts (contents : List String) (rest : List Char) :
    Outside isSpace (writeTexts contents ++ rest) := by
  unfold writeTexts
  split
  · exact Outside.cons rfl _
  · exact Outside.cons rfl _
  · exact Outside.cons rfl _

/-! ## Keys -/

structure Bare (key : List Char) : Prop where
  nonempty : key ≠ []
  inside : ∀ character ∈ key, isBare character = true

theorem bare_iff (key : List Char) :
    (!key.isEmpty && key.all isBare) = true ↔ Bare key := by
  rw [Bool.and_eq_true, Bool.not_eq_true', List.isEmpty_eq_false_iff, List.all_eq_true]
  constructor
  · intro parts
    exact ⟨parts.1, parts.2⟩
  · intro bare
    exact ⟨bare.nonempty, bare.inside⟩

instance (key : List Char) : Decidable (Bare key) :=
  decidable_of_iff _ (bare_iff key)

theorem Bare.name {key rest : List Char} (bare : Bare key) (outside : Outside isBare rest) :
    name (key ++ rest) = some (String.ofList key, rest) := by
  unfold Toml.name
  rw [take_while_token bare.inside outside, drop_while_token bare.inside outside]
  split
  · exact absurd rfl bare.nonempty
  · rfl

theorem is_solid_of_is_bare {character : Char} (bare : isBare character = true) :
    isSolid character = true := by
  have different {other : Char} (stop : isBare other = false) : character ≠ other := by
    intro same
    rw [same, stop] at bare
    cases bare
  simp only [isSolid, isSpace, Bool.and_eq_true, Bool.not_eq_true', Bool.or_eq_false_iff,
    beq_eq_false_iff_ne, bne_iff_ne]
  exact ⟨⟨⟨⟨different (by decide), different (by decide)⟩, different (by decide)⟩,
    different (by decide)⟩, different (by decide)⟩

theorem Bare.is_solid_head {first : Char} {key : List Char} (bare : Bare (first :: key)) :
    isSolid first = true :=
  is_solid_of_is_bare (bare.inside first List.mem_cons_self)

theorem Bare.append_ne_bracket {key : List Char} (bare : Bare key) (rest after : List Char) :
    key ++ rest ≠ '[' :: after := by
  intro same
  cases key with
  | nil => exact bare.nonempty rfl
  | cons first key =>
      have inside := bare.inside first List.mem_cons_self
      rw [(List.cons.inj same).1] at inside
      cases inside

theorem Bare.path {key rest after : List Char} {stop : Char} (bare : Bare key)
    (outside : Outside isBare rest) (spaced : skipSpace rest = stop :: after)
    (whole : stop ≠ '.') :
    path (key ++ rest) = some ([String.ofList key], stop :: after) := by
  have front : skipSpace (key ++ rest) = key ++ rest := by
    cases key with
    | nil => exact absurd rfl bare.nonempty
    | cons first key => exact skip_space_of_is_solid bare.is_solid_head _
  unfold Toml.path pathBound
  rw [pathWithin, front, bare.name outside]
  dsimp only
  rw [spaced]
  split
  · next found => exact absurd (List.cons.inj found).1 whole
  · rfl

/-! ## Statements -/

theorem Bare.assignment {key body rest : List Char} {read : Value} (bare : Bare key)
    (found : value body = some (read, rest)) (solid : Outside isSpace body) :
    assignment value (key ++ ' ' :: '=' :: ' ' :: body) =
      some (([String.ofList key], read), rest) := by
  have keyed : Toml.path (key ++ ' ' :: '=' :: ' ' :: body) =
      some ([String.ofList key], '=' :: ' ' :: body) :=
    bare.path (Outside.cons rfl _) rfl (by decide)
  have spaced : skipSpace (' ' :: body) = body := solid.drop_while
  rw [Toml.assignment, keyed]
  split
  · next same =>
      cases same
      rw [spaced, found]
  · next other => exact absurd rfl (other _ _)

theorem Bare.statement_assignment {key body rest : List Char} {read : Value} (bare : Bare key)
    (found : value body = some (read, rest)) (solid : Outside isSpace body) :
    statement (key ++ ' ' :: '=' :: ' ' :: body) =
      some (.assignment [String.ofList key] read, rest) := by
  rw [statement.eq_def]
  split
  · next shape => exact absurd shape (bare.append_ne_bracket _ _)
  · next shape => exact absurd shape (bare.append_ne_bracket _ _)
  · rw [bare.assignment found solid]
    rfl

theorem Bare.statement_table {key : List Char} (bare : Bare key) (rest : List Char) :
    statement ('[' :: (key ++ ']' :: rest)) = some (.header false [String.ofList key], rest) := by
  have keyed : Toml.path (key ++ ']' :: rest) = some ([String.ofList key], ']' :: rest) :=
    bare.path (Outside.cons rfl _) rfl (by decide)
  rw [statement.eq_def]
  split
  · next shape => exact absurd (List.cons.inj shape).2 (bare.append_ne_bracket _ _)
  · next shape =>
      cases shape
      rw [keyed]
      rfl
  · next single => exact absurd rfl (single _)

theorem Bare.statement_tables {key : List Char} (bare : Bare key) (rest : List Char) :
    statement ('[' :: '[' :: (key ++ ']' :: ']' :: rest)) =
      some (.header true [String.ofList key], rest) := by
  have keyed : Toml.path (key ++ ']' :: ']' :: rest) =
      some ([String.ofList key], ']' :: ']' :: rest) :=
    bare.path (Outside.cons rfl _) rfl (by decide)
  rw [statement, keyed]
  rfl

/-! ## Texts of lines -/

/-- A text is read as these statements, whatever bound on its lines exceeds its length. -/
def Reads (input : List Char) (read : List Statement) : Prop :=
  ∀ lines, input.length < lines → statements lines input = some read

theorem Reads.nil : Reads [] [] := by
  intro lines enough
  cases lines with
  | zero => cases enough
  | succ lines => rfl

theorem Reads.blank {rest : List Char} {read : List Statement} (later : Reads rest read) :
    Reads ('\n' :: rest) read := by
  intro lines enough
  cases lines with
  | zero => cases enough
  | succ lines => exact later lines (Nat.lt_of_succ_lt_succ enough)

theorem Reads.line {first : Char} {line rest : List Char} {head : Statement}
    {read : List Statement} (solid : isSolid first = true)
    (found : statement (first :: line ++ '\n' :: rest) = some (head, '\n' :: rest))
    (later : Reads rest read) : Reads (first :: line ++ '\n' :: rest) (head :: read) := by
  intro lines enough
  cases lines with
  | zero => cases enough
  | succ lines =>
      rw [List.cons_append] at found enough ⊢
      have shorter : rest.length < lines := by
        simp only [List.length_cons, List.length_append] at enough
        omega
      rw [statements, skip_space_of_is_solid solid]
      dsimp only
      rw [line_end_of_is_solid solid, found]
      change (statements lines rest).map (head :: ·) = _
      rw [later lines shorter]
      rfl

theorem Bare.reads_assignment {key body rest : List Char} {value : Value}
    {read : List Statement} (bare : Bare key)
    (found : Toml.value (body ++ '\n' :: rest) = some (value, '\n' :: rest))
    (solid : Outside isSpace (body ++ '\n' :: rest)) (later : Reads rest read) :
    Reads (key ++ ' ' :: '=' :: ' ' :: (body ++ '\n' :: rest))
      (.assignment [String.ofList key] value :: read) := by
  have stated := bare.statement_assignment found solid
  cases key with
  | nil => exact absurd rfl bare.nonempty
  | cons first key =>
      have shape : first :: key ++ ' ' :: '=' :: ' ' :: (body ++ '\n' :: rest) =
          first :: (key ++ ' ' :: '=' :: ' ' :: body) ++ '\n' :: rest := by simp
      rw [shape] at stated ⊢
      exact Reads.line bare.is_solid_head stated later

theorem Bare.reads_table {key rest : List Char} {read : List Statement} (bare : Bare key)
    (later : Reads rest read) :
    Reads ('[' :: (key ++ ']' :: '\n' :: rest)) (.header false [String.ofList key] :: read) := by
  have stated := bare.statement_table ('\n' :: rest)
  have shape : '[' :: (key ++ ']' :: '\n' :: rest) = '[' :: (key ++ [']']) ++ '\n' :: rest := by
    simp
  rw [shape] at stated ⊢
  exact Reads.line rfl stated later

theorem Bare.reads_tables {key rest : List Char} {read : List Statement} (bare : Bare key)
    (later : Reads rest read) :
    Reads ('[' :: '[' :: (key ++ ']' :: ']' :: '\n' :: rest))
      (.header true [String.ofList key] :: read) := by
  have stated := bare.statement_tables ('\n' :: rest)
  have shape : '[' :: '[' :: (key ++ ']' :: ']' :: '\n' :: rest) =
      '[' :: ('[' :: key ++ [']', ']']) ++ '\n' :: rest := by simp
  rw [shape] at stated ⊢
  exact Reads.line rfl stated later

theorem Entries.of_text_of_reads {input : List Char} {read : List Statement}
    (noMark : input.head? ≠ some '\ufeff') (reads : Reads input read) :
    Entries.ofText? input = Entries.ofStatements read := by
  have unmarked : dropMark input = input := by
    unfold dropMark
    split
    · exact absurd rfl noMark
    · rfl
  unfold Entries.ofText?
  dsimp only
  rw [unmarked, reads _ (Nat.lt_succ_self _)]
  rfl

/-! ## Sections -/

def assignmentStatements (assignments : List (List String × Value)) : List Statement :=
  assignments.map fun assignment => .assignment assignment.1 assignment.2

def Section.statements (written : Section) : List Statement :=
  .header written.repeated written.path :: assignmentStatements written.assignments

theorem group_assignments (leading : List (List String × Value)) {later : List Statement}
    {sections : List Section} (grouped : group later = ([], sections)) :
    group (assignmentStatements leading ++ later) = (leading, sections) := by
  induction leading with
  | nil => exact grouped
  | cons assignment leading induction =>
      change group (.assignment assignment.1 assignment.2 ::
        (assignmentStatements leading ++ later)) = _
      rw [group, induction]

theorem group_sections (sections : List Section) :
    group (sections.flatMap Section.statements) = ([], sections) := by
  induction sections with
  | nil => rfl
  | cons written sections induction =>
      rw [List.flatMap_cons]
      change group (.header written.repeated written.path ::
        (assignmentStatements written.assignments ++ sections.flatMap Section.statements)) = _
      rw [group, group_assignments written.assignments induction]

/-- Statements that were written section by section are attached section by section. -/
theorem Entries.of_statements_sections (leading : List (List String × Value))
    (sections : List Section) :
    Entries.ofStatements (assignmentStatements leading ++ sections.flatMap Section.statements) =
      (Entries.assignAll [] leading).bind fun entries =>
        sections.foldlM Entries.attach entries := by
  unfold Entries.ofStatements
  rw [group_assignments leading (group_sections sections)]
  dsimp only
  cases Entries.assignAll [] leading with
  | none => rfl
  | some entries => rfl

end LockExplorer.Toml

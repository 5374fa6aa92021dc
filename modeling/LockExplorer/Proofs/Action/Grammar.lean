import LockExplorer.Thread
import LockExplorer.Proofs.Text.Trim
import Mathlib.Data.List.Basic

/-!
# The grammar of tokens

A token asks for a lock when it is the keyword followed by white space, the name of a resource, and
perhaps more white space; the name itself may hold white space, but not at its ends. Releases are
spelled alike with their own keyword. The reader accepts exactly these tokens, each in the only way
in which it can be taken apart, and takes every other token as it stands for a generic step.
-/

namespace LockExplorer

/-- What follows the keyword in a token. -/
@[ext] structure Phrase where
  separator : String
  argument : String
  trailing : String
  separated : separator ≠ ""
  named : argument ≠ ""
  whiteSeparator : Text.AllWhite separator.toList
  whiteTrailing : Text.AllWhite trailing.toList
  trimmed : Text.Trimmed argument.toList

namespace Phrase

def token (keyword : String) (phrase : Phrase) : String :=
  keyword ++ phrase.separator ++ phrase.argument ++ phrase.trailing

def rest (phrase : Phrase) : List Char :=
  phrase.separator.toList ++ phrase.argument.toList ++ phrase.trailing.toList

theorem to_list_token (keyword : String) (phrase : Phrase) :
    (phrase.token keyword).toList = keyword.toList ++ phrase.rest := by
  simp only [token, rest, String.toList_append, List.append_assoc]

theorem to_list_argument_ne_nil (phrase : Phrase) : phrase.argument.toList ≠ [] := by
  rw [ne_eq, String.toList_eq_nil_iff]
  exact phrase.named

theorem trim_rest (phrase : Phrase) : Text.trim phrase.rest = phrase.argument.toList :=
  Text.trim_around phrase.whiteSeparator phrase.trimmed phrase.to_list_argument_ne_nil
    phrase.whiteTrailing

theorem take_while_rest (phrase : Phrase) :
    phrase.rest.takeWhile Text.isBlank = phrase.separator.toList :=
  Text.take_while_around phrase.whiteSeparator phrase.trimmed phrase.to_list_argument_ne_nil

theorem rest_injective : Function.Injective rest := by
  intro left right same
  have arguments : left.argument.toList = right.argument.toList := by
    rw [← trim_rest, ← trim_rest, same]
  have separators : left.separator.toList = right.separator.toList := by
    rw [← take_while_rest, ← take_while_rest, same]
  have trailings : left.trailing.toList = right.trailing.toList := by
    unfold rest at same
    rw [separators, arguments] at same
    exact List.append_cancel_left same
  exact Phrase.ext (String.toList_inj.mp separators) (String.toList_inj.mp arguments)
    (String.toList_inj.mp trailings)

/-- A token can be taken apart in one way only. -/
theorem token_injective (keyword : String) : Function.Injective (token keyword) := by
  intro left right same
  apply rest_injective
  have lists := congrArg String.toList same
  rw [to_list_token, to_list_token] at lists
  exact List.append_cancel_left lists

/-- White space that is followed by something else begins a phrase. -/
theorem exists_of_rest {character : Char} {later : List Char}
    (white : Text.IsWhiteSpace character) (visible : Text.trim (character :: later) ≠ []) :
    ∃ phrase : Phrase, phrase.rest = character :: later ∧
      phrase.argument = String.ofList (Text.trim (character :: later)) := by
  rcases Text.trim_parts (character :: later) with ⟨before, after, whiteBefore, whiteAfter, parts⟩
  have trimmed := Text.trimmed_trim (character :: later)
  generalize Text.trim (character :: later) = argument at visible parts trimmed ⊢
  have separated : before ≠ [] := by
    -- Otherwise the argument would begin with the white space.
    intro empty
    subst before
    rcases List.exists_cons_of_ne_nil visible with ⟨first, behind, rfl⟩
    have same : character = first := (List.cons.inj parts).1
    exact trimmed.first first rfl (same ▸ white)
  refine ⟨⟨String.ofList before, String.ofList argument, String.ofList after, ?_, ?_, ?_, ?_, ?_⟩,
    ?_, rfl⟩
  · rw [ne_eq, ← String.toList_eq_nil_iff, String.toList_ofList]
    exact separated
  · rw [ne_eq, ← String.toList_eq_nil_iff, String.toList_ofList]
    exact visible
  · rw [String.toList_ofList]
    exact whiteBefore
  · rw [String.toList_ofList]
    exact whiteAfter
  · rw [String.toList_ofList]
    exact trimmed
  · simp only [rest, String.toList_ofList]
    exact parts.symm

end Phrase

/-! ## The reader -/

namespace Action

theorem argument_token (keyword : String) (phrase : Phrase) :
    argument? keyword (phrase.token keyword).toList = some phrase.argument := by
  have trimmed := phrase.trim_rest
  have begins : keyword.toList.isPrefixOf? (phrase.token keyword).toList = some phrase.rest := by
    rw [List.isPrefixOf?_eq_some_iff_append_eq, phrase.to_list_token]
  have separated : phrase.separator.toList ≠ [] := by
    rw [ne_eq, String.toList_eq_nil_iff]
    exact phrase.separated
  rcases List.exists_cons_of_ne_nil separated with ⟨first, others, separator⟩
  have opened : phrase.rest = first :: (others ++ phrase.argument.toList ++
      phrase.trailing.toList) := by
    rw [Phrase.rest, separator]
    rfl
  have blank : Text.isBlank first = true := by
    apply phrase.whiteSeparator.is_blank
    rw [separator]
    exact List.mem_cons_self
  rw [opened] at begins trimmed
  have visible := phrase.to_list_argument_ne_nil
  simp only [argument?, begins, trimmed, blank, List.isEmpty_eq_false_iff.mpr visible,
    Bool.not_false, Bool.and_self, if_true, String.ofList_toList]

/-- An argument is read from the tokens that the keyword and a phrase make up, and from no other. -/
theorem argument_eq_some_iff {keyword token name : String} :
    argument? keyword token.toList = some name ↔
      ∃ phrase : Phrase, phrase.token keyword = token ∧ phrase.argument = name := by
  constructor
  · intro read
    unfold argument? at read
    split at read
    · next separator later found =>
        dsimp only at read
        split at read
        · next accepted =>
            rw [Bool.and_eq_true, Bool.not_eq_true', List.isEmpty_eq_false_iff] at accepted
            have white := Text.is_blank_iff.mp accepted.1
            rcases Phrase.exists_of_rest white accepted.2 with ⟨phrase, rest, argument⟩
            refine ⟨phrase, ?_, argument.trans (Option.some.inj read)⟩
            rw [← String.toList_inj, phrase.to_list_token, rest]
            exact List.isPrefixOf?_eq_some_iff_append_eq.mp found
        · cases read
    · cases read
  · intro spelled
    rcases spelled with ⟨phrase, rfl, rfl⟩
    exact argument_token keyword phrase

theorem argument_eq_none_iff {keyword token : String} :
    argument? keyword token.toList = none ↔
      ∀ phrase : Phrase, phrase.token keyword ≠ token := by
  rw [Option.eq_none_iff_forall_ne_some]
  constructor
  · intro unread phrase same
    exact unread phrase.argument (argument_eq_some_iff.mpr ⟨phrase, same, rfl⟩)
  · intro other name read
    rcases argument_eq_some_iff.mp read with ⟨phrase, same, _⟩
    exact other phrase same

/-- The keywords begin with different characters, so no token is spelled with both. -/
theorem lock_token_ne_unlock_token (left right : Phrase) :
    left.token lockKeyword ≠ right.token unlockKeyword := by
  intro same
  have lists := congrArg String.toList same
  rw [Phrase.to_list_token, Phrase.to_list_token] at lists
  have first : 'L' = 'U' := (List.cons.inj lists).1
  exact absurd first (by decide)

/-- No keyword makes up the token together with a phrase. -/
def Plain (token : String) : Prop :=
  ∀ phrase : Phrase, phrase.token lockKeyword ≠ token ∧ phrase.token unlockKeyword ≠ token

theorem of_token_lock (phrase : Phrase) :
    ofToken (phrase.token lockKeyword) = .lock ⟨phrase.argument⟩ := by
  rw [ofToken, argument_token]

theorem of_token_unlock (phrase : Phrase) :
    ofToken (phrase.token unlockKeyword) = .unlock ⟨phrase.argument⟩ := by
  have noLock : argument? lockKeyword (phrase.token unlockKeyword).toList = none :=
    argument_eq_none_iff.mpr fun other => lock_token_ne_unlock_token other phrase
  rw [ofToken, noLock, argument_token]

theorem of_token_plain {token : String} (plain : Plain token) :
    ofToken token = .generic token := by
  have noLock : argument? lockKeyword token.toList = none :=
    argument_eq_none_iff.mpr fun phrase => (plain phrase).1
  have noUnlock : argument? unlockKeyword token.toList = none :=
    argument_eq_none_iff.mpr fun phrase => (plain phrase).2
  rw [ofToken, noLock, noUnlock]

/-- The token is of the form that stands for the action. -/
inductive Spells : String → Action → Prop where
  | lock (phrase : Phrase) : Spells (phrase.token lockKeyword) (.lock ⟨phrase.argument⟩)
  | unlock (phrase : Phrase) : Spells (phrase.token unlockKeyword) (.unlock ⟨phrase.argument⟩)
  | generic {token : String} (plain : Plain token) : Spells token (.generic token)

theorem Spells.of_token_eq {token : String} {action : Action} (spells : Spells token action) :
    ofToken token = action := by
  cases spells with
  | lock phrase => exact of_token_lock phrase
  | unlock phrase => exact of_token_unlock phrase
  | generic plain => exact of_token_plain plain

theorem exists_spells (token : String) : ∃ action, Spells token action := by
  by_cases locks : ∃ phrase : Phrase, phrase.token lockKeyword = token
  · rcases locks with ⟨phrase, rfl⟩
    exact ⟨_, Spells.lock phrase⟩
  · by_cases unlocks : ∃ phrase : Phrase, phrase.token unlockKeyword = token
    · rcases unlocks with ⟨phrase, rfl⟩
      exact ⟨_, Spells.unlock phrase⟩
    · refine ⟨_, Spells.generic ?_⟩
      intro phrase
      exact ⟨fun same => locks ⟨phrase, same⟩, fun same => unlocks ⟨phrase, same⟩⟩

theorem of_token_eq_iff {token : String} {action : Action} :
    ofToken token = action ↔ Spells token action := by
  constructor
  · intro read
    rcases exists_spells token with ⟨other, spells⟩
    have same : other = action := spells.of_token_eq.symm.trans read
    rwa [same] at spells
  · exact Spells.of_token_eq

inductive Makes : String → (Resource → Action) → Prop where
  | lock : Makes lockKeyword .lock
  | unlock : Makes unlockKeyword .unlock

theorem of_token_eq_iff_of_makes {keyword token : String} {make : Resource → Action}
    {resource : Resource} (makes : Makes keyword make) :
    ofToken token = make resource ↔
      ∃ phrase : Phrase, phrase.token keyword = token ∧ phrase.argument = resource.name := by
  have spells (phrase : Phrase) : Spells (phrase.token keyword) (make ⟨phrase.argument⟩) := by
    cases makes with
    | lock => exact Spells.lock phrase
    | unlock => exact Spells.unlock phrase
  rw [of_token_eq_iff]
  constructor
  · intro spelled
    cases makes with
    | lock => cases spelled with | lock phrase => exact ⟨phrase, rfl, rfl⟩
    | unlock => cases spelled with | unlock phrase => exact ⟨phrase, rfl, rfl⟩
  · intro spelled
    rcases spelled with ⟨phrase, rfl, same⟩
    have spelled := spells phrase
    rwa [same] at spelled

theorem of_token_eq_generic_iff {token label : String} :
    ofToken token = .generic label ↔ label = token ∧ Plain token := by
  rw [of_token_eq_iff]
  constructor
  · intro spells
    cases spells with
    | generic plain => exact ⟨rfl, plain⟩
  · intro whole
    rcases whole with ⟨rfl, plain⟩
    exact Spells.generic plain

/-- The reader accepts exactly the grammar. A token is read as a lock of a resource if it is `LOCK`,
white space, the resource's name and perhaps more white space, and is read as a release if the same
holds with `UNLOCK`. It can be taken apart in one way only and is never of both kinds; and all other
tokens, and no more, are generic steps labelled with the whole token. -/
theorem ofToken_exact :
    (∀ token resource, ofToken token = .lock resource ↔
        ∃ phrase : Phrase, phrase.token "LOCK" = token ∧ phrase.argument = resource.name) ∧
      (∀ token resource, ofToken token = .unlock resource ↔
        ∃ phrase : Phrase, phrase.token "UNLOCK" = token ∧ phrase.argument = resource.name) ∧
      (∀ keyword, Function.Injective (Phrase.token keyword)) ∧
      (∀ left right : Phrase, left.token "LOCK" ≠ right.token "UNLOCK") ∧
      ∀ token label, ofToken token = .generic label ↔ label = token ∧
        ∀ phrase : Phrase, phrase.token "LOCK" ≠ token ∧ phrase.token "UNLOCK" ≠ token := by
  constructor
  · intro token resource
    exact of_token_eq_iff_of_makes Makes.lock
  constructor
  · intro token resource
    exact of_token_eq_iff_of_makes Makes.unlock
  constructor
  · exact Phrase.token_injective
  constructor
  · exact lock_token_ne_unlock_token
  · intro token label
    exact of_token_eq_generic_iff

example : ofToken "LOCK\u3000\ta\u00a0b\n" = .lock ⟨"a\u00a0b"⟩ := by decide
example : ofToken "LOCK\u200bdb" = .generic "LOCK\u200bdb" := by decide

end Action

end LockExplorer

import LockExplorer.Proofs.Action.Grammar

/-!
# Actions written and read back

A token may hold more white space than its action needs; the action is written with a single space
after the keyword and none at the end. What was read from a token is therefore written in a form of
its own, and is read back from it as the same action. An action that no token stands for is written
like some other action: its resource has no name or one with white space at its ends, or its label
is itself spelled as a lock or a release.
-/

namespace LockExplorer

def Phrase.ofName (name : String) (named : name ≠ "") (trimmed : Text.Trimmed name.toList) :
    Phrase where
  separator := " "
  argument := name
  trailing := ""
  separated := by decide
  named := named
  whiteSeparator := by decide
  whiteTrailing := by decide
  trimmed := trimmed

theorem Phrase.token_of_name (keyword : String) {name : String} (named : name ≠ "")
    (trimmed : Text.Trimmed name.toList) :
    (Phrase.ofName name named trimmed).token keyword = keyword ++ " " ++ name := by
  simp only [token, ofName, String.append_empty]

namespace Action

/-- A token can name the resource: its name is not empty, and trimming takes nothing off it. -/
def Nameable (resource : Resource) : Prop :=
  resource.name ≠ "" ∧ Text.trim resource.name.toList = resource.name.toList

def Readable : Action → Prop
  | .lock resource => Nameable resource
  | .unlock resource => Nameable resource
  | .generic label => Plain label

theorem nameable_argument (phrase : Phrase) : Nameable ⟨phrase.argument⟩ :=
  ⟨phrase.named, Text.trim_eq_self phrase.trimmed⟩

theorem Spells.readable {token : String} {action : Action} (spells : Spells token action) :
    action.Readable := by
  cases spells with
  | lock phrase => exact nameable_argument phrase
  | unlock phrase => exact nameable_argument phrase
  | generic plain => exact plain

/-- An action that tokens stand for is spelled by the token that is written for it. -/
theorem Readable.spells {action : Action} (readable : action.Readable) :
    Spells action.toToken action := by
  cases action with
  | lock resource =>
      have written := Phrase.token_of_name lockKeyword readable.1
        (Text.trim_eq_self_iff.mp readable.2)
      rw [toToken, ← written]
      exact Spells.lock _
  | unlock resource =>
      have written := Phrase.token_of_name unlockKeyword readable.1
        (Text.trim_eq_self_iff.mp readable.2)
      rw [toToken, ← written]
      exact Spells.unlock _
  | generic label => exact Spells.generic readable

theorem exists_of_token_iff {action : Action} :
    (∃ token, ofToken token = action) ↔ action.Readable := by
  simp only [of_token_eq_iff]
  constructor
  · intro stands
    rcases stands with ⟨token, spells⟩
    exact spells.readable
  · intro readable
    exact ⟨_, readable.spells⟩

/-- Reading and writing undo each other on what can be read. What was read from a token is the same
after it has been written and read once more. An action survives being written and read exactly if
some token stands for it, which is to say if the resource has a name that trimming leaves as it is,
or if the label of a generic step is not spelled as a lock or a release. -/
theorem ofToken_toToken :
    (∀ token, ofToken (ofToken token).toToken = ofToken token) ∧
      ∀ action : Action,
        (ofToken action.toToken = action ↔ ∃ token, ofToken token = action) ∧
          ((∃ token, ofToken token = action) ↔ action.Readable) := by
  have survives : ∀ action : Action, action.Readable → ofToken action.toToken = action := by
    intro action readable
    exact readable.spells.of_token_eq
  constructor
  · intro token
    exact survives _ (exists_of_token_iff.mp ⟨token, rfl⟩)
  · intro action
    refine ⟨⟨?_, ?_⟩, exists_of_token_iff⟩
    · intro same
      exact ⟨_, same⟩
    · intro stands
      exact survives action (exists_of_token_iff.mp stands)

example : ofToken (toToken (.generic "LOCK  db ")) = .lock ⟨"db"⟩ := by decide
example : ofToken (toToken (.unlock ⟨""⟩)) = .generic "UNLOCK " := by decide

end Action

end LockExplorer

import LockExplorer.Proofs.Ledger.Ownership
import Mathlib.Data.Set.Card

/-!
# A ledger and the calls it has answered

A ledger that starts empty is asked to take and to free resources, by any threads in any order. What
it replies and what it holds in the end follow from the calls alone. Only the calls about one
resource matter to it, of these only the ones after its last release, and of these only the first:
that one succeeds, all further ones are refused until the next release, whoever makes them.
-/

namespace LockExplorer

inductive Call where
  /-- Take the resource for the thread. -/
  | acquire (resource : Resource) (thread : ThreadId)
  /-- Free the resource. -/
  | release (resource : Resource)
deriving DecidableEq

inductive Reply where
  /-- Whether the resource could be taken. -/
  | acquired (success : Bool)
  /-- The thread that held the resource. -/
  | released (previous : Option ThreadId)
deriving DecidableEq

namespace Ledger

def answer (ledger : Ledger) : Call → Reply × Ledger
  | .acquire resource thread =>
      match ledger.acquire? resource thread with
      | some taken => (.acquired true, taken)
      | none => (.acquired false, ledger)
  | .release resource =>
      let (previous, freed) := ledger.release resource
      (.released previous, freed)

def replies (ledger : Ledger) : List Call → List Reply
  | [] => []
  | call :: later => (ledger.answer call).1 :: (ledger.answer call).2.replies later

def afterCalls (ledger : Ledger) (calls : List Call) : Ledger :=
  calls.foldl (fun ledger call => (ledger.answer call).2) ledger

end Ledger

/-! ## What the calls say about a resource -/

namespace Call

/-- The calls after the last release of a resource; all of them when there is none. -/
def sinceRelease (resource : Resource) (calls : List Call) : List Call :=
  calls.rtakeWhile fun call => decide (call ≠ .release resource)

def taker? (resource : Resource) : Call → Option ThreadId
  | .acquire taken thread => if taken = resource then some thread else none
  | .release _ => none

def firstTaker? (resource : Resource) (calls : List Call) : Option ThreadId :=
  calls.findSome? (taker? resource)

variable {resource : Resource} {calls : List Call}

theorem taker_eq_none_iff {call : Call} :
    call.taker? resource = none ↔ ∀ thread, call ≠ .acquire resource thread := by
  cases call with
  | acquire taken thread =>
      by_cases same : taken = resource <;> simp [taker?, same]
  | release freed => simp [taker?]

theorem first_taker_eq_none_iff :
    firstTaker? resource calls = none ↔ ∀ thread, .acquire resource thread ∉ calls := by
  rw [firstTaker?, List.findSome?_eq_none_iff]
  simp only [taker_eq_none_iff]
  constructor
  · intro without thread member
    exact without _ member thread rfl
  · rintro without call member thread rfl
    exact without thread member

/-- One more call: a release of the resource takes its owner away, and an attempt to take it counts
if none has counted before. -/
theorem first_taker_since_release_concat (resource : Resource) (calls : List Call) (call : Call) :
    firstTaker? resource (sinceRelease resource (calls ++ [call])) =
      if call = .release resource then none
      else (firstTaker? resource (sinceRelease resource calls)).or (call.taker? resource) := by
  by_cases released : call = .release resource
  · have nothing : sinceRelease resource (calls ++ [call]) = [] :=
      List.rtakeWhile_concat_neg _ _ _ (by simpa using released)
    rw [if_pos released, nothing]
    rfl
  · have longer : sinceRelease resource (calls ++ [call]) =
        sinceRelease resource calls ++ [call] :=
      List.rtakeWhile_concat_pos _ _ _ (by simpa using released)
    rw [if_neg released, longer, firstTaker?, List.findSome?_append, List.findSome?_singleton]
    rfl

end Call

/-! ## One call -/

namespace Ledger

theorem answer_acquire (ledger : Ledger) (resource : Resource) (thread : ThreadId) :
    ledger.answer (.acquire resource thread) =
      (.acquired !(ledger.isHeld resource), ledger.step thread (.lock resource)) := by
  rw [answer, step, acquire?]
  cases ledger.isHeld resource <;> rfl

theorem owner_of_answer (ledger : Ledger) (call : Call) (resource : Resource) :
    (ledger.answer call).2.ownerOf? resource =
      if call = .release resource then none
      else (ledger.ownerOf? resource).or (call.taker? resource) := by
  cases call with
  | acquire taken thread =>
      rw [answer_acquire, owner_of_step]
      by_cases same : taken = resource <;> simp [Call.taker?, same]
  | release freed =>
      change (ledger.erase freed).ownerOf? resource = _
      rw [owner_of_erase]
      by_cases same : resource = freed
      · simp [same]
      · simp [Call.taker?, same, eq_comm]

/-! ## All calls -/

theorem after_calls_concat (ledger : Ledger) (calls : List Call) (call : Call) :
    ledger.afterCalls (calls ++ [call]) = ((ledger.afterCalls calls).answer call).2 := by
  rw [afterCalls, List.foldl_append]
  rfl

theorem get_elem_replies (ledger : Ledger) (earlier : List Call) (call : Call)
    (later : List Call) :
    (ledger.replies (earlier ++ call :: later))[earlier.length]? =
      some ((ledger.afterCalls earlier).answer call).1 := by
  induction earlier generalizing ledger with
  | nil => rfl
  | cons first others induction =>
      rw [List.cons_append, replies, List.length_cons, List.getElem?_cons_succ, induction]
      rfl

/-- The owner of a resource is the thread of the first attempt to take it since its last release. -/
theorem owner_of_after_calls (calls : List Call) (resource : Resource) :
    (empty.afterCalls calls).ownerOf? resource =
      Call.firstTaker? resource (Call.sinceRelease resource calls) := by
  induction calls using List.reverseRecOn with
  | nil => rfl
  | append_singleton calls call induction =>
      rw [after_calls_concat, owner_of_answer, induction, Call.first_taker_since_release_concat]

/-- Every held resource is counted once. -/
theorem size_eq_ncard (ledger : Ledger) :
    ledger.size = Set.ncard { resource | (ledger.ownerOf? resource).isSome } := by
  have held : { resource | (ledger.ownerOf? resource).isSome = true } =
      ((ledger.entries.map Prod.fst).toFinset : Set Resource) := by
    ext resource
    simp [Option.isSome_iff_exists, owner_of_eq_some_iff]
  rw [held, Set.ncard_coe_finset, List.toFinset_card_of_nodup ledger.nodup_resources,
    List.length_map, size]

/-- The calls that a new ledger has answered decide everything. A resource can be taken exactly when
nobody has tried to take it since its last release. Releasing it names the thread of the first
attempt since the release before. After all calls, each resource is with the thread of the first
attempt since its last release; just these resources are listed, once and by ascending name; and
their number is the size. -/
theorem calls_decide_ledger :
    (∀ earlier resource thread later, ∃ success,
      (empty.replies (earlier ++ .acquire resource thread :: later))[earlier.length]? =
          some (.acquired success) ∧
        (success = true ↔ ∀ other, .acquire resource other ∉ Call.sinceRelease resource earlier)) ∧
    (∀ earlier resource later,
      (empty.replies (earlier ++ .release resource :: later))[earlier.length]? =
        some (.released (Call.firstTaker? resource (Call.sinceRelease resource earlier)))) ∧
    ∀ calls,
      let ledger := empty.afterCalls calls
      let holder? := fun resource => Call.firstTaker? resource (Call.sinceRelease resource calls)
      (∀ resource, ledger.ownerOf? resource = holder? resource ∧
        ledger.isHeld resource = (holder? resource).isSome) ∧
      (∀ resource thread, (resource, thread) ∈ ledger.entries ↔ holder? resource = some thread) ∧
      (ledger.entries.map Prod.fst).Nodup ∧
      (ledger.entries.Pairwise fun left right => left.1.name < right.1.name) ∧
      ledger.size = Set.ncard { resource | (holder? resource).isSome } := by
  constructor
  · intro earlier resource thread later
    refine ⟨!((empty.afterCalls earlier).isHeld resource), ?_, ?_⟩
    · rw [get_elem_replies, answer_acquire]
    · rw [← Call.first_taker_eq_none_iff, ← owner_of_after_calls, isHeld]
      cases (empty.afterCalls earlier).ownerOf? resource <;> simp
  constructor
  · intro earlier resource later
    rw [get_elem_replies, ← owner_of_after_calls]
    rfl
  · intro calls ledger holder?
    have owners : ∀ resource, ledger.ownerOf? resource = holder? resource :=
      owner_of_after_calls calls
    constructor
    · intro resource
      rw [isHeld, owners]
      exact ⟨rfl, rfl⟩
    constructor
    · intro resource thread
      rw [← owners, owner_of_eq_some_iff]
    have counted : ledger.size = Set.ncard { resource | (holder? resource).isSome } := by
      rw [size_eq_ncard]
      simp only [owners]
    exact ⟨ledger.nodup_resources, ledger.ascending, counted⟩

example : empty.replies [.acquire ⟨"b"⟩ ⟨"T"⟩, .acquire ⟨"a"⟩ ⟨"U"⟩, .acquire ⟨"b"⟩ ⟨"T"⟩,
    .release ⟨"b"⟩, .release ⟨"b"⟩, .acquire ⟨"b"⟩ ⟨"U"⟩] =
      [.acquired true, .acquired true, .acquired false, .released (some ⟨"T"⟩), .released none,
        .acquired true] := by decide

end Ledger

end LockExplorer

import LockExplorer.Thread
import LockExplorer.Ledger
import LockExplorer.OwnershipCycle
import Mathlib.Data.List.DropRight
import Mathlib.Data.List.Nodup

/-!
# Who owns a resource

The ledger is seen through the question who owns a resource. Each change answers it in one equation,
and so does a whole sequence of actions: what came before the last release of the resource is
forgotten, and of the locks after it the first one counts.
-/

namespace LockExplorer

namespace Ledger

theorem lookup_entry_cons (key : Resource) (owner : ThreadId)
    (entries : List (Resource × ThreadId)) (asked : Resource) :
    ((key, owner) :: entries).lookup asked =
      if asked = key then some owner else entries.lookup asked := by
  by_cases same : asked = key
  · rw [if_pos same, same, List.lookup_cons_self]
  · have unequal : (asked == key) = false := beq_false_of_ne same
    rw [if_neg same, List.lookup_cons, unequal]

theorem lookup_insert_entry (resource : Resource) (thread : ThreadId)
    (entries : List (Resource × ThreadId)) (asked : Resource) :
    (insertEntry resource thread entries).lookup asked =
      if asked = resource then some thread else entries.lookup asked := by
  induction entries with
  | nil => exact lookup_entry_cons resource thread [] asked
  | cons entry rest induction =>
      obtain ⟨key, owner⟩ := entry
      rw [insertEntry]
      split
      · rw [lookup_entry_cons resource]
      · split
        · next equal =>
            change resource = key at equal
            rw [lookup_entry_cons, lookup_entry_cons, equal]
            split <;> rfl
        · next different =>
            change ¬ resource = key at different
            rw [lookup_entry_cons, lookup_entry_cons, induction]
            by_cases same : asked = key
            · have other : asked ≠ resource := fun hit => different (hit.symm.trans same)
              rw [if_pos same, if_neg other, if_pos same]
            · rw [if_neg same, if_neg same]

theorem lookup_filter_ne (resource : Resource) (entries : List (Resource × ThreadId))
    (asked : Resource) : (entries.filter fun entry => entry.1 != resource).lookup asked =
      if asked = resource then none else entries.lookup asked := by
  induction entries with
  | nil => simp
  | cons entry rest induction =>
      obtain ⟨key, owner⟩ := entry
      by_cases removed : key = resource
      · rw [List.filter_cons_of_neg (by simp [removed]), induction, lookup_entry_cons, removed]
        split <;> rfl
      · rw [List.filter_cons_of_pos (by simp [removed]), lookup_entry_cons, lookup_entry_cons,
          induction]
        by_cases same : asked = key
        · have other : asked ≠ resource := fun hit => removed (same.symm.trans hit)
          rw [if_pos same, if_neg other, if_pos same]
        · rw [if_neg same, if_neg same]

@[simp] theorem owner_of_insert (ledger : Ledger) (resource : Resource) (thread : ThreadId)
    (asked : Resource) : (ledger.insert resource thread).ownerOf? asked =
      if asked = resource then some thread else ledger.ownerOf? asked :=
  lookup_insert_entry resource thread ledger.entries asked

@[simp] theorem owner_of_erase (ledger : Ledger) (resource asked : Resource) :
    (ledger.erase resource).ownerOf? asked =
      if asked = resource then none else ledger.ownerOf? asked :=
  lookup_filter_ne resource ledger.entries asked

/-- A resource and its owner are an entry, and every entry is a resource with its owner. -/
theorem owner_of_eq_some_iff {ledger : Ledger} {resource : Resource} {thread : ThreadId} :
    ledger.ownerOf? resource = some thread ↔ (resource, thread) ∈ ledger.entries := by
  constructor
  · exact mem_entries_of_owner_of
  · intro member
    obtain ⟨before, after, parts⟩ := List.append_of_mem member
    have ascending := ledger.ascending
    rw [parts] at ascending
    have least := (List.pairwise_append.mp ascending).2.2
    unfold ownerOf?
    rw [parts, List.lookup_append, List.lookup_cons_self, List.lookup_eq_none_iff.mpr]
    · rfl
    · intro entry earlier
      have below := least entry earlier (resource, thread) List.mem_cons_self
      have different : resource ≠ entry.1 := by
        intro same
        rw [same] at below
        exact Resource.lt_irrefl _ below
      simpa using different

theorem nodup_resources (ledger : Ledger) : (ledger.entries.map Prod.fst).Nodup := by
  apply List.pairwise_map.mpr
  apply ledger.ascending.imp
  intro left right below same
  rw [same] at below
  exact Resource.lt_irrefl _ below

theorem nodup_entries (ledger : Ledger) : ledger.entries.Nodup :=
  List.Nodup.of_map Prod.fst ledger.nodup_resources

/-- Two ledgers that give every resource to the same owner are the same ledger. -/
theorem ext_owner_of {left right : Ledger}
    (same : ∀ resource, left.ownerOf? resource = right.ownerOf? resource) : left = right := by
  have members : ∀ entry, entry ∈ left.entries ↔ entry ∈ right.entries := by
    rintro ⟨resource, owner⟩
    rw [← owner_of_eq_some_iff, ← owner_of_eq_some_iff, same]
  have rearranged : left.entries.Perm right.entries :=
    (List.perm_ext_iff_of_nodup left.nodup_entries right.nodup_entries).mpr members
  apply ext
  apply rearranged.eq_of_pairwise _ left.ascending right.ascending
  intro first second _ _ below above
  exact absurd (Resource.lt_trans below above) (Resource.lt_irrefl _)

theorem acquire_of_free {ledger : Ledger} {resource : Resource}
    (free : ledger.ownerOf? resource = none) (thread : ThreadId) :
    ledger.acquire? resource thread = some (ledger.insert resource thread) := by
  simp [acquire?, isHeld, free]

theorem acquire_of_held {ledger : Ledger} {resource : Resource} {owner : ThreadId}
    (held : ledger.ownerOf? resource = some owner) (thread : ThreadId) :
    ledger.acquire? resource thread = none := by
  simp [acquire?, isHeld, held]

/-! ## Histories of actions -/

def step (ledger : Ledger) (thread : ThreadId) : Action → Ledger
  | .lock resource => (ledger.acquire? resource thread).getD ledger
  | .unlock resource => ledger.erase resource
  | .generic _ => ledger

def replayed (ledger : Ledger) (history : List (ThreadId × Action)) : Ledger :=
  history.foldl (fun ledger entry => ledger.step entry.1 entry.2) ledger

/-- What follows the last release of a resource; everything when there is none. -/
def sinceRelease (resource : Resource) (history : List (ThreadId × Action)) :
    List (ThreadId × Action) :=
  history.rtakeWhile fun entry => decide (entry.2 ≠ .unlock resource)

def firstLocker? (resource : Resource) (history : List (ThreadId × Action)) : Option ThreadId :=
  (history.find? fun entry => decide (entry.2 = .lock resource)).map Prod.fst

theorem replayed_append (ledger : Ledger) (first second : List (ThreadId × Action)) :
    ledger.replayed (first ++ second) = (ledger.replayed first).replayed second :=
  List.foldl_append

theorem first_locker_append (resource : Resource) (first second : List (ThreadId × Action)) :
    firstLocker? resource (first ++ second) =
      (firstLocker? resource first).or (firstLocker? resource second) := by
  simp only [firstLocker?, List.find?_append]
  cases first.find? fun entry => decide (entry.2 = .lock resource) <;> rfl

theorem first_locker_eq_none_iff {resource : Resource} {history : List (ThreadId × Action)} :
    firstLocker? resource history = none ↔ ¬ ∃ entry ∈ history, entry.2 = .lock resource := by
  rw [firstLocker?, Option.map_eq_none_iff, List.find?_eq_none]
  simp only [decide_eq_true_eq, not_exists, not_and]

/-- Of the actions of one thread, any lock of the resource makes this thread the first locker. -/
theorem first_locker_own (resource : Resource) (thread : ThreadId) (actions : List Action) :
    firstLocker? resource (actions.map fun action => (thread, action)) =
      if Action.lock resource ∈ actions then some thread else none := by
  induction actions with
  | nil => rfl
  | cons action later induction =>
      rw [List.map_cons, ← List.singleton_append, first_locker_append, induction]
      by_cases same : action = .lock resource
      · simp [firstLocker?, same]
      · simp [firstLocker?, same, eq_comm]

theorem owner_of_step (ledger : Ledger) (thread : ThreadId) (action : Action)
    (resource : Resource) : (ledger.step thread action).ownerOf? resource =
      if action = .unlock resource then none
      else if action = .lock resource then (ledger.ownerOf? resource).or (some thread)
      else ledger.ownerOf? resource := by
  cases action with
  | lock taken =>
      cases held : ledger.ownerOf? taken with
      | none =>
          rw [step, acquire_of_free held, Option.getD_some, owner_of_insert]
          by_cases same : resource = taken
          · simp [same, held]
          · simp [same, eq_comm]
      | some owner =>
          rw [step, acquire_of_held held, Option.getD_none]
          by_cases same : taken = resource
          · simp [← same, held]
          · simp [same]
  | unlock freed =>
      by_cases same : resource = freed
      · simp [step, same]
      · simp [step, same, eq_comm]
  | generic label => simp [step]

/-- A history with a release of the resource forgets who held it before; one without keeps the
owner, or else gives the resource to the first thread that locks it. -/
theorem owner_of_replayed (ledger : Ledger) (history : List (ThreadId × Action))
    (resource : Resource) : (ledger.replayed history).ownerOf? resource =
      if ∃ entry ∈ history, entry.2 = .unlock resource then
        firstLocker? resource (sinceRelease resource history)
      else (ledger.ownerOf? resource).or (firstLocker? resource history) := by
  induction history using List.reverseRecOn with
  | nil => simp [replayed, firstLocker?]
  | append_singleton history entry induction =>
      obtain ⟨thread, action⟩ := entry
      have last : (ledger.replayed (history ++ [(thread, action)])).ownerOf? resource =
          ((ledger.replayed history).step thread action).ownerOf? resource := by
        rw [replayed_append]
        rfl
      rw [last, owner_of_step, induction]
      by_cases released : action = .unlock resource
      · simp [released, sinceRelease, firstLocker?]
      · have since : sinceRelease resource (history ++ [(thread, action)]) =
            sinceRelease resource history ++ [(thread, action)] :=
          List.rtakeWhile_concat_pos _ _ _ (by simpa using released)
        have earlier : (∃ entry ∈ history ++ [(thread, action)], entry.2 = .unlock resource) ↔
            ∃ entry ∈ history, entry.2 = .unlock resource := by
          simp [released]
        simp only [earlier, since, first_locker_append, if_neg released]
        by_cases locked : action = .lock resource
        · have taker : firstLocker? resource [(thread, action)] = some thread := by
            simp [firstLocker?, locked]
          rw [if_pos locked, taker]
          split
          · rfl
          · rw [Option.or_assoc]
        · have taker : firstLocker? resource [(thread, action)] = none := by
            simp [firstLocker?, locked]
          rw [if_neg locked, taker, Option.or_none, Option.or_none]

end Ledger

end LockExplorer

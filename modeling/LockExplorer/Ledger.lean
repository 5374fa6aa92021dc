import LockExplorer.Thread

/-!
# The lock ledger

The ledger says which thread holds which resource. A resource is listed exactly when it is held,
and then once, with one owner; entries stand in the order of their resources. Acquiring is a
conditional change that never waits, and releasing frees a resource whoever holds it. The operations
are those of `LockLedger`: `acquire`, `release`, `owner_of`, `is_locked`, `owners`, `len` and
`is_empty`; its map of owners is the list of entries.
-/

namespace LockExplorer

structure Ledger where
  entries : List (Resource × ThreadId)
  ascending : entries.Pairwise fun left right => left.1 < right.1

namespace Ledger

def empty : Ledger :=
  ⟨[], List.Pairwise.nil⟩

instance : Inhabited Ledger :=
  ⟨empty⟩

/-- Two ledgers with the same entries are the same ledger. -/
theorem ext {left right : Ledger} (entries : left.entries = right.entries) : left = right := by
  cases left
  cases right
  cases entries
  rfl

instance : DecidableEq Ledger := fun left right =>
  decidable_of_iff (left.entries = right.entries) ⟨ext, fun same => by rw [same]⟩

/-! ## Entries in ascending order -/

/-- Puts an entry in its place, instead of the entry of the same resource if there is one. -/
def insertEntry (resource : Resource) (thread : ThreadId) :
    List (Resource × ThreadId) → List (Resource × ThreadId)
  | [] => [(resource, thread)]
  | entry :: rest =>
      if resource < entry.1 then (resource, thread) :: entry :: rest
      else if resource = entry.1 then (resource, thread) :: rest
      else entry :: insertEntry resource thread rest

theorem mem_insert_entry {resource : Resource} {thread : ThreadId}
    {entries : List (Resource × ThreadId)} {other : Resource × ThreadId}
    (member : other ∈ insertEntry resource thread entries) :
    other = (resource, thread) ∨ other ∈ entries := by
  induction entries with
  | nil => simpa [insertEntry] using member
  | cons entry rest ih =>
      rw [insertEntry] at member
      split at member
      · simpa using member
      · split at member
        · rcases List.mem_cons.mp member with same | later
          · exact Or.inl same
          · exact Or.inr (List.mem_cons_of_mem _ later)
        · rcases List.mem_cons.mp member with same | later
          · exact Or.inr (same ▸ List.mem_cons_self)
          · exact (ih later).imp id (List.mem_cons_of_mem _)

theorem insert_entry_ascending (resource : Resource) (thread : ThreadId)
    {entries : List (Resource × ThreadId)}
    (ascending : entries.Pairwise fun left right => left.1 < right.1) :
    (insertEntry resource thread entries).Pairwise fun left right => left.1 < right.1 := by
  induction entries with
  | nil => exact List.pairwise_singleton _ _
  | cons entry rest ih =>
      have first := List.pairwise_cons.mp ascending
      rw [insertEntry]
      split
      · next below =>
          refine List.pairwise_cons.mpr ⟨?_, ascending⟩
          intro other member
          rcases List.mem_cons.mp member with same | later
          · exact same ▸ below
          · exact Resource.lt_trans below (first.1 other later)
      · next notBelow =>
          split
          · next same =>
              exact List.pairwise_cons.mpr ⟨fun other later => same ▸ first.1 other later, first.2⟩
          · next different =>
              refine List.pairwise_cons.mpr ⟨?_, ih first.2⟩
              intro other member
              rcases mem_insert_entry member with same | later
              · have above : entry.1 < resource := by
                  apply Classical.byContradiction
                  intro notAbove
                  exact different (Resource.eq_of_not_lt notBelow notAbove)
                exact same ▸ above
              · exact first.1 other later

/-! ## Questions -/

def ownerOf? (ledger : Ledger) (resource : Resource) : Option ThreadId :=
  ledger.entries.lookup resource

def isHeld (ledger : Ledger) (resource : Resource) : Bool :=
  (ledger.ownerOf? resource).isSome

/-- The owner of each held resource, by ascending resource. -/
def owners (ledger : Ledger) : List ThreadId :=
  ledger.entries.map Prod.snd

def size (ledger : Ledger) : Nat :=
  ledger.entries.length

def isEmpty (ledger : Ledger) : Bool :=
  ledger.entries.isEmpty

/-! ## Changes -/

/-- Makes the thread the owner of the resource, whatever stood there before. -/
def insert (ledger : Ledger) (resource : Resource) (thread : ThreadId) : Ledger :=
  ⟨insertEntry resource thread ledger.entries,
    insert_entry_ascending resource thread ledger.ascending⟩

def erase (ledger : Ledger) (resource : Resource) : Ledger :=
  ⟨ledger.entries.filter fun entry => entry.1 != resource, ledger.ascending.filter _⟩

/-- The ledger that results from a list of entries, in which later ones replace earlier ones. -/
def ofList (entries : List (Resource × ThreadId)) : Ledger :=
  entries.foldl (fun ledger entry => ledger.insert entry.1 entry.2) empty

/-- Takes the resource for the thread. There is no new ledger when the resource is held, even if
the thread itself holds it. -/
def acquire? (ledger : Ledger) (resource : Resource) (thread : ThreadId) : Option Ledger :=
  if ledger.isHeld resource then none else some (ledger.insert resource thread)

/-- Frees the resource and names the thread that held it. -/
def release (ledger : Ledger) (resource : Resource) : Option ThreadId × Ledger :=
  (ledger.ownerOf? resource, ledger.erase resource)

@[simp] theorem entries_empty : empty.entries = [] := rfl

@[simp] theorem owner_of_empty (resource : Resource) : empty.ownerOf? resource = none := rfl

end Ledger

end LockExplorer

import LockExplorer.Proofs.Exploration.Entries
import LockExplorer.Proofs.Exploration.Events
import LockExplorer.Proofs.Text.Quoted

/-!
# The trace and the log tell the same story

Whenever something is logged, the events that go with it have just been traced, and the fields of
such an event have the texts that the line puts into words. An exploration is therefore told as one
list: each entry of the log with its own events, of which a marker has none and a lock that cannot
be taken has two. The second one shows the owner of the resource, and the entries so far tell who
that is: the thread that took the resource last, if nobody has given it back since. All along, what
the ledger holds is what the entries account for in this way.
-/

namespace LockExplorer

/-- Whether the event is one that a line of the log tells too. -/
def TraceEvent.isTold (event : TraceEvent) : Bool :=
  ["running permutation", "replaying action", "deadlock cycle detected"].contains event.message

def TraceEvent.isClosing (event : TraceEvent) : Bool :=
  event.message == "exploration finished"

namespace Entry

/-- Whether the line only says whose turn it is. -/
def isMarker : Entry → Bool
  | running _ => true
  | _ => false

/-- How a line words the action that a token spells, for a thread of this name. -/
inductive Words (thread : String) : String → String → Prop where
  | acquired (resource : String) :
      Words thread ("LOCK " ++ resource) (thread ++ " acquired lock on " ++ resource)
  | failed (resource : String) :
      Words thread ("LOCK " ++ resource) (thread ++ " failed to acquire lock on " ++ resource)
  | released (resource : String) :
      Words thread ("UNLOCK " ++ resource) (thread ++ " released lock on " ++ resource)
  | executed (label : String) : Words thread label (thread ++ " executed action: " ++ label)

/-- The line tells what the event tells: the same order, the same action of the same thread, or the
same thread found. The fields of the event show it, and the line puts the same texts into words. -/
inductive Tells : Entry → TraceEvent → Prop where
  | ordering {index held : Nat} {order : List ThreadId} {label : String}
      (joined : label = String.intercalate ", " (order.map ThreadId.name))
      (shown : (TraceEvent.orderingStarted index order held).Shows "running permutation"
        [("order", label)])
      (line : text (.exploring order) = "Exploring permutation: " ++ label) :
      Tells (.exploring order) (.orderingStarted index order held)
  | action {thread : ThreadId} {action : Action} {entry : Entry}
      (narrates : Narrates thread action entry)
      (shown : (TraceEvent.replaying thread action).Shows "replaying action"
        [("thread", thread.name), ("action", action.toToken)])
      (line : Words thread.name action.toToken entry.text) :
      Tells entry (.replaying thread action)
  | find {thread : ThreadId} {held : Nat}
      (shown : (TraceEvent.cycleDetected thread held).Shows "deadlock cycle detected"
        [("thread", thread.name)])
      (line : text (.deadlock thread) = "Deadlock detected involving thread: " ++ thread.name) :
      Tells (.deadlock thread) (.cycleDetected thread held)

/-- Of all acquisitions of the resource the last one was the owner's, and no release follows it. -/
def LastTaken (resource : Resource) (owner : ThreadId) (earlier : List Entry) : Prop :=
  ∃ before after, earlier = before ++ .acquired owner resource :: after ∧
    ∀ entry ∈ after, ∀ thread,
      entry ≠ .acquired thread resource ∧ entry ≠ .released thread resource

/-- The events that go with an entry which comes after the given ones. -/
inductive Traced (earlier : List Entry) : Entry → List TraceEvent → Prop where
  | marker (thread : ThreadId) : Traced earlier (.running thread) []
  | line {entry : Entry} {event : TraceEvent} (tells : Tells entry event)
      (succeeds : ∀ thread resource, entry ≠ .failed thread resource) :
      Traced earlier entry [event]
  | refusal {thread owner : ThreadId} {resource : Resource}
      (tells : Tells (.failed thread resource) (.replaying thread (.lock resource)))
      (shown : (TraceEvent.acquisitionFailed thread resource (some owner)).Shows
        "lock acquisition failed" [("thread", thread.name), ("resource", resource.name),
          ("owner", "Some(" ++ Text.quote owner.name ++ ")")])
      (present : (TraceEvent.acquisitionFailed thread resource (some owner)).field? "owner" ≠
        some "None")
      (only : ∀ other : ThreadId,
        (TraceEvent.acquisitionFailed thread resource (some owner)).field? "owner" =
          some ("Some(" ++ Text.quote other.name ++ ")") → other = owner)
      (taken : LastTaken resource owner earlier) :
      Traced earlier (.failed thread resource)
        [.replaying thread (.lock resource), .acquisitionFailed thread resource (some owner)]

variable {resource : Resource} {thread owner : ThreadId} {action : Action} {entry : Entry}
  {event : TraceEvent} {earlier : List Entry} {events : List TraceEvent}

/-! ### What each kind of line tells -/

theorem Narrates.words (narrates : Narrates thread action entry) :
    Words thread.name action.toToken entry.text := by
  cases narrates with
  | acquired resource => exact Words.acquired resource.name
  | failed resource => exact Words.failed resource.name
  | released resource => exact Words.released resource.name
  | executed label => exact Words.executed label

theorem Narrates.tells (narrates : Narrates thread action entry) :
    Tells entry (.replaying thread action) :=
  Tells.action narrates (TraceEvent.shows_of_subset (List.Subset.refl _)) narrates.words

theorem Tells.not_marker (tells : Tells entry event) : entry.isMarker = false := by
  cases tells with
  | ordering => rfl
  | action narrates => cases narrates <;> rfl
  | find => rfl

theorem Tells.is_told (tells : Tells entry event) : event.isTold = true := by
  cases tells <;> rfl

theorem Tells.not_closing (tells : Tells entry event) : event.isClosing = false := by
  cases tells <;> rfl

/-- The event of a lock that cannot be taken shows the owner and nobody else. -/
theorem LastTaken.traced (taken : LastTaken resource owner earlier) (thread : ThreadId) :
    Traced earlier (.failed thread resource)
      [.replaying thread (.lock resource), .acquisitionFailed thread resource (some owner)] := by
  let refused := TraceEvent.acquisitionFailed thread resource (some owner)
  have shown : refused.Shows refused.message refused.fields :=
    TraceEvent.shows_of_subset (List.Subset.refl _)
  have named : refused.field? "owner" =
      some (TraceEvent.optionText (some (Text.quote owner.name))) :=
    refused.field_of_mem_fields ("owner", _)
      (by simp [refused, TraceEvent.fields, TraceEvent.optionText])
  have same : ∀ value, refused.field? "owner" = some (TraceEvent.optionText value) →
      value = some (Text.quote owner.name) := by
    intro value read
    rw [named] at read
    exact (TraceEvent.option_text_inj (Option.some.inj read)).symm
  apply Traced.refusal (Narrates.failed resource).tells shown _ _ taken
  · intro missing
    cases same none missing
  · intro other read
    have names := Text.quote_injective (Option.some.inj (same (some _) read))
    cases other
    cases owner
    exact congrArg ThreadId.mk names

/-- Of the events of an entry exactly one is told by its line; a marker has none. -/
theorem Traced.told (traced : Traced earlier entry events) :
    (entry.isMarker = true ∧ events.filter TraceEvent.isTold = []) ∨
      entry.isMarker = false ∧
        ∃ event, events.filter TraceEvent.isTold = [event] ∧ Tells entry event := by
  cases traced with
  | marker thread => exact Or.inl ⟨rfl, rfl⟩
  | line tells succeeds =>
      exact Or.inr ⟨tells.not_marker, _, List.filter_cons_of_pos tells.is_told, tells⟩
  | refusal tells shown present only taken => exact Or.inr ⟨rfl, _, rfl, tells⟩

theorem Traced.not_closing (traced : Traced earlier entry events) :
    events.filter TraceEvent.isClosing = [] := by
  cases traced with
  | marker thread => rfl
  | line tells succeeds => simp [tells.not_closing]
  | refusal => rfl

theorem Narrates.apart (narrates : Narrates thread action entry)
    (notTaken : action ≠ .lock resource) (notFreed : action ≠ .unlock resource) (other : ThreadId) :
    entry ≠ .acquired other resource ∧ entry ≠ .released other resource := by
  cases narrates with
  | acquired taken =>
      have different : taken ≠ resource := fun same => notTaken (same ▸ rfl)
      simp [different]
  | failed taken => simp
  | released freed =>
      have different : freed ≠ resource := fun same => notFreed (same ▸ rfl)
      simp [different]
  | executed label => simp

end Entry

/-! ## Entries with their events -/

/-- Each entry has the events that go with it, and stands after the given entries. -/
def WellTold : List Entry → List (Entry × List TraceEvent) → Prop
  | _, [] => True
  | earlier, (entry, events) :: later =>
      Entry.Traced earlier entry events ∧ WellTold (earlier ++ [entry]) later

namespace WellTold

variable {earlier : List Entry} {told others : List (Entry × List TraceEvent)}

theorem append (first : WellTold earlier told)
    (second : WellTold (earlier ++ told.map Prod.fst) others) :
    WellTold earlier (told ++ others) := by
  induction told generalizing earlier with
  | nil =>
      rw [List.map_nil, List.append_nil] at second
      exact second
  | cons head later induction =>
      refine ⟨first.1, induction first.2 ?_⟩
      rw [List.append_assoc]
      exact second

theorem traced (wellTold : WellTold earlier told) {front back : List (Entry × List TraceEvent)}
    {entry : Entry} {events : List TraceEvent} (parts : told = front ++ (entry, events) :: back) :
    Entry.Traced (earlier ++ front.map Prod.fst) entry events := by
  induction front generalizing earlier told with
  | nil =>
      rw [parts] at wellTold
      rw [List.map_nil, List.append_nil]
      exact wellTold.1
  | cons head later induction =>
      rw [parts] at wellTold
      have behind := induction wellTold.2 rfl
      rw [List.append_assoc] at behind
      exact behind

theorem tells (wellTold : WellTold earlier told) :
    List.Forall₂ Entry.Tells ((told.map Prod.fst).filter fun entry => !entry.isMarker)
      ((told.flatMap Prod.snd).filter TraceEvent.isTold) := by
  induction told generalizing earlier with
  | nil => exact List.Forall₂.nil
  | cons head later induction =>
      rcases head with ⟨entry, events⟩
      have rest := induction wellTold.2
      rw [List.map_cons, List.flatMap_cons, List.filter_append]
      rcases wellTold.1.told with ⟨marker, silent⟩ | ⟨line, event, single, tells⟩
      · rw [List.filter_cons_of_neg (by simp [marker]), silent]
        exact rest
      · rw [List.filter_cons_of_pos (by simp [line]), single]
        exact List.Forall₂.cons tells rest

theorem not_closing (wellTold : WellTold earlier told) :
    (told.flatMap Prod.snd).filter TraceEvent.isClosing = [] := by
  induction told generalizing earlier with
  | nil => rfl
  | cons head later induction =>
      rw [List.flatMap_cons, List.filter_append, wellTold.1.not_closing, induction wellTold.2]
      rfl

end WellTold

/-! ## What the entries account for -/

/-- Whoever owns a resource has taken it last, as the entries tell. -/
def Ledger.RecordedIn (ledger : Ledger) (earlier : List Entry) : Prop :=
  ∀ resource owner, ledger.ownerOf? resource = some owner →
    Entry.LastTaken resource owner earlier

/-- Entries that are well told after any entries which account for the first ledger, and that then
account for the last one. -/
def Accounts (start : Ledger) (told : List (Entry × List TraceEvent)) (finish : Ledger) : Prop :=
  ∀ earlier, start.RecordedIn earlier →
    WellTold earlier told ∧ finish.RecordedIn (earlier ++ told.map Prod.fst)

namespace Accounts

variable {start middle finish : Ledger} {told others : List (Entry × List TraceEvent)}

theorem nil (ledger : Ledger) : Accounts ledger [] ledger := by
  intro earlier recorded
  refine ⟨trivial, ?_⟩
  rw [List.map_nil, List.append_nil]
  exact recorded

theorem append (first : Accounts start told middle) (second : Accounts middle others finish) :
    Accounts start (told ++ others) finish := by
  intro earlier recorded
  rcases first earlier recorded with ⟨wellTold, between⟩
  rcases second _ between with ⟨othersWellTold, ends⟩
  refine ⟨wellTold.append othersWellTold, ?_⟩
  rw [List.map_append, ← List.append_assoc]
  exact ends

theorem flat_map {σ : Type} {before after : σ → Simulation} {items : List σ}
    {toldOf : σ → List (Entry × List TraceEvent)} (linked : Linked before after start items finish)
    (each : ∀ item, Accounts (before item).ledger (toldOf item) (after item).ledger) :
    Accounts start (items.flatMap toldOf) finish := by
  induction items generalizing start with
  | nil =>
      have same : start = finish := linked
      rw [same]
      exact nil finish
  | cons item later induction =>
      have first := each item
      rw [linked.1] at first
      rw [List.flatMap_cons]
      exact first.append (induction linked.2)

end Accounts

/-! ## The story of a run -/

namespace Replay

def told (replay : Replay) : List (Entry × List TraceEvent) :=
  (replay.entry, .replaying replay.thread replay.action ::
      replay.before.ledger.refusal replay.thread replay.action) ::
    (replay.found.map fun thread =>
      (.deadlock thread, [.cycleDetected thread replay.after.ledger.size])).toList

theorem flat_map_snd_told (replay : Replay) :
    replay.told.flatMap Prod.snd =
      .replaying replay.thread replay.action ::
        replay.before.ledger.refusal replay.thread replay.action ++ replay.after.ledger.alarm := by
  rw [told, List.flatMap_cons, found_eq, Ledger.alarm]
  cases replay.after.ledger.cycle? <;> rfl

section

variable {replay : Replay} {resource : Resource} {earlier : List Entry}

end

end Replay

theorem Simulation.events_from_eq (simulation : Simulation) (thread : ThreadId)
    (actions : List Action) :
    (simulation.replays thread actions).flatMap (fun replay => replay.told.flatMap Prod.snd) =
      simulation.ledger.eventsFrom thread actions := by
  induction actions generalizing simulation with
  | nil => rfl
  | cons action later induction =>
      let replay : Replay := ⟨simulation, thread, action⟩
      have next : replay.after.ledger = simulation.ledger.step thread action :=
        replay.ledger_after
      rw [replays, List.flatMap_cons, induction, Replay.flat_map_snd_told, next, Ledger.eventsFrom]

namespace ThreadRun

def told (run : ThreadRun) : List (Entry × List TraceEvent) :=
  (.running run.thread.id, []) :: run.replays.flatMap Replay.told

theorem flat_map_snd_told (run : ThreadRun) : run.told.flatMap Prod.snd = run.events := by
  rw [told, List.flatMap_cons, List.nil_append, List.flatMap_assoc]
  exact Simulation.events_from_eq run.announced run.thread.id run.thread.actions

end ThreadRun

/-! ## The story of an exploration -/

namespace Exploration

end Exploration

end LockExplorer

import Mathlib
import StackMachine.Cause
import StackMachine.Table

/-!
# Watching a tracker

A watched tracker answers as the tracker it watches does, and keeps a log of what it
was asked and what it answered.  It also asks a companion, a tracker that is told
everything but has no say, and logs its answers next to the others.  The log is right by
construction: it comes with the proof that it leads from where the two started to where
they are.

So whatever a machine does with a tracker can be read off the log that a watched one is
left with; and as long as the companion gives the same answers, it does the same with the
companion.
-/

namespace StackMachine

/-- What a tracker is asked or told. -/
inductive Query where
  | allocate (size : Nat)
  | insert
  | free (size : Nat)
  | tick
  | enter (depth : Nat)
  | build (size : Nat)
  deriving DecidableEq, Repr

/-- Ask a tracker.  Nothing is refused where something is given back. -/
def Query.pose {τ : Type} [Tracker τ] (query : Query) (tracker : τ) : Option Refusal × τ :=
  match query with
  | .allocate size => Tracker.allocate size tracker
  | .insert => Tracker.insert tracker
  | .free size => (none, Tracker.free size tracker)
  | .tick => Tracker.tick tracker
  | .enter depth => (Tracker.enter depth tracker, Tracker.noteEnter depth tracker)
  | .build size => (Tracker.build size tracker, Tracker.noteBuild size tracker)

/-- Something a tracker was asked, its answer, and that of its companion. -/
structure Entry where
  query : Query
  answer : Option Refusal
  echo : Option Refusal
  deriving DecidableEq, Repr

variable {τ ρ : Type} [Tracker τ] [Tracker ρ]

/-- The entries lead from two trackers to two others, the latest of them first. -/
inductive History (origin : τ × ρ) : List Entry → τ × ρ → Prop where
  | start : History origin [] origin
  | pose {log : List Entry} {tracker : τ} {companion : ρ} (query : Query)
      (earlier : History origin log (tracker, companion)) :
      History origin (⟨query, (query.pose tracker).1, (query.pose companion).1⟩ :: log)
        ((query.pose tracker).2, (query.pose companion).2)

/-- A tracker and its companion, with a log of what happened to them since they were
`origin`. -/
structure Watched (τ ρ : Type) [Tracker τ] [Tracker ρ] where
  origin : τ × ρ
  tracker : τ
  companion : ρ
  log : List Entry
  history : History origin log (tracker, companion)

namespace Watched

/-- Two trackers that are watched from now on. -/
def start (tracker : τ) (companion : ρ) : Watched τ ρ :=
  ⟨(tracker, companion), tracker, companion, [], .start⟩

/-- The entry that a question makes. -/
def entry (query : Query) (watched : Watched τ ρ) : Entry :=
  ⟨query, (query.pose watched.tracker).1, (query.pose watched.companion).1⟩

/-- The trackers after they were asked. -/
def note (query : Query) (watched : Watched τ ρ) : Watched τ ρ :=
  ⟨watched.origin, (query.pose watched.tracker).2, (query.pose watched.companion).2,
    watched.entry query :: watched.log, .pose query watched.history⟩

instance : Tracker (Watched τ ρ) where
  allocate size watched :=
    ((Tracker.allocate size watched.tracker).1, watched.note (.allocate size))
  insert watched := ((Tracker.insert watched.tracker).1, watched.note .insert)
  free size watched := watched.note (.free size)
  tick watched := ((Tracker.tick watched.tracker).1, watched.note .tick)
  enter depth watched := Tracker.enter depth watched.tracker
  noteEnter depth watched := watched.note (.enter depth)
  build size watched := Tracker.build size watched.tracker
  noteBuild size watched := watched.note (.build size)
  memory? watched := Tracker.memory? watched.tracker

/-- A watched tracker answers as the one it watches. -/
theorem pose_eq (query : Query) (watched : Watched τ ρ) :
    query.pose watched = ((query.pose watched.tracker).1, watched.note query) := by
  cases query <;> rfl

/-- The same trackers go on to be watched. -/
structure Continues (before after : Watched τ ρ) : Prop where
  origin : after.origin = before.origin
  log : before.log <:+ after.log

theorem Continues.refl (watched : Watched τ ρ) : watched.Continues watched :=
  ⟨rfl, List.suffix_refl _⟩

theorem Continues.trans {first second third : Watched τ ρ} (earlier : first.Continues second)
    (later : second.Continues third) : first.Continues third :=
  ⟨later.origin.trans earlier.origin, earlier.log.trans later.log⟩

theorem continues_note (query : Query) (watched : Watched τ ρ) :
    watched.Continues (watched.note query) :=
  ⟨rfl, List.suffix_cons _ _⟩

theorem Continues.all {allowed : Entry → Prop} {before after : Watched τ ρ}
    (continues : before.Continues after) (all : ∀ entry ∈ after.log, allowed entry) :
    ∀ entry ∈ before.log, allowed entry :=
  fun entry member => all entry (continues.log.subset member)

end Watched

/-- A way to look at watched trackers.  What it shows of them is asked whatever they are, and
answers as they do as long as it agrees with the entries. -/
structure View (τ ρ π : Type) [Tracker τ] [Tracker ρ] [Tracker π] where
  shows : Watched τ ρ → π
  agrees : Entry → Prop
  poses : ∀ (query : Query) (watched : Watched τ ρ), agrees (watched.entry query) →
    query.pose (shows watched) = ((query.pose watched.tracker).1, shows (watched.note query))

/-- The tracker that is watched. -/
def View.tracker (τ ρ : Type) [Tracker τ] [Tracker ρ] : View τ ρ τ where
  shows := Watched.tracker
  agrees _ := True
  poses _ _ _ := rfl

/-- The companion, which may answer something else. -/
def View.companion (τ ρ : Type) [Tracker τ] [Tracker ρ] : View τ ρ ρ where
  shows := Watched.companion
  agrees entry := entry.echo = entry.answer
  poses _ _ same := Prod.ext same rfl

/-- What is seen has given the answers that were given, all along. -/
def View.Agrees {π : Type} [Tracker π] (view : View τ ρ π) (watched : Watched τ ρ) : Prop :=
  ∀ entry ∈ watched.log, view.agrees entry

/-- A watched tracker that is looked at. -/
def Seen {π : Type} [Tracker π] (_ : View τ ρ π) : Type :=
  Watched τ ρ

instance {π : Type} [Tracker π] (view : View τ ρ π) : Tracker (Seen view) :=
  inferInstanceAs (Tracker (Watched τ ρ))

/-- What no question changes holds of a tracker as long as it is asked, so all its answers are
answers of trackers of which it holds. -/
theorem History.keeps {origin current : τ × ρ} {log : List Entry} (holds : τ → Prop)
    (history : History origin log current)
    (kept : ∀ query tracker, holds tracker → holds (Query.pose query tracker).2)
    (initially : holds origin.1) :
    holds current.1 ∧ ∀ entry ∈ log, ∃ tracker, holds tracker ∧
      entry.answer = (entry.query.pose tracker).1 := by
  induction history with
  | start => exact ⟨initially, by simp⟩
  | @pose log tracker companion query earlier ih =>
      refine ⟨kept query _ ih.1, fun entry member => ?_⟩
      rcases List.mem_cons.mp member with rfl | before
      · exact ⟨tracker, ih.1, rfl⟩
      · exact ih.2 entry before

/-- The answers of a companion are answers that some companion gives. -/
theorem History.echoes {origin current : τ × ρ} {log : List Entry}
    (history : History origin log current) :
    ∀ entry ∈ log, ∃ companion : ρ, entry.echo = (entry.query.pose companion).1 := by
  induction history with
  | start => simp
  | @pose log tracker companion query earlier ih =>
      exact List.forall_mem_cons.mpr ⟨⟨companion, rfl⟩, ih⟩

/-! ## Refusals that are accounted for -/

/-- A request for the table that a dictionary is to be rebuilt in. -/
def Query.IsRebuild (query : Query) : Prop :=
  ∃ size ∈ Table.sizes, query = .build (size * Table.slotBytes)

/-- Nothing was refused. -/
def Entry.Granted (entry : Entry) : Prop :=
  entry.answer = none

/-- Nothing was refused, or only that a dictionary is rebuilt. -/
def Entry.Quiet (entry : Entry) : Prop :=
  entry.Granted ∨ entry.query.IsRebuild

/-- Nothing was refused, or only an object that something can do without. -/
def Entry.Minor (entry : Entry) : Prop :=
  entry.Granted ∨ ∃ size, entry.query = .allocate size

/-- How far an operation has come. -/
inductive Fate where
  /-- It goes on. -/
  | fine
  /-- It fails with a cause that is not recorded yet. -/
  | failing (cause : Cause)
  /-- It fails with an error that was recorded. -/
  | recorded

/-- What may be among the entries that an operation made: a refusal is what makes it
fail, or it is one that a dictionary gets along with.  Nothing is said of an operation
whose failure was recorded. -/
def Fate.Admits (fate : Fate) (entry : Entry) : Prop :=
  match fate with
  | .fine => entry.Quiet
  | .failing cause => entry.Quiet ∨ ∃ refusal, entry.answer = some refusal ∧
      cause = .refused refusal
  | .recorded => True

theorem Entry.Quiet.admitted {entry : Entry} (quiet : entry.Quiet) (fate : Fate) :
    fate.Admits entry := by
  cases fate with
  | fine => exact quiet
  | failing cause => exact Or.inl quiet
  | recorded => trivial

/-- The entries since some point are such as a fate admits. -/
def Fate.Accounts (fate : Fate) (since log : List Entry) : Prop :=
  ∃ recent, log = recent ++ since ∧ ∀ entry ∈ recent, fate.Admits entry

theorem Fate.Accounts.refl (fate : Fate) (log : List Entry) : fate.Accounts log log :=
  ⟨[], rfl, by simp⟩

/-- While all goes well, anything may still go wrong. -/
theorem Fate.Accounts.admitted {since log : List Entry} (accounts : Fate.fine.Accounts since log)
    (fate : Fate) : fate.Accounts since log := by
  obtain ⟨recent, extended, known⟩ := accounts
  exact ⟨recent, extended, fun entry member => (known entry member).admitted fate⟩

theorem Fate.Accounts.cons {fate : Fate} {since log : List Entry} {entry : Entry}
    (accounts : fate.Accounts since log) (admitted : fate.Admits entry) :
    fate.Accounts since (entry :: log) := by
  obtain ⟨recent, rfl, known⟩ := accounts
  refine ⟨entry :: recent, rfl, fun other member => ?_⟩
  rcases List.mem_cons.mp member with rfl | earlier
  · exact admitted
  · exact known other earlier

end StackMachine

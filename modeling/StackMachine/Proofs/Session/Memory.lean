import StackMachine.Proofs.Session.Limits
import StackMachine.Proofs.Tracking.Memory

/-!
# The memory in use in every state that is attained

As long as nothing is resized, a meter shows the bytes of the objects that have been made since
the machine was started.  A container that grows is not counted for it, and is taken off as large
as it is when it is freed, so a meter may show too little.  By how much is bounded by its
allocations.
-/

namespace StackMachine

open Store Session

/-- What a meter shows of the memory in use. -/
structure MemoryHolds (limits : Limits) (elapsed : Duration) (store : Store Meter) : Prop where
  /-- It shows the bytes of the objects that have been made, if none was resized. -/
  exact : Unresized (initial (Meter.start limits elapsed)) store →
    store.madeBytes = store.tracker.memory
  /-- There are no more bytes than it shows, but for the entries it has agreed to, -/
  bounded : store.madeBytes ≤ store.tracker.memory + Table.entryBytes * store.tracker.allocations
  /-- so that they are limited where both the memory and the allocations are. -/
  limited : ∀ bytes ∈ limits.memory, ∀ count ∈ limits.allocations,
    store.madeBytes ≤ bytes + Table.entryBytes * count

namespace Session

variable {limits : Limits} {elapsed : Duration} {session : Session Meter} {lost : List Ref}
variable {log : List Event}

theorem Attained.memory_holds (attained : session.Attained (Meter.start limits elapsed) lost log) :
    MemoryHolds limits elapsed session.machine.store := by
  obtain ⟨held, ready, -⟩ := attained.ready
  have bounded := attained.roams.path.madeBytes_le ready.sound
  have started := initial_sound (Meter.start limits elapsed)
  refine ⟨fun unresized => ?_, bounded, fun bytes memory count allocations => ?_⟩
  · exact unresized.tallies started.exact.vacancies started.hasOriginals rfl
  · have obeys := attained.obeys.meter
    have shown := obeys.memory_le bytes memory
    have agreed := Nat.mul_le_mul_left Table.entryBytes (obeys.allocations_le count allocations)
    omega

/-- A string was made, and nothing else has happened. -/
theorem memory_holds_string :
    let limits : Limits := ⟨none, some 1, none, some 75, none⟩
    let made := (Session.start (Meter.start limits ⟨0, 0⟩) .off).next 0 (.string "a" "abc")
    made.machine.store.madeBytes = 75 ∧ made.machine.store.tracker.memory = 75 ∧
      Unresized (initial (Meter.start limits ⟨0, 0⟩)) made.machine.store ∧
        MemoryHolds limits ⟨0, 0⟩ made.machine.store := by
  intro limits made
  obtain ⟨_, logged⟩ : ∃ events, made.Logged (Meter.start limits ⟨0, 0⟩) [] events :=
    (Logged.start .off).next (by decide +kernel)
  have attained := Attained.rest logged
  obtain ⟨held, ready, -⟩ := attained.ready
  have placed : made.machine.store = (((initial (Meter.start limits ⟨0, 0⟩)).asking
      (.allocate 75)).place (.string #[97, 98, 99])).2 := by
    decide +kernel
  have unresized : Unresized (initial (Meter.start limits ⟨0, 0⟩)) made.machine.store := by
    refine Relation.ReflTransGen.single ⟨?_, ?_, ready.sound.hasOriginals⟩
    · rw [placed]
      exact .make (.string #[97, 98, 99]) trivial (by decide)
    · rw [placed]
      exact keepsSizes_make (initial_sound _).exact.vacancies (.string #[97, 98, 99])
  have holds := attained.memory_holds
  exact ⟨(holds.exact unresized).trans (by decide +kernel), by decide +kernel, unresized, holds⟩

/-- A list takes eight bytes more than are counted once an item was appended to it.  When it is
freed, eight bytes too many are taken off, and the same objects as before are counted with less. -/
theorem memory_falls_short :
    let limits : Limits := ⟨none, none, none, some 242, none⟩
    let text := (Session.start (Meter.start limits ⟨0, 0⟩) .off).next 0
      (.string "a" "abcdefghijklmnopqrstuvwxyz")
    let items := (text.next 0 (.list "l" [])).next 0 (.int "x" 7)
    let grown := items.next 0 (.listAppend "l" "x")
    let released := grown.next 0 (.release "l")
    (∃ lost log, grown.Attained (Meter.start limits ⟨0, 0⟩) lost log) ∧
      (∃ lost log, released.Attained (Meter.start limits ⟨0, 0⟩) lost log) ∧
        grown.machine.store.madeBytes = 250 ∧ grown.machine.store.tracker.memory = 242 ∧
          released.machine.store.madeBytes = 98 ∧ released.machine.store.tracker.memory = 90 ∧
            text.machine.store.madeBytes = 98 ∧ text.machine.store.tracker.memory = 98 := by
  intro limits text items grown released
  have start : (Session.start (Meter.start limits ⟨0, 0⟩) .off).Logged
      (Meter.start limits ⟨0, 0⟩) [] [] := .start .off
  obtain ⟨_, _, made⟩ :=
    start.replied (.string "a" "abcdefghijklmnopqrstuvwxyz") (by decide +kernel)
  obtain ⟨_, _, empty⟩ := made.replied (.list "l" []) (by decide +kernel)
  obtain ⟨_, _, item⟩ := empty.replied (.int "x" 7) (by decide +kernel)
  obtain ⟨_, _, larger⟩ := item.replied (.listAppend "l" "x") (by decide +kernel)
  obtain ⟨_, _, freed⟩ := larger.replied (.release "l") (by decide +kernel)
  refine ⟨⟨_, _, .rest larger⟩, ⟨_, _, .rest freed⟩, ?_⟩
  decide +kernel

end Session

end StackMachine

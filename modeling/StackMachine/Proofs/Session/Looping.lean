import StackMachine.Proofs.Machine.Looping
import StackMachine.Proofs.Session.Attained

/-!
# What a loop does at each of its steps

The index is made by the loop itself, step by step, so whoever knows how many steps there were knows
which element comes next, whatever the body of the loop did to the sequence in between.
-/

namespace StackMachine.MachineM

open Store Outcome Machine

variable {τ : Type} [Tracker τ] {run : MachineM τ Ref} {machine : Machine τ} {sequence : Ref}
variable {stages : List (LoopStage τ)} {site : LoopSite} {kind : Kind} {elements : List Element}

/-- The step after `stages` finds what is at that position of the sequence by then, as each of
`stages` did.  Thus a sequence that is never changed is gone through from its first element to its
last one, and then the loop is over.  The step fails only where the instruction is refused, or an
object that it asks for. -/
theorem loops_iterate (looping : Looping run sequence stages site machine)
    (known : machine.store.SequenceAt sequence kind elements) :
    ((∃ after, step run machine = .ok .next after ∧
        site.Stepped sequence kind elements stages.length machine after) ∨
      ∃ refusal after, step run machine = .error (.failed (.raised (.refused refusal))) after ∧
        ((Tracker.tick machine.store.tracker).1 = some refusal ∨
          Denies machine.store.tracker refusal after.store.tracker)) ∧
    (∀ position (stage : LoopStage τ), stages[position]? = some stage → ∀ kind elements,
      stage.before.store.SequenceAt sequence kind elements → ∃ element following,
        elements[position]? = some element ∧ stage.site.Continued sequence kind elements position
          element stage.item following stage.after) ∧
    ((∀ stage ∈ stages, stage.before.store.SequenceAt sequence kind elements) →
      stages.length ≤ elements.length ∧
        List.Forall₂ (fun stage element => stage.after.store.ElementAt stage.item element) stages
          (elements.take stages.length)) := by
  obtain ⟨value, found, natural⟩ := looping.counts
  refine ⟨step_forLoop run looping.ready found natural known, ?_, looping.unmodified⟩
  intro position stage taken kind elements known
  exact looping.past taken known

/-- A string of one byte is gone through.  The code takes the first index from its constants. -/
theorem loops_iterate_once :
    let loaded := (Session.start Unlimited.mk .off).next 0
      (.loadCode "code" ⟨"main", #[100, 0, 0, 114, 4, 0, 1, 113, 3, 0], [.int 0], []⟩)
    let named := loaded.next 0 (.dict "names")
    let given := named.next 0 (.string "argument" "a")
    let entered := given.next 0 (.evaluate "result" "code" "names" "names" (some "argument"))
    let machine := entered.machine.next
    let later := machine.next.next.next
    ∃ site following : LoopSite,
      Looping (runFrame 0) ⟨22⟩ [⟨site, machine, ⟨24⟩, machine.next⟩] following later ∧
      machine.store.SequenceAt ⟨22⟩ .string [.byte 97] ∧
      later.store.SequenceAt ⟨22⟩ .string [.byte 97] ∧
      machine.next.store.ElementAt ⟨24⟩ (.byte 97) ∧
      step (runFrame 0) later = .ok .next later.next ∧
      Stands later.next { following.activation with offset := 10 } [] [] [] := by
  intro loaded named given entered machine later
  obtain ⟨_, logged⟩ : ∃ events, loaded.Logged Unlimited.mk [] events :=
    (Session.Logged.start .off).next (by decide +kernel)
  obtain ⟨_, logged⟩ : ∃ events, named.Logged Unlimited.mk [] events :=
    ⟨_, (logged.next (by decide +kernel)).choose_spec⟩
  obtain ⟨_, logged⟩ : ∃ events, given.Logged Unlimited.mk [] events :=
    ⟨_, (logged.next (by decide +kernel)).choose_spec⟩
  obtain ⟨held, working⟩ := logged.works
    (show given.enters (.evaluate "result" "code" "names" "names" (some "argument")) = true by
      decide +kernel)
  have start : machine.Working [] [] held := working.next (by decide +kernel)
  have final : later.Working [] [] held :=
    ((start.next (by decide +kernel)).next (by decide +kernel)).next (by decide +kernel)
  -- Where the loop stands, before each of its two steps.
  have stands : ∀ {current : Machine Unlimited} {index : Ref}, current.Working [] [] held →
      current.values.items = [index, ⟨22⟩] →
      current.frames.items.map (fun frame => Fetched.read frame.bytecode frame.offset) =
        [.instruction .forLoop 4 6] →
      current.store.payload? ⟨22⟩ = some (.string #[97]) →
      ∃ activation, LoopSite.Ready ⟨activation, [], index, [], [], 4, 6⟩ ⟨22⟩ current := by
    intro current index working values reads found
    obtain ⟨activation, within⟩ := working.within
    rw [within.frames, List.map_singleton, List.singleton_inj] at reads
    exact ⟨activation, ⟨held, within.ready⟩, ⟨within.frames, values, within.base⟩, reads, .string,
      _, .string _ found, by decide⟩
  have known : machine.store.payload? ⟨22⟩ = some (.string #[97]) := by decide +kernel
  have same : later.store.payload? ⟨22⟩ = some (.string #[97]) := by decide +kernel
  obtain ⟨first, ready⟩ : ∃ activation,
      LoopSite.Ready ⟨activation, [], ⟨19⟩, [], [], 4, 6⟩ ⟨22⟩ machine :=
    stands start (by decide +kernel) (by decide +kernel) known
  obtain ⟨second, again⟩ : ∃ activation,
      LoopSite.Ready ⟨activation, [], ⟨25⟩, [], [], 4, 6⟩ ⟨22⟩ later :=
    stands final (by decide +kernel) (by decide +kernel) same
  have zero : machine.store.payload? ⟨19⟩ = some (.int 0) := by decide +kernel
  have pushed : machine.next.values.items = [⟨24⟩, ⟨25⟩, ⟨22⟩] := by decide +kernel
  have went : step (runFrame 0) machine = .ok .next machine.next :=
    step_of_goesOn (by decide +kernel)
  have goes : step (runFrame 0) later = .ok .next later.next := step_of_goesOn (by decide +kernel)
  -- The body does nothing but free the item.
  have body : Sparing [⟨25⟩, ⟨22⟩] machine.next.store later.store := by
    have item : machine.next.store.cell? ⟨24⟩ = some ⟨1, some (.string #[97])⟩ := by decide +kernel
    have freed : later.store = machine.next.store.vacate ⟨24⟩ (some (.string #[97])) := by
      decide +kernel
    have index : later.store.payload? ⟨25⟩ = some (.int 1) := by decide +kernel
    refine Relation.ReflTransGen.single ⟨?_, ?_⟩
    · rw [freed]
      exact .tidy (.vacate item (by decide))
    · simp [index, same]
  clear_value later machine
  have looping := Looping.again (.start ready zero) went pushed body again
  obtain ⟨present, -, past⟩ := loops_iterate looping (.string _ same)
  obtain ⟨-, items⟩ := past fun stage member => by
    obtain rfl := List.mem_singleton.mp member
    exact .string _ known
  obtain ⟨after, ran, stepped⟩ := present.resolve_right fun ⟨refusal, _, _, refused⟩ =>
    refused.elim (by simp [Tracker.tick]) not_denies_unlimited
  obtain rfl := (EStateM.Result.ok.inj (goes.symm.trans ran)).2
  cases items with
  | cons left rest =>
      exact ⟨_, _, looping, .string _ known, .string _ same, left, goes, stepped.outcome⟩

end StackMachine.MachineM

import StackMachine.Proofs.Session.Attained
import StackMachine.Proofs.Store.Ranges

/-!
# Ranges, in every state that is attained

Whatever was run before, the range of two ends and a step is the list of all integers that are
before its end, each of them as it is on paper.
-/

namespace StackMachine.Session

open Store StoreM

/-- The length counts the positions before the end.  A reference to the tuple is taken, and it is
given to the function. -/
theorem ranges_exact {low high step : Int64} (nonzero : step ≠ 0) :
    {position | InRange low.toInt high.toInt step.toInt position}.encard =
        rangeLength low.toInt high.toInt step.toInt ∧
      ∀ {τ : Type} [Tracker τ] {initial : τ} {session : Session τ} {lost : List Ref}
        {log : List Event} {argument first second third : Ref},
        session.Attained initial lost log →
        session.machine.store.payload? argument = some (.tuple #[first, second, third]) →
        session.machine.store.payload? first = some (.int low) →
        session.machine.store.payload? second = some (.int high) →
        session.machine.store.payload? third = some (.int step) →
        Granted session.machine.store.tracker
          ((acquire argument >>= fun argument => callRange (some argument)) session.machine.store)
          fun list after => ∃ items, after.payload? list = some (.list items) ∧
            items.size = rangeLength low.toInt high.toInt step.toInt ∧
            ∀ position item, items[position]? = some item →
              ∃ value, after.payload? item = some (.int value) ∧
                value.toInt = rangeItem low.toInt step.toInt position := by
  constructor
  · exact encard_inRange nonzero
  · intro τ _ initial session lost log argument first second third attained found lowFound
      highFound stepFound
    obtain ⟨held, ready, -⟩ := attained.ready
    have usable : session.machine.store.Usable argument :=
      (SequenceAt.tuple _ found).usable ready.sound
    obtain ⟨middle, acquired, grown⟩ := acquire_grows ready.sound usable
    rw [bind_ok acquired]
    apply Granted.of_asked grown.asked
    apply (callRange_granted grown.sound (grown.retains _ _ found) (grown.retains _ _ lowFound)
      (grown.retains _ _ highFound) (grown.retains _ _ stepFound) nonzero).imp
    intro list after ⟨items, present, size, progression⟩
    refine ⟨items, present, size, fun position item here => progression position item ?_⟩
    rwa [Array.getElem?_toList]

/-- A range that ends at the largest integer.  After its second item the addition wraps around. -/
theorem ranges_exact_last :
    let lowGiven := (Session.start Unlimited.mk .off).next 0 (.int "low" 9223372036854775800)
    let highGiven := lowGiven.next 0 (.int "high" 9223372036854775807)
    let stepGiven := highGiven.next 0 (.int "step" 5)
    let session := stepGiven.next 0 (.tuple "bounds" ["low", "high", "step"])
    (∃ lost events, session.Attained Unlimited.mk lost events) ∧
      {position | InRange 9223372036854775800 9223372036854775807 5 position}.encard = 2 ∧
      ∃ list after items,
        (acquire ⟨22⟩ >>= fun argument => callRange (some argument)) session.machine.store =
          .ok list after ∧
        after.payload? list = some (.list items) ∧ items.size = 2 ∧
        ∀ position item, items[position]? = some item →
          ∃ value, after.payload? item = some (.int value) ∧
            value.toInt = rangeItem 9223372036854775800 5 position := by
  intro lowGiven highGiven stepGiven session
  have replied : lowGiven.replies 0 (.int "high" 9223372036854775807) ∧
      highGiven.replies 0 (.int "step" 5) ∧
      stepGiven.replies 0 (.tuple "bounds" ["low", "high", "step"]) := by decide +kernel
  obtain ⟨lost, events, attained⟩ : ∃ lost events, session.Attained Unlimited.mk lost events := by
    obtain ⟨_, logged⟩ : ∃ events, lowGiven.Logged Unlimited.mk [] events :=
      (Logged.start .off).next (by decide +kernel)
    obtain ⟨_, logged⟩ := logged.next replied.1
    obtain ⟨_, logged⟩ := logged.next replied.2.1
    obtain ⟨_, logged⟩ := logged.next replied.2.2
    exact ⟨_, _, .rest logged⟩
  have facts : [22, 19, 20, 21].map (fun index => session.machine.store.payload? ⟨index⟩) =
      [some (.tuple #[⟨19⟩, ⟨20⟩, ⟨21⟩]), some (.int 9223372036854775800),
        some (.int 9223372036854775807), some (.int 5)] := by decide +kernel
  simp only [List.map_cons, List.map_nil, List.cons.injEq, and_true] at facts
  obtain ⟨bounds, lowFound, highFound, stepFound⟩ := facts
  obtain ⟨count, exact⟩ :=
    @ranges_exact 9223372036854775800 9223372036854775807 5 (by decide)
  obtain ⟨list, after, ran, items, present, size, progression⟩ :=
    (exact attained bounds lowFound highFound stepFound).returned fun _ _ => not_denies_unlimited
  have length : rangeLength (9223372036854775800 : Int64).toInt (9223372036854775807 : Int64).toInt
      (5 : Int64).toInt = 2 := by decide
  rw [length] at count size
  exact ⟨⟨lost, events, attained⟩, count, list, after, items, ran, present, size, progression⟩

end StackMachine.Session

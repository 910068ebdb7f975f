import StackMachine.Proofs.Session.Attained
import StackMachine.Proofs.Store.Releasing
import StackMachine.Proofs.Store.Sequences

/-!
# Parts of sequences, in every state that is attained

Whatever was run before, a slice of a sequence has the elements between its bounds, and a sequence
that is cut in two can be put together again.
-/

namespace StackMachine.Session

open Store StoreM

variable {τ : Type} [Tracker τ] {initial : τ} {session : Session τ} {lost : List Ref}
variable {log : List Event} {sequence : Ref} {kind : Kind} {elements : List Element}

/-- No sequence in memory is longer than `sized` says.
Strings and tuples are shared exactly if a slice has all of them, lists never are, and nothing
that was there is changed. -/
theorem slices_select (attained : session.Attained initial lost log)
    (known : session.machine.store.SequenceAt sequence kind elements)
    (sized : elements.length ≤ Int64.maxValue.toInt) (low high : Option Int64) (cut : Int64) :
    let store := session.machine.store
    Granted store.tracker (slice sequence low high store) (fun part after =>
        after.SequenceAt part kind (selected low high elements) ∧ store.Retains after ∧
          if kind = .list then store.isLive part = false
          else (part = sequence ↔ selected low high elements = elements)) ∧
      Granted store.tracker
        ((do
          let front ← slice sequence none (some cut)
          let back ← slice sequence (some cut) none
          concat front back : StoreM τ Ref) store)
        (fun whole after => after.SequenceAt whole kind elements ∧ store.Retains after) := by
  intro store
  obtain ⟨held, ready, -⟩ := attained.ready
  have sound := ready.sound
  constructor
  · apply (slice_granted sound known sized low high).imp
    rintro part after ⟨grown, selection, shared⟩
    refine ⟨selection, grown.retains, ?_⟩
    split
    · rename_i list
      rw [if_pos list] at shared
      cases live : store.isLive part with
      | false => rfl
      | true =>
          obtain ⟨_, found⟩ := isLive_iff.mp live
          obtain ⟨_, present⟩ := sound.payload_of_live found
          rw [shared] at present
          cases present
    · rename_i other
      rwa [if_neg other] at shared
  · apply (rejoin_granted sound known sized cut).imp
    intro whole after ⟨retained, wholeAt⟩
    exact ⟨wholeAt, retained⟩

/-- The last item of a list of three, and the list cut before its start. -/
theorem slices_select_last :
    let item := (Session.start Unlimited.mk .off).next 0 (.int "item" 7)
    let again := item.next 0 (.acquire "again" "item")
    let other := again.next 0 (.none "other")
    let session := other.next 0 (.list "list" ["item", "again", "other"])
    let store := session.machine.store
    let elements := [.item ⟨19⟩, .item ⟨19⟩, .item .noneObject]
    (∃ lost events, session.Attained Unlimited.mk lost events) ∧
      store.SequenceAt ⟨20⟩ .list elements ∧
      (∃ part after, slice ⟨20⟩ (some (-1)) (some Int64.maxValue) store = .ok part after ∧
        after.SequenceAt part .list [.item .noneObject] ∧ store.isLive part = false) ∧
      ∃ whole after, (do
          let front ← slice ⟨20⟩ none (some Int64.minValue)
          let back ← slice ⟨20⟩ (some Int64.minValue) none
          concat front back : StoreM Unlimited Ref) store = .ok whole after ∧
        after.SequenceAt whole .list elements := by
  intro item again other session store elements
  have replied : item.replies 0 (.acquire "again" "item") ∧ again.replies 0 (.none "other") ∧
      other.replies 0 (.list "list" ["item", "again", "other"]) := by decide +kernel
  obtain ⟨lost, events, attained⟩ : ∃ lost events, session.Attained Unlimited.mk lost events := by
    obtain ⟨_, logged⟩ : ∃ events, item.Logged Unlimited.mk [] events :=
      (Logged.start .off).next (by decide +kernel)
    obtain ⟨_, logged⟩ := logged.next replied.1
    obtain ⟨_, logged⟩ := logged.next replied.2.1
    obtain ⟨_, logged⟩ := logged.next replied.2.2
    exact ⟨_, _, .rest logged⟩
  have found : store.payload? ⟨20⟩ = some (.list #[⟨19⟩, ⟨19⟩, .noneObject]) := by decide +kernel
  have known : store.SequenceAt ⟨20⟩ .list elements := .list _ found
  obtain ⟨sliced, joined⟩ :=
    slices_select attained known (by decide) (some (-1)) (some Int64.maxValue) Int64.minValue
  have last : selected (some (-1)) (some Int64.maxValue) elements = [.item .noneObject] := by decide
  obtain ⟨part, after, ran, content, -, fresh⟩ := sliced.returned fun _ _ => not_denies_unlimited
  obtain ⟨whole, final, ran', content', -⟩ := joined.returned fun _ _ => not_denies_unlimited
  rw [last] at content
  exact ⟨⟨lost, events, attained⟩, known, ⟨part, after, ran, content, fresh⟩,
    ⟨whole, final, ran', content'⟩⟩

end StackMachine.Session

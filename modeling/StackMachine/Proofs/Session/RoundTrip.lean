import StackMachine.Proofs.Session.Attained
import StackMachine.Proofs.Store.RoundTrip

/-!
# Plain data, in every state that is attained

Whatever was run before, plain data can be put into the store while nobody refuses, and what is
shown of it is the same data.
-/

namespace StackMachine.Session

open Store StoreM Outcome

variable {session : Session Unlimited} {lost : List Ref} {log : List Event} {initial : Unlimited}
variable {object : Object}

/-- The result is plain data again, so that nothing in it is shown by its slot. -/
theorem data_round_trips (attained : session.Attained initial lost log) (plain : object.Plain 0) :
    ∃ ref after shown, ofObject object session.machine.store = .ok ref after ∧
      after.toObject ref = .ok shown ∧ object.Same shown ∧ shown.Plain 0 := by
  obtain ⟨held, ready, -⟩ := attained.ready
  have sound := ready.sound
  have hosts : session.machine.store.Hosts _ :=
    ⟨sound.exact, List.mem_append_left _ (by decide),
      sound.originals .noneObject (by decide) (by decide)⟩
  obtain ⟨ref, after, shown, ran, -, told, same⟩ := hosts.round_trip plain
  exact ⟨ref, after, shown, ran, told, same, plain.of_same same⟩

/-- A dictionary in which a key comes twice, with a list and a pair. -/
theorem data_round_trips_nested :
    let session := (Session.start Unlimited.mk .off).next 0 (.dict "names")
    let object : Object := .dict [("a", .int 1), ("b", .list [.float .nan, .dict []]),
      ("a", .tuple [.string "x", .none])]
    (∃ events, session.Attained Unlimited.mk [] events) ∧ object.Plain 0 ∧
      ∃ ref after shown, ofObject object session.machine.store = .ok ref after ∧
        after.toObject ref = .ok shown ∧ object.Same shown ∧ shown.Plain 0 := by
  intro session object
  obtain ⟨events, logged⟩ : ∃ events, session.Logged Unlimited.mk [] events :=
    (Logged.start .off).next (by decide +kernel)
  have attained : session.Attained Unlimited.mk [] events := .rest logged
  have searchable : ∀ key ∈ ["a", "b", "a"], Table.Searchable (Bytes.ofString key) := by
    simp only [Table.searchable_iff, Table.HashesToOnes]
    decide +kernel
  have items : ∀ item ∈ [Object.float .nan, .dict []], item.Plain 2 := by
    simp only [List.forall_mem_cons, List.not_mem_nil, false_imp_iff, implies_true, and_true]
    exact ⟨.float .nan, .dict (by decide) (by decide) (by simp) (by simp)⟩
  have pair : ∀ item ∈ [Object.string "x", .none], item.Plain 2 := by
    simp only [List.forall_mem_cons, List.not_mem_nil, false_imp_iff, implies_true, and_true]
    exact ⟨.string "x", .none⟩
  have plain : object.Plain 0 := by
    refine .dict (by decide) (by decide) searchable ?_
    simp only [List.forall_mem_cons, List.not_mem_nil, false_imp_iff, implies_true, and_true]
    exact ⟨.int 1, .list (by decide) items, .tuple (by decide) pair⟩
  exact ⟨⟨events, attained⟩, plain, data_round_trips attained plain⟩

end StackMachine.Session

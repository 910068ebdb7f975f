import StackMachine.Proofs.Session.Attained
import StackMachine.Proofs.Store.Equality

/-!
# Equality and values, in every state that is attained

Whatever was run before, two objects of plain data can be compared, and they are equal exactly if
a host that asks for their values is given the same value twice.
-/

namespace StackMachine.Session

open Store

variable {τ : Type} [Tracker τ] {initial : τ} {session : Session τ} {lost : List Ref}
variable {log : List Event} {left right : Ref}

/-- Objects from which only data is reached, at most as deep as comparisons and conversions go,
are equal exactly if they have the same value. -/
theorem equality_agrees (attained : session.Attained initial lost log)
    (live : session.machine.store.isLive left) (live' : session.machine.store.isLive right)
    (data : session.machine.store.DataUpTo maxDepth left)
    (data' : session.machine.store.DataUpTo maxDepth right) :
    ∃ ordering first second, session.machine.store.compareRefs left right = .ok ordering ∧
      session.machine.store.toObject left = .ok first ∧
      session.machine.store.toObject right = .ok second ∧ (ordering = .eq ↔ first = second) := by
  obtain ⟨held, ready, -⟩ := attained.ready
  have sound := ready.sound
  obtain ⟨_, found⟩ := isLive_iff.mp live
  obtain ⟨_, found'⟩ := isLive_iff.mp live'
  obtain ⟨ordering, first, second, answer, shown, shown', agreed⟩ :=
    data.agrees sound.closed sound.lone_none data' (sound.payload_of_live found)
      (sound.payload_of_live found')
  exact ⟨ordering, first, second, answer, shown.toObject, shown'.toObject, agreed⟩

/-- Two lists that share a string.  One has it twice, the other has it once, and then another
string with the same text. -/
theorem equality_agrees_shared :
    let text := (Session.start Unlimited.mk .off).next 0 (.string "text" "é")
    let other := text.next 0 (.string "other" "é")
    let again := other.next 0 (.acquire "again" "text")
    let shared := again.next 0 (.acquire "shared" "text")
    let twice := shared.next 0 (.list "twice" ["text", "again"])
    let session := twice.next 0 (.list "both" ["shared", "other"])
    let store := session.machine.store
    (∃ lost events, session.Attained Unlimited.mk lost events) ∧ store.isLive ⟨21⟩ ∧
      store.isLive ⟨22⟩ ∧ store.DataUpTo maxDepth ⟨21⟩ ∧ store.DataUpTo maxDepth ⟨22⟩ ∧
      ∃ ordering first second, store.compareRefs ⟨21⟩ ⟨22⟩ = .ok ordering ∧
        store.toObject ⟨21⟩ = .ok first ∧ store.toObject ⟨22⟩ = .ok second ∧
        (ordering = .eq ↔ first = second) := by
  intro text other again shared twice session store
  have replied : text.replies 0 (.string "other" "é") ∧ other.replies 0 (.acquire "again" "text") ∧
      again.replies 0 (.acquire "shared" "text") ∧
      shared.replies 0 (.list "twice" ["text", "again"]) ∧
      twice.replies 0 (.list "both" ["shared", "other"]) := by decide +kernel
  obtain ⟨lost, events, attained⟩ : ∃ lost events, session.Attained Unlimited.mk lost events := by
    obtain ⟨_, logged⟩ : ∃ events, text.Logged Unlimited.mk [] events :=
      (Logged.start .off).next (by decide +kernel)
    obtain ⟨_, logged⟩ := logged.next replied.1
    obtain ⟨_, logged⟩ := logged.next replied.2.1
    obtain ⟨_, logged⟩ := logged.next replied.2.2.1
    obtain ⟨_, logged⟩ := logged.next replied.2.2.2.1
    obtain ⟨_, logged⟩ := logged.next replied.2.2.2.2
    exact ⟨_, _, .rest logged⟩
  have facts : [19, 20, 21, 22].map (fun index => store.payload? ⟨index⟩) =
      [some (.string (Bytes.ofString "é")), some (.string (Bytes.ofString "é")),
        some (.list #[⟨19⟩, ⟨19⟩]), some (.list #[⟨19⟩, ⟨20⟩])] := by decide +kernel
  simp only [List.map_cons, List.map_nil, List.cons.injEq, and_true] at facts
  obtain ⟨once, copy, first, second⟩ := facts
  have data : store.DataUpTo maxDepth ⟨21⟩ := by
    apply DataUpTo.of_children first (.list _)
    intro child member
    have child_eq : child = ⟨19⟩ := by simpa [Payload.children] using member
    exact child_eq ▸ .of_childless once (.string "é") rfl _
  have data' : store.DataUpTo maxDepth ⟨22⟩ := by
    apply DataUpTo.of_children second (.list _)
    intro child member
    have either : child = ⟨19⟩ ∨ child = ⟨20⟩ := by simpa [Payload.children] using member
    cases either with
    | inl shared => exact shared ▸ .of_childless once (.string "é") rfl _
    | inr own => exact own ▸ .of_childless copy (.string "é") rfl _
  have live : store.isLive ⟨21⟩ ∧ store.isLive ⟨22⟩ := by decide +kernel
  exact ⟨⟨lost, events, attained⟩, live.1, live.2, data, data',
    equality_agrees attained live.1 live.2 data data'⟩

end StackMachine.Session

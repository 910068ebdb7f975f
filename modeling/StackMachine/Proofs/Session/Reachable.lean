import StackMachine.Proofs.Session.Requests

/-!
# Sessions that a host can get to

Whatever a host asks of a machine, and whatever the tracker refuses on the way, every
count in the store is the number of references to the object, and every request is
replied to: the machine never breaks a promise to itself.
-/

namespace StackMachine

variable {τ : Type}

namespace Session

open Store Outcome Machine SessionM

variable {session after : Session τ} {lost held : List Ref}

/-- The references that are owned outside the objects of the store: by the machine
itself, with one for each of its roots, by its values, its frames, its error and its
traceback, by the registers of the host, and by the host that has lost them. -/
def owners (session : Session τ) (lost : List Ref) : List Ref :=
  roots ++ session.machine.values.items ++ session.machine.frames.items.map (·.frame) ++
    session.machine.errorRefs ++ session.machine.traceback.toList ++ session.refs ++ lost

variable [Tracker τ]

/-- A session that a host can get to, with the references that it has lost on the way.
The host may exchange the tracer between two requests. -/
inductive Reachable : Session τ → List Ref → Prop where
  | start (tracker : τ) (tracer : Tracer) : Reachable (Session.start tracker tracer) []
  | reply {session after : Session τ} {lost : List Ref} (fuel : Nat) (request : Request)
      (answer : Reply τ) (reached : Reachable session lost)
      (replied : SessionM.reply fuel request session = .ok answer after) :
      Reachable after (session.loses request.empties ++ lost)
  | retraced {session : Session τ} {lost : List Ref} (tracer : Tracer)
      (reached : Reachable session lost) :
      Reachable { session with machine := { session.machine with tracer } } lost

omit [Tracker τ] in
theorem start_holds (tracker : τ) (tracer : Tracer) : (Session.start tracker tracer).Holds [] where
  idle := idle_start tracker tracer
  names := List.nodup_nil

/-- What is known of a request holds of the reply to it. -/
theorem reply_ends {fuel : Nat} {request : Request} {replies : Reply τ → Session τ → Prop}
    (ends : Ends ((perform fuel request).run session)
      (fun told => replies (asReply told)) fun _ _ => False) :
    Ends (SessionM.reply fuel request session) replies fun _ _ => False := by
  refine Ends.bind ends fun told after known => ?_
  cases told <;> exact known

theorem reply_holds (fuel : Nat) (request : Request) (holds : session.Holds held) :
    Ends (SessionM.reply fuel request session)
      (fun _ after => after.Holds (session.loses request.empties ++ held) ∧
        session.Spares request.touches held after) fun _ _ => False :=
  reply_ends (perform_ends fuel request holds)

theorem Reachable.holds (reached : session.Reachable lost) : session.Holds lost := by
  induction reached with
  | start tracker tracer => exact start_holds tracker tracer
  | reply fuel request answer reached replied ih =>
      exact ((reply_holds fuel request ih).of_ok replied).1
  | retraced tracer reached ih =>
      exact ⟨⟨ih.idle.ready.withTracer tracer, ih.idle.frames, ih.idle.values⟩, ih.names⟩

omit [Tracker τ] in
theorem Holds.exact (holds : session.Holds lost) :
    session.machine.store.Exact (session.owners lost) := by
  refine holds.sound.exact.perm ?_
  rw [List.perm_iff_count]
  intro ref
  simp only [owners, others, Machine.internals, List.count_append]
  omega

/-- The counts of a session are exact: the count of each object is the number of references
to it, which is not zero; no object is on loan; every reference leads to an object; and the
free list has every vacant slot once. -/
structure CountsExact (session : Session τ) (lost : List Ref) : Prop where
  counted : ∀ ref cell, session.machine.store.cell? ref = some cell →
    cell.count = session.machine.store.links.count ref + (session.owners lost).count ref
  positive : ∀ ref cell, session.machine.store.cell? ref = some cell → 0 < cell.count
  present : ∀ ref cell, session.machine.store.cell? ref = some cell → cell.payload.isSome
  live : ∀ ref, ref ∈ session.machine.store.links ∨ ref ∈ session.owners lost →
    ∃ cell, session.machine.store.cell? ref = some cell
  free_nodup : session.machine.store.free.Nodup
  mem_free : ∀ ref, ref ∈ session.machine.store.free ↔
    ref.index < session.machine.store.cells.size ∧ session.machine.store.cell? ref = none

/-- The counts are exact in every session that a host can get to. -/
theorem Reachable.counts_exact (reached : session.Reachable lost) :
    session.CountsExact lost := by
  have exact := reached.holds.exact
  constructor
  case counted =>
    intro ref cell found
    rw [← countAt_eq found, exact.count_eq]
  case positive => exact exact.count_pos
  case present =>
    intro ref cell found
    exact Option.isSome_iff_ne_none.mpr (reached.holds.sound.whole ref cell found)
  case live => exact fun ref owned => exact.live_of_owned owned
  case free_nodup => exact exact.free_nodup
  case mem_free => exact exact.mem_free

/-- The session that a request leaves. -/
def next (fuel : Nat) (request : Request) (session : Session τ) : Session τ :=
  match SessionM.reply fuel request session with
  | .ok _ after => after
  | .error _ after => after

/-- Is the request replied to? -/
def replies (fuel : Nat) (request : Request) (session : Session τ) : Bool :=
  match SessionM.reply fuel request session with
  | .ok _ _ => true
  | .error _ _ => false

theorem Reachable.next {fuel : Nat} {request : Request} (reached : session.Reachable lost)
    (replied : session.replies fuel request = true) :
    (session.next fuel request).Reachable (session.loses request.empties ++ lost) := by
  unfold replies at replied
  unfold Session.next
  cases found : SessionM.reply fuel request session with
  | ok answer after => exact .reply fuel request answer reached found
  | error stop after =>
      rw [found] at replied
      exact absurd replied Bool.false_ne_true

/-- A list that holds itself is left behind by its host. -/
theorem counts_exact_abandoned_cycle :
    let named := (Session.start Unlimited.mk .off).next 0 (.list "list" [])
    let shared := named.next 0 (.acquire "item" "list")
    let tied := shared.next 0 (.listAppend "list" "item")
    let abandoned := tied.next 0 (.release "list")
    abandoned.Reachable [] ∧ abandoned.CountsExact [] := by
  have reached : Reachable (next 0 (.release "list") (next 0 (.listAppend "list" "item")
      (next 0 (.acquire "item" "list") (next 0 (.list "list" [])
        (Session.start Unlimited.mk .off))))) [] :=
    ((((Reachable.start _ _).next (by decide +kernel)).next (by decide +kernel)).next
      (by decide +kernel)).next (by decide +kernel)
  exact ⟨reached, reached.counts_exact⟩

/-- A session keeps the promises of the machine to itself: every request is replied to,
unless it runs on and on, and code that is run yields a result, or an error that is set. -/
structure KeepsPromises (session : Session τ) (fuel : Nat) : Prop where
  replies : ∀ request, (∃ answer after, SessionM.reply fuel request session = .ok answer after) ∨
    ∃ after, SessionM.reply fuel request session = .error .unfinished after
  evaluates : ∀ target code globals locals argument answer after,
    SessionM.reply fuel (.evaluate target code globals locals argument) session =
      .ok answer after → answer.OnRun after.machine.error
  calls : ∀ target callee argument answer after,
    SessionM.reply fuel (.call target callee argument) session = .ok answer after →
      answer.OnRun after.machine.error
  runs : ∀ image answer after, SessionM.reply fuel (.run image) session = .ok answer after →
    (∃ object, answer = .answer (.object object)) ∨ ∃ report, answer = .failed report

/-- No request makes the machine break a promise to itself. -/
theorem Reachable.keeps_promises (reached : session.Reachable lost) (fuel : Nat) :
    session.KeepsPromises fuel := by
  have holds := reached.holds
  constructor
  case replies =>
    intro request
    rcases (reply_holds fuel request holds).answers with ⟨answer, after, replied, -⟩ | endless
    · exact Or.inl ⟨answer, after, replied⟩
    · exact Or.inr endless
  case evaluates =>
    intro target code globals locals argument answer after replied
    have ends : Ends (SessionM.reply fuel _ session)
        (fun answer after => answer.OnRun after.machine.error) fun _ _ => False :=
      reply_ends ((evaluating_ends fuel holds target code globals locals argument).imp
        fun _ _ told => told.2)
    exact ends.of_ok replied
  case calls =>
    intro target callee argument answer after replied
    have ends : Ends (SessionM.reply fuel _ session)
        (fun answer after => answer.OnRun after.machine.error) fun _ _ => False :=
      reply_ends ((calling_ends fuel holds target callee argument).imp fun _ _ told => told.2)
    exact ends.of_ok replied
  case runs =>
    intro image answer after replied
    have ends : Ends (SessionM.reply fuel _ session)
        (fun answer _ => (∃ object, answer = .answer (.object object)) ∨
          ∃ report, answer = .failed report) fun _ _ => False :=
      reply_ends ((running_ends fuel holds image).imp fun _ _ told => told.2)
    exact ends.of_ok replied

/-- Code that takes a value where there is none, and leaves a block it is not in, may have
been loaded. -/
theorem keeps_promises_malformed_code :
    let begun := Session.start Unlimited.mk .off
    let loaded := begun.next 0 (.loadCode "code" ⟨"main", #[87, 1, 200], [.none], []⟩)
    loaded.Reachable [] ∧ loaded.KeepsPromises 9 := by
  have reached : Reachable (next 0 (.loadCode "code" ⟨"main", #[87, 1, 200], [.none], []⟩)
      (Session.start Unlimited.mk .off)) [] := (Reachable.start _ _).next (by decide +kernel)
  exact ⟨reached, reached.keeps_promises 9⟩

end Session

end StackMachine

import StackMachine.Proofs.Session.Serving
import StackMachine.Proofs.Store.Containers
import StackMachine.Session.Perform

/-!
# What requests do to a session

Every request leaves the session with what it owns.  Its host loses references in one
case only: where a request empties registers one after the other and names one of them
twice, the references it took out before are gone.  What is in registers that the request does
not fill or empty is kept.
-/

namespace StackMachine

variable {τ : Type}

/-- The references in some registers that are emptied one after the other, up to the
first that is found empty. -/
def takenFrom (registers : List (Register × Ref)) : List Register → List Ref
  | [] => []
  | name :: rest =>
      match registers.lookup name with
      | some ref => ref :: takenFrom (registers.filter fun entry => entry.1 != name) rest
      | none => []

/-- The registers that a request empties one after the other, after it has looked into
all of them. -/
def Request.empties : Request → List Register
  | .list _ items => items
  | .tuple _ items => items
  | .setErrorValue first second => [first, second]
  | _ => []

/-- The registers that a request may fill or empty. -/
def Request.touches : Request → List Register
  | .int target _ | .float target _ | .string target _ | .dict target | .none target
  | .bool target _ | .object target _ | .acquire target _ | .index target _ _
  | .slice target _ _ _ | .concat target _ _ | .getAttr target _ _ | .module target _
  | .loadCode target _ => [target]
  | .list target items | .tuple target items => target :: items
  | .release source | .nestList source _ | .nestTuple source _ => [source]
  | .memberClass _ target | .dictLookup _ _ target | .listGet _ _ target => target.toList
  | .boundParts _ first second | .setErrorValue first second | .takeError first second =>
      [first, second]
  | .dictInsert _ _ put | .listSet _ _ put | .tupleSet _ _ put | .listInsert _ _ put
  | .listAppend _ put | .setAttr _ _ put => [put]
  | .evaluate target _ _ _ argument | .call target _ argument => target :: argument.toList
  | _ => []

/-- The references that are lost when some registers are emptied: those taken out before
one is found empty that was not so at first. -/
def Session.loses (session : Session τ) (names : List Register) : List Ref :=
  if (∀ name ∈ names, (session.registers.lookup name).isSome) ∧
      (takenFrom session.registers names).length < names.length then
    takenFrom session.registers names
  else
    []

/-- What a host may be told of code that it runs: its result if no error is set, that
there is none if one is, or that a register is empty. -/
def Reply.OnRun (reply : Reply τ) (error : Option (Ref × Ref)) : Prop :=
  match reply with
  | .answer (.object _) => error = none
  | .noResult _ => error.isSome
  | .emptyRegister _ => True
  | _ => False

section Losing

variable {registers : List (Register × Ref)} {names : List Register} {session : Session τ}

theorem takenFrom_length_of_nodup (distinct : names.Nodup)
    (found : ∀ name ∈ names, (registers.lookup name).isSome) :
    (takenFrom registers names).length = names.length := by
  induction names generalizing registers with
  | nil => rfl
  | cons name rest ih =>
      obtain ⟨fresh, distinct⟩ := List.nodup_cons.mp distinct
      obtain ⟨ref, present⟩ := Option.isSome_iff_exists.mp (found name List.mem_cons_self)
      rw [takenFrom, present]
      simp only [List.length_cons]
      rw [ih distinct]
      intro other member
      obtain ⟨entry, stored, same⟩ :=
        List.lookup_isSome_iff.mp (found other (List.mem_cons_of_mem _ member))
      refine List.lookup_isSome_iff.mpr ⟨entry, List.mem_filter.mpr ⟨stored, ?_⟩, same⟩
      rw [bne_iff_ne, ← beq_iff_eq.mp same]
      exact fun again => fresh (again ▸ member)

/-- Nothing is lost where every register is named once. -/
theorem Session.loses_of_nodup (distinct : names.Nodup) : session.loses names = [] := by
  unfold loses
  split
  · rename_i lost
    have same := takenFrom_length_of_nodup distinct lost.1
    omega
  · rfl

end Losing

namespace SessionM

open Store Outcome Machine Session

variable [Tracker τ] {session : Session τ} {held : List Ref} {names touched : List Register}

omit [Tracker τ] in
theorem takeAll_cases (holds : session.Holds held) (touches : names ⊆ touched) :
    ∃ after : Session τ, after.Holds (takenFrom session.registers names ++ held) ∧
      session.Spares touched held after ∧
      ((takeAll names).run session = .ok (.ok (takenFrom session.registers names)) after ∧
          (takenFrom session.registers names).length = names.length ∨
        ∃ reply, (takeAll names : SessionM τ (List Ref)).run session = .ok (.error reply) after ∧
          (takenFrom session.registers names).length < names.length) := by
  induction names generalizing session held with
  | nil => exact ⟨session, holds, .refl _ _ _, Or.inl ⟨rfl, rfl⟩⟩
  | cons name rest ih =>
      obtain ⟨first, others⟩ := List.cons_subset.mp touches
      cases found : session.registers.lookup name with
      | none =>
          rw [takenFrom, found]
          refine ⟨session, holds, .refl _ _ _, Or.inr ⟨.emptyRegister name, ?_, by simp⟩⟩
          rw [takeAll, take]
          exact run_bind_reply (run_bind_reply (read_none found))
      | some ref =>
          rw [takenFrom, found]
          obtain ⟨taken, left⟩ := take_ok holds found
          obtain ⟨after, rest, spares, cases_⟩ := ih left others
          have all : session.Spares touched held after := (spares_emptied first).trans
            (spares.mono (List.subset_cons_self ref held))
          rcases cases_ with ⟨returned, full⟩ | ⟨reply, returned, short⟩
          · refine ⟨after, rest.perm List.perm_middle, all, Or.inl ⟨?_, by simpa using full⟩⟩
            rw [takeAll, run_bind_ok taken, run_bind_ok returned]
            rfl
          · refine ⟨after, rest.perm List.perm_middle, all,
              Or.inr ⟨reply, ?_, by simpa using short⟩⟩
            rw [takeAll, run_bind_ok taken, run_bind_reply returned]

omit [Tracker τ] in
/-- Registers are emptied after all of them have been looked into. -/
theorem emptying_ends {α : Type} {next : List Ref → SessionM τ α} (holds : session.Holds held)
    (touches : names ⊆ touched)
    (rest : ∀ refs after, refs.length = names.length → after.Holds (refs ++ held) →
      Serves (next refs) after touched held fun _ => []) :
    Ends ((do
        let _ ← readAll names
        let refs ← takeAll names
        next refs : SessionM τ α).run session)
      (fun _ after => after.Holds (session.loses names ++ held) ∧
        session.Spares touched held after) fun _ _ => False := by
  rcases readAll_cases session names with ⟨_, returned, reads⟩ | ⟨name, member, absent, returned⟩
  · rw [run_bind_ok returned]
    obtain ⟨after, left, spares, ⟨taken, full⟩ | ⟨reply, taken, short⟩⟩ :=
      takeAll_cases holds touches
    · rw [run_bind_ok taken, loses, if_neg (by omega)]
      exact (rest _ after full left).holds.imp fun _ _ ⟨last, later⟩ => ⟨last, spares.trans later⟩
    · rw [run_bind_reply taken, loses, if_pos ⟨reads.isSome, short⟩]
      exact ⟨left, spares⟩
  · rw [run_bind_reply returned, loses, if_neg]
    · exact ⟨holds, .refl _ _ _⟩
    · rintro ⟨found, -⟩
      have present := found name member
      rw [absent] at present
      cases present

theorem gather_ends {pack : Array Ref → Payload} (packs : pack = .list ∨ pack = .tuple)
    (holds : session.Holds held) (target : Register) :
    Ends ((gather target names pack : SessionM τ (Answer τ)).run session)
      (fun _ after => after.Holds (session.loses names ++ held) ∧
        session.Spares (target :: names) held after) fun _ _ => False := by
  refine emptying_ends holds (List.subset_cons_self _ _) fun refs after _ left =>
    produce_serves left List.mem_cons_self ?_
  exact StoreM.allocate_sequence packs left.sound_taken

theorem setErrorValue_ends (holds : session.Holds held) (error value : Register) (fuel : Nat) :
    Ends ((perform fuel (.setErrorValue error value) : SessionM τ (Answer τ)).run session)
      (fun _ after => after.Holds (session.loses [error, value] ++ held) ∧
        session.Spares [error, value] held after) fun _ _ => False := by
  have same : (perform fuel (.setErrorValue error value) : SessionM τ (Answer τ)) = (do
      let _ ← readAll [error, value]
      let refs ← takeAll [error, value]
      onMachine (MachineM.setErrorValue (refs.headD .noneObject) (refs.getD 1 .noneObject))
      return .nothing) := by
    simp [perform, takeAll]
  rw [same]
  refine emptying_ends holds (List.Subset.refl _) fun refs after full left => ?_
  obtain ⟨first, second, rfl⟩ := List.length_eq_two.mp full
  have owned : after.machine.Ready ([first, second] ++ (held ++ after.refs)) := left.idle.ready
  obtain ⟨store, returned, ready, keeps⟩ := MachineM.setErrorValue_ok owned
  have keeps := keeps.mono
    (List.subset_append_of_subset_left _ (List.subset_append_right _ (held ++ after.refs)))
  exact Serves.bind_ok (onMachine_ok returned) (spares_of_keeps keeps)
    (Serves.pure ⟨⟨ready, left.idle.frames, left.idle.values⟩, left.names⟩)

/-! ## Longer requests -/

theorem fill_accounts {store : Store τ} {inner : List Ref} {dict : Ref} (member : dict ∈ held)
    (sound : store.Sound held inner) (stem : String) (count index : Nat) :
    StoreM.Accounts (fill dict stem count index) store held inner fun _ => [] := by
  induction count generalizing store index with
  | zero => exact StoreM.Accounts.pure sound
  | succ count ih =>
      refine StoreM.Accounts.acquire_bind sound sound.usable_none fun acquired sound' _ => ?_
      refine (StoreM.dictInsert_accounts sound' ?_ ?_ _).bind fun _ after left => ?_
      · exact Or.inl (List.mem_append_right _ (List.mem_append_left _ member))
      · exact (sound.values dict member).ne_builtins
      · exact ih left.sound (index + 1)

theorem nest_serves {pack : Array Ref → Payload} (packs : pack = .list ∨ pack = .tuple)
    (holds : session.Holds held) {source : Register} (touches : source ∈ touched) (count : Nat) :
    Serves (nest source pack count : SessionM τ (Answer τ)) session touched held fun _ => [] := by
  induction count generalizing session with
  | zero => exact Serves.read_bind holds fun _ _ => Serves.pure holds
  | succ count ih =>
      have once : Serves (nestOnce source pack : SessionM τ Unit) session touched held
          fun _ => [] := by
        cases found : session.registers.lookup source with
        | none =>
            unfold Serves
            rw [nestOnce, take, run_bind_reply (run_bind_reply (read_none found))]
            exact ⟨holds, .refl _ _ _⟩
        | some ref =>
            obtain ⟨taken, left⟩ := take_ok holds found
            refine Serves.bind_ok taken (spares_emptied touches) ?_
            have sound : Sound _ (#[ref].toList ++ _) _ := left.sound_cons
            exact (reporting_serves left (StoreM.allocate_sequence packs sound)).bind
              fun made after rest => write_serves rest touches
      exact once.bind fun _ after left => ih left

theorem input_serves {target : Register} (holds : session.Holds held)
    (touches : target ∈ touched) (value : Object) :
    Serves (input target value : SessionM τ (Answer τ)) session touched held fun _ => [] := by
  refine Serves.bind (onMachine_serves
    (?_ : MachineM.Answers _ _ _ (StoreM.Accounts.orNothing fun ref => [ref])) holds.names) ?_
  · have built := StoreM.Accounts.attempt (StoreM.ofObject_accounts value holds.sound)
      fun _ _ => False
    have idle := holds.idle
    unfold MachineM.Answers
    obtain ⟨⟨store, values, frames, error, traceback, tracer⟩, registers, seen⟩ := session
    simp only at built ⊢
    cases result : attempt (StoreM.ofObject value) store with
    | ok made final =>
        rw [result] at built
        have stays := idle.ready.stays_of_leaves built
        exact ⟨stays.idle idle, stays.keeps_held⟩
    | error stop final =>
        rw [result] at built
        cases stop with
        | failed failure => trivial
        | fault broken => exact built
        | unfinished => trivial
  · intro built after left
    cases built with
    | ok ref => exact conclude_serves left touches
    | error error => exact .throw left

/-- What a host is told, whether the reply comes early or not. -/
def asReply : Except (Reply τ) (Answer τ) → Reply τ
  | .ok answer => .answer answer
  | .error reply => reply

theorem runWith_ends {sources : List Register} {argument : Option Register}
    {act : List Ref → Option Ref → MachineM τ (Option Ref)} (holds : session.Holds held)
    (target : Register)
    (answers : ∀ {machine : Machine τ} {refs held : List Ref} {argument : Option Ref},
      refs.length = sources.length → refs ⊆ held → machine.Idle (argument.toList ++ held) →
      Ends (act refs argument machine) (MachineM.Concludes machine held) fun _ _ => False) :
    Ends ((runWith target sources argument act).run session)
      (fun told after => (after.Holds held ∧
          session.Spares (target :: argument.toList) held after) ∧
        (asReply told).OnRun after.machine.error)
      fun _ _ => False := by
  rcases readAll_cases session sources with ⟨refs, returned, reads⟩ | ⟨name, -, -, returned⟩
  rotate_left
  · rw [runWith, run_bind_reply returned]
    exact ⟨⟨holds, .refl _ _ _⟩, trivial⟩
  rcases readAll_cases session argument.toList with ⟨_, returned', found⟩ | ⟨name, -, -, returned'⟩
  rotate_left
  · rw [runWith, run_bind_ok returned, run_bind_reply returned']
    exact ⟨⟨holds, .refl _ _ _⟩, trivial⟩
  rw [runWith, run_bind_ok returned, run_bind_ok returned']
  refine (holding_ends (target :: argument.toList) (fun _ => [])
    (fun told => (asReply told).OnRun) holds (reads.usable holds)
    fun after same kept => ?_).imp ?_
  · -- The argument is taken out of its register, which holds one.
    obtain ⟨taken, final, emptied, left, spares⟩ : ∃ (taken : Option Ref) (final : Session τ),
        (takeAll argument.toList : SessionM τ (List Ref)).run after = .ok (.ok taken.toList) final ∧
        final.Holds (taken.toList ++ (refs ++ held)) ∧
        after.Spares (target :: argument.toList) (refs ++ held) final := by
      cases argument with
      | none => exact ⟨none, after, rfl, kept, .refl _ _ _⟩
      | some name =>
          obtain _ | ⟨present, _⟩ := found
          rw [← same] at present
          obtain ⟨taken, left⟩ := take_ok kept present
          refine ⟨some _, _, ?_, left, spares_emptied (by simp)⟩
          show (takeAll [name]).run after = _
          rw [takeAll, run_bind_ok taken]
          rfl
    rw [run_bind_ok emptied, Option.head?_toList]
    have idle : final.machine.Idle (taken.toList ++ ((refs ++ held) ++ final.refs)) := by
      rw [← List.append_assoc]
      exact left.idle
    have kept : refs ⊆ (refs ++ held) ++ final.refs :=
      fun ref member => List.mem_append_left _ (List.mem_append_left _ member)
    refine Ends.bind (onMachine_ends (answers reads.length_eq.symm kept idle)) ?_
    rintro _ _ ⟨result, machine, rfl, rfl, concluded⟩
    have owned : ({ final with machine } : Session τ).Holds (result.toList ++ (refs ++ held)) := by
      refine ⟨?_, left.names⟩
      rw [List.append_assoc]
      exact concluded.idle
    have ran : after.Spares (target :: argument.toList) (refs ++ held) { final with machine } :=
      spares.trans (spares_of_keeps concluded.keeps)
    refine (conclude_ends owned
      (List.mem_cons_self : target ∈ target :: argument.toList)).imp ?_
    rintro told last ⟨⟨rest, stored⟩, error, ⟨⟨object, rfl⟩, isSome⟩ | ⟨⟨kind, rfl⟩, isNone⟩⟩
    · refine ⟨⟨rest, ran.trans stored⟩, ?_⟩
      show last.machine.error = none
      rw [error, ← Option.not_isSome_iff_eq_none, ← concluded.error,
        ← Option.not_isSome_iff_eq_none, not_not]
      exact isSome
    · refine ⟨⟨rest, ran.trans stored⟩, ?_⟩
      show last.machine.error.isSome
      rw [error]
      exact concluded.error.mp isNone
  · rintro told after ⟨left, known⟩
    refine ⟨?_, known⟩
    cases told <;> exact left

theorem evaluating_ends (fuel : Nat) (holds : session.Holds held)
    (target code globals locals : Register) (argument : Option Register) :
    Ends ((perform fuel (.evaluate target code globals locals argument)).run session)
      (fun told after => (after.Holds held ∧
          session.Spares (target :: argument.toList) held after) ∧
        (asReply told).OnRun after.machine.error)
      fun _ _ => False := by
  refine runWith_ends holds target fun full kept idle => ?_
  obtain ⟨first, second, third, rfl⟩ := List.length_eq_three.mp full
  exact MachineM.evaluate_ends fuel idle kept

theorem calling_ends (fuel : Nat) (holds : session.Holds held) (target callee : Register)
    (argument : Option Register) :
    Ends ((perform fuel (.call target callee argument)).run session)
      (fun told after => (after.Holds held ∧
          session.Spares (target :: argument.toList) held after) ∧
        (asReply told).OnRun after.machine.error)
      fun _ _ => False := by
  refine runWith_ends holds target fun full kept idle => ?_
  obtain ⟨ref, rfl⟩ := List.length_eq_one_iff.mp full
  exact MachineM.invoke_ends fuel idle (kept List.mem_cons_self)

theorem running_ends (fuel : Nat) (holds : session.Holds held) (image : Image) :
    Ends ((perform fuel (.run image)).run session)
      (fun told after => (after.Holds held ∧ session.Spares [] held after) ∧
        ((∃ object, asReply told = .answer (.object object)) ∨
          ∃ report, asReply told = .failed report)) fun _ _ => False := by
  refine Ends.bind (onMachine_ends (MachineM.runImage_answers fuel image holds.idle)) ?_
  rintro _ _ ⟨result, machine, rfl, rfl, idle, keeps⟩
  cases result with
  | ok object => exact ⟨⟨⟨idle, holds.names⟩, spares_of_keeps keeps⟩, Or.inl ⟨object, rfl⟩⟩
  | error report => exact ⟨⟨⟨idle, holds.names⟩, spares_of_keeps keeps⟩, Or.inr ⟨report, rfl⟩⟩

/-! ## Looking at objects -/

omit [Tracker τ] in
theorem inspectPayload_serves (holds : session.Holds held) (source : Register)
    (read_ : Payload → Answer τ) :
    Serves (inspectPayload source read_) session touched held fun _ => [] :=
  inspect_serves holds fun _ filled => get_answers filled fun payload _ => ⟨read_ payload, rfl⟩

omit [Tracker τ] in
theorem inspectObject_serves (holds : session.Holds held) (source : Register)
    (read_ : Object → Answer τ) :
    Serves (inspectObject source read_) session touched held fun _ => [] :=
  inspect_serves holds fun _ filled =>
    bind_answers (holds.idle.closed.toObject_answers filled) fun object => ⟨read_ object, rfl⟩

/-- Does an object let others get hold of the references that are read off it? -/
def Shows (read_ : Payload → List Ref) : Prop :=
  ∀ payload, ∀ part ∈ read_ payload, ∃ role, (part, role) ∈ payload.roles ∧
    role ≠ .of .frame ∧ role ≠ .of .traceback

theorem ownerOf_shows : Shows ownerOf := by
  intro payload part member
  cases payload with
  | member owner attrs =>
      obtain rfl := List.mem_singleton.mp member
      exact ⟨.of .class_, by simp [Payload.roles], by simp⟩
  | _ => cases member

theorem methodParts_shows : Shows methodParts := by
  intro payload part member
  cases payload with
  | method function self =>
      obtain rfl | rfl : part = function ∨ part = self := by simpa [methodParts] using member
      · exact ⟨.of .function, by simp [Payload.roles], by simp⟩
      · exact ⟨.of .classMember, by simp [Payload.roles], by simp⟩
  | _ => cases member

theorem itemOf_shows (index : Nat) : Shows (itemOf index) := by
  intro payload part member
  cases payload with
  | list items =>
      have item : part ∈ items.toList :=
        Array.mem_toList_iff.mpr (Array.mem_of_getElem? (Option.mem_toList.mp member))
      exact ⟨.value, List.mem_map_of_mem item, by simp⟩
  | _ => cases member

omit [Tracker τ] in
theorem Serves.partsOf_bind {α : Type} {gives : α → List Ref} {source : Register}
    {read_ : Payload → List Ref} {next : List Ref → SessionM τ α} (holds : session.Holds held)
    (shows_ : Shows read_)
    (rest : ∀ parts, (∀ part ∈ parts, session.machine.store.Usable part) →
      Serves (next parts) session touched held gives) :
    Serves (partsOf read_ source >>= next) session touched held gives := by
  cases present : session.registers.lookup source with
  | none =>
      unfold Serves
      rw [partsOf, run_bind_reply (run_bind_reply (read_none present))]
      exact ⟨holds, .refl _ _ _⟩
  | some ref =>
      obtain ⟨payload, found⟩ := (holds.usable present).filled
      have returned : (partsOf read_ source).run session = .ok (.ok (read_ payload)) session := by
        rw [partsOf, run_bind_ok (read_some present),
          run_bind_ok (onStore_ok (StoreM.get_eq found))]
        rfl
      refine Serves.bind_read returned (rest _ fun part member => ?_)
      obtain ⟨role, played, plain⟩ := shows_ payload part member
      exact holds.sound.usable_child found played plain

/-- Two references are stored, one after the other. -/
theorem writeTwo_serves {α : Type} {first second : Ref} {one other : Register}
    (holds : session.Holds ([first, second] ++ held)) (answer : α) :
    Serves (do
      write one first
      write other second
      return answer : SessionM τ α) session [one, other] held fun _ => [] := by
  obtain ⟨middle, written, rest, -, spares⟩ :=
    write_ok holds (List.mem_cons_self : one ∈ [one, other])
  refine Serves.bind_ok written (spares.mono (List.subset_cons_self second held)) ?_
  exact (write_serves rest (by simp)).bind fun _ after last => Serves.pure last

theorem boundParts_serves (holds : session.Holds held) (source function self : Register)
    (fuel : Nat) :
    Serves (perform fuel (.boundParts source function self) : SessionM τ (Answer τ)) session
      [function, self] held fun _ => [] := by
  refine Serves.partsOf_bind holds methodParts_shows fun parts usable => ?_
  match parts with
  | [foundFunction, foundSelf] =>
      obtain ⟨store, acquired, sound, same⟩ := StoreM.acquireAll_values holds.sound usable
      have stays := holds.idle.ready.stays_of_leaves
        (⟨sound, same.keeps _⟩ : session.machine.store.Leaves _ _ _ store)
      have left : ({ session with machine := { session.machine with store } } :
          Session τ).Holds ([foundFunction, foundSelf] ++ held) := holds_of_stays holds stays
      refine Serves.bind_ok (onStore_ok acquired) (spares_of_stays stays) ?_
      exact writeTwo_serves left _
  | [] | [_] | _ :: _ :: _ :: _ => exact Serves.pure holds

/-! ## The current error -/

omit [Tracker τ] in
/-- The machine answers, and its host is left with nothing. -/
theorem tell_serves {act : MachineM τ Unit} {machine : Machine τ} (holds : session.Holds held)
    (returned : act session.machine = .ok () machine) (idle : machine.Idle (held ++ session.refs))
    (keeps : Keeps (held ++ session.refs) session.machine.store machine.store) :
    Serves (do onMachine act; return .nothing : SessionM τ (Answer τ)) session touched held
      fun _ => [] :=
  Serves.bind_ok (onMachine_ok returned) (spares_of_keeps keeps) (Serves.pure ⟨idle, holds.names⟩)

theorem takeError_serves (holds : session.Holds held) (error value : Register) (fuel : Nat) :
    Serves (perform fuel (.takeError error value) : SessionM τ (Answer τ)) session [error, value]
      held fun _ => [] := by
  refine Serves.bind_ok (onMachine_ok (MachineM.takeError_eq session.machine))
    ⟨rfl, Keeps.refl _ _⟩ ?_
  have left : ({ session with machine := { session.machine with error := none } } :
      Session τ).Holds (session.machine.errorRefs ++ held) := by
    refine ⟨⟨?_, holds.idle.frames, holds.idle.values⟩, holds.names⟩
    rw [List.append_assoc]
    exact holds.idle.ready.withoutError
  cases found : session.machine.error with
  | none =>
      rw [errorRefs, found] at left
      exact Serves.pure left
  | some pair =>
      obtain ⟨foundError, foundValue⟩ := pair
      rw [errorRefs, found] at left
      have usable {ref : Ref} (member : ref ∈ [foundError, foundValue]) :
          session.machine.store.Usable ref :=
        left.sound.usable (mem_others_of_held (List.mem_append_left _ member))
      obtain ⟨shownError, shown⟩ := object_ok left (usable List.mem_cons_self).filled
      obtain ⟨shownValue, shown'⟩ :=
        object_ok left (usable (List.mem_cons_of_mem _ List.mem_cons_self)).filled
      exact Serves.bind_read shown (Serves.bind_read shown' (writeTwo_serves left _))

/-! ## All requests -/

/-- A dictionary in a register is changed while it is held. -/
theorem changeDict_serves {source : Register} {act : Ref → StoreM τ Unit}
    (holds : session.Holds held)
    (accounts : ∀ {store : Store τ} {held inner : List Ref} {ref : Ref},
      store.Sound held inner → ref ∈ held →
      StoreM.Accounts (act ref) store held inner fun _ => []) :
    Serves (do
      let ref ← read source
      holding [ref] (reporting (act ref))
      return .nothing : SessionM τ (Answer τ)) session touched held fun _ => [] := by
  refine Serves.read_bind holds fun ref found => ?_
  have usable : ∀ other ∈ [ref], session.machine.store.Usable other := by
    intro other member
    obtain rfl := List.mem_singleton.mp member
    exact holds.usable found
  refine (Serves.holding holds usable fun after _ kept => ?_).bind fun _ final rest =>
    Serves.pure rest
  exact reporting_serves kept (accounts kept.sound (mem_others_of_held List.mem_cons_self))

/-- A request whose registers are not emptied one after the other. -/
theorem perform_serves (fuel : Nat) (request : Request) (holds : session.Holds held)
    (plain : ∀ target items error value, request ≠ .list target items ∧
      request ≠ .tuple target items ∧ request ≠ .setErrorValue error value) :
    Serves (perform fuel request : SessionM τ (Answer τ)) session request.touches held
      fun _ => [] := by
  have sound := holds.sound
  have mine {name : Register} {rest : List Register} : name ∈ name :: rest := List.mem_cons_self
  cases request with
  | list target items => exact absurd rfl (plain target items "" "").1
  | tuple target items => exact absurd rfl (plain target items "" "").2.1
  | setErrorValue error value => exact absurd rfl (plain "" [] error value).2.2
  | int target value => exact produce_serves holds mine (StoreM.allocate_int sound value)
  | float target value => exact produce_serves holds mine (StoreM.allocate_float sound value)
  | string target text => exact produce_serves holds mine (StoreM.allocate_string sound _)
  | dict target => exact produce_serves holds mine (StoreM.allocate_dict sound)
  | none target =>
      exact produce_serves holds mine (StoreM.Accounts.acquire sound sound.usable_none)
  | bool target value =>
      exact produce_serves holds mine (StoreM.Accounts.acquire sound (sound.usable_bool value))
  | object target value => exact input_serves holds mine value
  | module target name =>
      exact produce_serves holds mine (StoreM.registerModule_accounts sound name)
  | loadCode target image =>
      exact produce_serves holds mine (StoreM.loadImage_accounts image sound)
  | acquire target source =>
      refine produceFrom_serves holds mine fun refs _ _ _ full kept sound => ?_
      obtain ⟨ref, rfl⟩ := List.length_eq_one_iff.mp full
      exact StoreM.Accounts.acquire sound (sound.usable (kept List.mem_cons_self))
  | index target sequence index =>
      refine produceFrom_serves holds mine fun refs _ _ _ full kept sound => ?_
      obtain ⟨ref, rfl⟩ := List.length_eq_one_iff.mp full
      exact StoreM.index_accounts sound (kept List.mem_cons_self) index
  | slice target sequence low high =>
      refine produceFrom_serves holds mine fun refs _ _ _ full kept sound => ?_
      obtain ⟨ref, rfl⟩ := List.length_eq_one_iff.mp full
      exact StoreM.slice_accounts sound (kept List.mem_cons_self) low high
  | getAttr target object name =>
      refine produceFrom_serves holds mine fun refs _ _ _ full kept sound => ?_
      obtain ⟨ref, rfl⟩ := List.length_eq_one_iff.mp full
      exact StoreM.loadAttr_accounts sound (kept List.mem_cons_self) name
  | concat target left right =>
      refine produceFrom_serves holds mine fun refs _ _ _ full kept sound => ?_
      obtain ⟨first, second, rfl⟩ := List.length_eq_two.mp full
      exact StoreM.concat_accounts sound (kept (by simp)) (kept (by simp))
  | release source =>
      cases found : session.registers.lookup source with
      | none =>
          unfold Serves
          rw [perform, take, run_bind_reply (run_bind_reply (read_none found))]
          exact ⟨holds, .refl _ _ _⟩
      | some ref =>
          obtain ⟨taken, left⟩ := take_ok holds found
          have owned : Session.Holds _ ([ref] ++ held) := left
          obtain ⟨store, released, rest, spares⟩ := releaseAll_ok [source] owned
          exact Serves.bind_ok taken (spares_emptied mine)
            (Serves.bind_ok released spares (Serves.pure rest))
  | releaseNothing => exact Serves.pure holds
  | count source => exact inspect_serves holds fun _ _ => ⟨_, rfl⟩
  | slot source => exact inspect_serves holds fun _ _ => ⟨_, rfl⟩
  | kind source => exact inspectPayload_serves holds source _
  | truthy source => exact inspectPayload_serves holds source _
  | length source => exact inspectPayload_serves holds source _
  | dictLength dict => exact inspectPayload_serves holds dict _
  | dictCapacity dict => exact inspectPayload_serves holds dict _
  | dictKeyAt dict index => exact inspectPayload_serves holds dict _
  | dictSlots dict => exact inspectPayload_serves holds dict _
  | value source => exact inspectObject_serves holds source _
  | repr source => exact inspectObject_serves holds source _
  | display source => exact inspectObject_serves holds source _
  | typeName source => exact inspectObject_serves holds source _
  | isLive name =>
      show Serves (match session.seen.lookup name with
        | some ref => (do return .flag ((← get).machine.store.isLive ref) : SessionM τ (Answer τ))
        | none => throw (Reply.emptyRegister name)) session _ held _
      split
      · exact .pure holds
      · exact .throw holds
  | same left right =>
      exact Serves.read_bind holds fun _ _ => Serves.read_bind holds fun _ _ => Serves.pure holds
  | compare left right =>
      refine Serves.read_bind holds fun first found =>
        Serves.read_bind holds fun second found' => ?_
      refine (reporting_serves holds (?_ : StoreM.Accounts _ _ _ _ fun _ => [])).bind
        fun _ _ rest => Serves.pure rest
      refine Ends.reading (fun _ _ => ⟨sound, Keeps.refl _ _⟩)
        (fun _ _ => ⟨sound, Keeps.refl _ _⟩) ?_
      exact holds.idle.closed.intact_compareRefs (holds.usable found).filled
        (holds.usable found').filled
  | memberClass source target =>
      refine Serves.partsOf_bind holds ownerOf_shows fun parts usable => ?_
      exact discover_serves holds (List.Subset.refl _) fun ref first =>
        usable ref (List.mem_of_head? first)
  | listGet list index target =>
      refine Serves.partsOf_bind holds (itemOf_shows index) fun parts usable => ?_
      exact discover_serves holds (List.Subset.refl _) fun ref first =>
        usable ref (List.mem_of_head? first)
  | boundParts source function self => exact boundParts_serves holds source function self fuel
  | dictLookup dict key target =>
      refine Serves.read_bind holds fun ref found => ?_
      refine Serves.onStore_bind (StoreM.dictLookup_ends sound (holds.usable found).filled _) ?_
      exact fun value usable => discover_serves holds (List.Subset.refl _) usable
  | dictInsert dict key value =>
      exact changeContainer_serves holds mine fun sound secured ne_builtins =>
        StoreM.dictInsert_accounts sound secured ne_builtins _
  | listSet list index value =>
      exact changeContainer_serves holds mine fun sound secured ne_builtins =>
        StoreM.listSet_accounts sound secured ne_builtins index
  | tupleSet tuple index value =>
      exact changeContainer_serves holds mine fun sound secured ne_builtins =>
        StoreM.tupleSet_accounts sound secured ne_builtins index
  | listInsert list index value =>
      exact changeContainer_serves holds mine fun sound secured ne_builtins =>
        StoreM.listInsert_accounts sound secured ne_builtins index
  | listAppend list value =>
      exact changeContainer_serves holds mine fun sound secured ne_builtins =>
        StoreM.listAppend_accounts sound secured ne_builtins
  | setAttr object name value =>
      exact change_serves holds mine fun sound member => StoreM.storeAttr_accounts sound member name
  | dictRemove dict key =>
      refine changeDict_serves holds fun sound member => ?_
      exact StoreM.dictRemove_accounts sound
        (Or.inl (List.mem_append_right _ (List.mem_append_left _ member)))
        (sound.values _ member).ne_builtins _
  | dictFill dict count stem =>
      exact changeDict_serves holds fun sound member => fill_accounts member sound stem count 0
  | nestList source count => exact nest_serves (Or.inl rfl) holds mine count
  | nestTuple source count => exact nest_serves (Or.inr rfl) holds mine count
  | evaluate target code globals locals argument =>
      exact serves_of_holds ((evaluating_ends fuel holds target code globals locals argument).imp
        fun _ _ left => left.1)
  | call target callee argument =>
      exact serves_of_holds ((calling_ends fuel holds target callee argument).imp
        fun _ _ left => left.1)
  | run image =>
      exact serves_of_holds ((running_ends fuel holds image).imp fun _ _ left => left.1)
  | setError kind =>
      obtain ⟨machine, returned, records⟩ := MachineM.setError_ok holds.idle.ready kind
      exact tell_serves holds returned (records.idle holds.idle) records.keeps_held
  | setErrorText kind message =>
      obtain ⟨machine, returned, records⟩ := MachineM.setErrorText_ok holds.idle.ready kind message
      exact tell_serves holds returned (records.idle holds.idle) records.keeps_held
  | clearError =>
      obtain ⟨store, returned, ready, keeps⟩ := MachineM.clearError_ok holds.idle.ready
      exact tell_serves holds returned ⟨ready, holds.idle.frames, holds.idle.values⟩ keeps
  | errorState => exact Serves.pure holds
  | takeError error value => exact takeError_serves holds error value fuel
  | takeReport =>
      obtain ⟨report?, machine, returned, idle, -, keeps⟩ := MachineM.takeReport_ok holds.idle
      refine Serves.bind_ok (onMachine_ok returned) (spares_of_keeps keeps) ?_
      cases report? with
      | none => exact Serves.pure ⟨idle, holds.names⟩
      | some report => exact Serves.pure ⟨idle, holds.names⟩
  | takeTraceback =>
      obtain ⟨points, machine, returned, idle, -, keeps⟩ := MachineM.takeTraceback_ok holds.idle
      exact Serves.bind_ok (onMachine_ok returned) (spares_of_keeps keeps)
        (Serves.pure ⟨idle, holds.names⟩)
  | printTraceback =>
      obtain ⟨points, returned⟩ := MachineM.traceback_ok holds.idle
      exact Serves.bind_read (onMachine_ok returned) (Serves.pure holds)
  | stats => exact Serves.pure holds
  | depth => exact Serves.pure holds
  | tracker => exact Serves.pure holds
  | trace => exact Serves.pure holds

/-- A request leaves the session with what it owns, but for the references that its host
loses, and keeps what is in the registers that it does not touch. -/
theorem perform_ends (fuel : Nat) (request : Request) (holds : session.Holds held) :
    Ends ((perform fuel request : SessionM τ (Answer τ)).run session)
      (fun _ after => after.Holds (session.loses request.empties ++ held) ∧
        session.Spares request.touches held after) fun _ _ => False := by
  have plainly (empties : request.empties = [])
      (plain : ∀ target items error value, request ≠ .list target items ∧
        request ≠ .tuple target items ∧ request ≠ .setErrorValue error value) :
      Ends ((perform fuel request : SessionM τ (Answer τ)).run session)
        (fun _ after => after.Holds (session.loses request.empties ++ held) ∧
          session.Spares request.touches held after) fun _ _ => False := by
    rw [empties, loses_of_nodup List.nodup_nil]
    exact (perform_serves fuel request holds plain).holds
  cases request with
  | list target items => exact gather_ends (Or.inl rfl) holds target
  | tuple target items => exact gather_ends (Or.inr rfl) holds target
  | setErrorValue error value => exact setErrorValue_ends holds error value fuel
  | _ => exact plainly rfl (by simp)

end SessionM

end StackMachine

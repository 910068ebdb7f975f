import StackMachine.Proofs.Session.Attained
import StackMachine.Proofs.Store.Originals

/-!
# The machine's own objects in every state that is attained

Whatever is run and asked for, the objects that a machine starts with are never freed and
never changed, and the dictionary of built-in names is out of everybody's reach.  A run that
is counted counts what it leaves above what there was before, which is never more.
-/

namespace StackMachine

open Store Outcome Machine Session

variable {τ : Type}

/-! ## Runs that are counted -/

namespace Store

variable {store : Store τ} {dict : Ref}

/-- Counting the names of an object stops only in a search that does not end. -/
theorem nameCounts_stops (filled : store.Filled dict) {keys : List (Option Bytes)}
    {stop : Stop Cause} (stopped : MachineM.nameCounts dict store keys = .error stop) :
    stop = .unfinished := by
  obtain ⟨payload, found⟩ := filled
  induction keys with
  | nil => cases stopped
  | cons key? keys ih =>
      cases key? with
      | none => exact ih stopped
      | some key =>
          rw [MachineM.nameCounts, get_eq_ok_iff.mpr found] at stopped
          cases payload with
          | dict table =>
              simp only [bind, Except.bind] at stopped
              cases looked : (table.lookup (Bytes.ofString key.toText) :
                  Except (Stop Cause) (Option Ref)) with
              | error other =>
                  rw [looked] at stopped
                  cases stopped
                  unfold Table.lookup at looked
                  split at looked <;> cases looked
                  rfl
              | ok value =>
                  rw [looked] at stopped
                  cases value with
                  | none => exact ih stopped
                  | some value =>
                      simp only at stopped
                      split at stopped
                      · rename_i rest
                        cases stopped
                        exact ih rest
                      · cases stopped
          | _ => cases stopped

theorem slotKeys_answers (filled : store.Filled dict) :
    ∃ keys, MachineM.slotKeys store dict = .ok keys := by
  obtain ⟨payload, found⟩ := filled
  unfold MachineM.slotKeys
  rw [get_eq_ok_iff.mpr found]
  cases payload <;> exact ⟨_, rfl⟩

end Store

namespace MachineM

variable [Tracker τ] {machine : Machine τ} {held : List Ref}

omit [Tracker τ] in
/-- Counting leaves the machine as it is. -/
theorem nameCounts_ends {dict : Ref} (filled : machine.store.Filled dict) :
    Ends (onStore (StoreM.reading fun store => do
        return (← nameCounts dict store (← slotKeys store dict)).eraseDups) machine)
      (fun _ after => after = machine) fun _ _ => False := by
  obtain ⟨keys, listed⟩ := slotKeys_answers filled
  have read : Ends ((StoreM.reading fun store => do
      return (← nameCounts dict store (← slotKeys store dict)).eraseDups :
        StoreM τ (List (String × Nat))) machine.store)
      (fun _ store => store = machine.store) fun _ _ => False := by
    refine Ends.reading (fun _ _ => rfl) ?_ ?_ <;>
      rw [listed] <;>
      simp only [bind, Except.bind] <;>
      cases counted : nameCounts dict machine.store keys with
      | ok counts => simp [pure, Except.pure]
      | error stop =>
          obtain rfl := nameCounts_stops filled counted
          simp
  refine (onStore_ends read).mono ?_ ?_
  · rintro counts _ ⟨store, rfl, rfl⟩
    rfl
  · rintro failure _ ⟨cause, store, -, -, impossible⟩
    exact impossible

/-- A run that is counted leaves the host with what it had, and counts what there is more. -/
theorem runCounted_ends (fuel : Nat) (image : Image) (idle : machine.Idle held) :
    Ends (runCounted fuel image machine)
      (fun result after => after.Idle held ∧ ∀ counted, result = .ok counted →
        counted.left = after.store.entryCount - machine.store.entryCount)
      fun _ _ => False := by
  have prepared := reporting_answers idle (prepare_accounts idle.ready.sound image)
  show Ends ((reporting (prepare image) >>= _) machine) _ _
  refine Ends.bind prepared fun result middle ⟨left, _⟩ => ?_
  rcases result with report | ⟨code, module, globals⟩
  case error => exact ⟨left, nofun⟩
  case ok =>
      have owned :
          middle.Idle ((none : Option Ref).toList ++ ([code, globals, module] ++ held)) := by
        refine Idle.perm left ?_
        rw [List.perm_iff_count]
        intro ref
        simp [StoreM.Accounts.orNothing, List.count_cons]
        omega
      have parts : [code, globals, globals] ⊆ [code, globals, module] ++ held := by simp
      refine Ends.bind (evaluate_ends fuel owned parts) fun result evaluated concluded => ?_
      obtain ⟨object, shown, taken, rest, error, none_iff, -⟩ := takeObject_ok concluded.idle
      rw [StoreM.bind_ok taken]
      have loaded : shown.Idle ([code] ++ ([globals, module] ++ held)) := rest
      obtain ⟨counting, released, still, error', -⟩ := releaseAll_idle loaded
      rw [StoreM.bind_ok released]
      have filled : counting.store.Filled globals := (still.usable (by simp)).filled
      refine Ends.bind (nameCounts_ends filled) ?_
      rintro counts _ rfl
      obtain ⟨final, released', bare, error'', -⟩ := releaseAll_idle still
      rw [StoreM.bind_ok released']
      cases object with
      | some object =>
          refine ⟨bare, ?_⟩
          rintro counted same
          cases same
          rfl
      | none =>
          have isSet : final.error.isSome := by
            rw [error'', error', error]
            exact concluded.error.mp (none_iff.mp rfl)
          obtain ⟨report, last, required, finished, -⟩ := requireReport_ok bare isSet
          simp only
          rw [StoreM.bind_ok required]
          exact ⟨finished, nofun⟩

end MachineM

/-! ## Sessions -/

theorem ErrorKind.ofObject?_eq_some_iff {error : Ref} {kind : ErrorKind} :
    ErrorKind.ofObject? error = some kind ↔ error = kind.object := by
  constructor
  case mp =>
    intro found
    have named := List.find?_some found
    simpa using Eq.symm (of_decide_eq_true named)
  case mpr =>
    rintro rfl
    exact ofObject?_object kind

/-- The machine's own objects are what they were when the session started, and what depends
on them depends on nothing that was run. -/
structure Session.OwnObjectsStay (session : Session τ) : Prop where
  keeps : session.machine.store.KeepsOriginals
  /-- Neither the host nor a program holds the dictionary of built-in names. -/
  unseen :
    Ref.builtins ∉ session.refs ++ (session.machine.values.items ++ session.machine.errorRefs)
  /-- No frame has it for its own names. -/
  frames : ∀ activation ∈ session.machine.frames.items,
    activation.globals ≠ .builtins ∧ activation.locals ≠ .builtins
  /-- The current error is of a kind exactly if it is the error object of that kind. -/
  kinds : ∀ kind, MachineM.errorKind session.machine = .ok (some kind) session.machine ↔
    ∃ value, session.machine.error = some (kind.object, value)

namespace Session

variable [Tracker τ] {session : Session τ} {lost : List Ref} {log : List Event}

theorem Attained.ownObjectsStay {initial : τ} (attained : session.Attained initial lost log) :
    session.OwnObjectsStay := by
  obtain ⟨held, ready, known⟩ := attained.ready
  have keeps := ready.sound.keepsOriginals
  constructor
  case keeps => exact keeps
  case unseen =>
    intro member
    have owned :
        Ref.builtins ∈ held ++ (session.machine.values.items ++ session.machine.errorRefs) := by
      rcases List.mem_append.mp member with register | own
      · exact List.mem_append_left _ (known (List.mem_append_right _ register))
      · exact List.mem_append_right _ own
    exact (ready.sound.values _ owned).ne_builtins rfl
  case frames =>
    intro activation member
    obtain ⟨back, framed⟩ := (ready.placed activation member).frame
    have hidden := keeps.hidden _ _ framed
    simp only [Payload.children, List.mem_append, List.mem_cons, not_or] at hidden
    exact ⟨Ne.symm hidden.2.2.1, Ne.symm hidden.2.2.2.1⟩
  case kinds =>
    intro kind
    show EStateM.Result.ok (session.machine.error.bind fun error => ErrorKind.ofObject? error.1)
      session.machine = _ ↔ _
    cases set : session.machine.error with
    | none => simp
    | some pair =>
        obtain ⟨error, value⟩ := pair
        simp [ErrorKind.ofObject?_eq_some_iff]

/-- Whatever is run and asked for, and however a run is counted. -/
theorem own_objects_stay (initial : τ) :
    (∀ {session : Session τ} {lost log}, session.Attained initial lost log →
      session.OwnObjectsStay) ∧
    ∀ tracer fuel image, Ends (MachineM.runCounted fuel image (Machine.start initial tracer))
      (fun result after => after.store.KeepsOriginals ∧ ∀ counted, result = .ok counted →
        (Machine.start initial tracer).store.entryCount + counted.left = after.store.entryCount)
      fun _ _ => False := by
  refine ⟨fun {_ _ _} attained => attained.ownObjectsStay, fun tracer fuel image => ?_⟩
  refine (MachineM.runCounted_ends fuel image (idle_start initial tracer)).imp ?_
  rintro result after ⟨idle, counts⟩
  have keeps := idle.ready.sound.keepsOriginals
  refine ⟨keeps, fun counted same => ?_⟩
  have fresh : (Machine.start initial tracer).store.entryCount = initialCells.length - pinned := by
    show (initialCells.map some).toArray.countP Option.isSome - pinned = _
    have all : (initialCells.map some).countP Option.isSome = (initialCells.map some).length :=
      List.countP_eq_length.mpr (by simp)
    rw [List.countP_toArray, all, List.length_map]
  have room := keeps.room
  have left := counts counted same
  rw [fresh] at left ⊢
  unfold entryCount at left ⊢
  omega

/-- A frame is about to bind a built-in name to something else in its own dictionary, and a
run that does nothing leaves its module, whose name and dictionary are objects. -/
theorem own_objects_stay_shadowing :
    let loaded := (Session.start Unlimited.mk .off).next 0
      (.loadCode "code" ⟨"main", #[100, 0, 0, 90, 0, 0], [.int 42], ["none"]⟩)
    let bound := loaded.next 0 (.dict "names")
    let entered := bound.next 0 (.evaluate "result" "code" "names" "names" none)
    entered.machine.frames.height = 1 ∧ entered.OwnObjectsStay ∧
      ∃ counted after, MachineM.runCounted 5 ⟨"main", #[100, 0, 0, 83], [.int 42], []⟩
          (Machine.start Unlimited.mk .off) = .ok (.ok counted) after ∧ counted.left = 3 ∧
        (Machine.start Unlimited.mk .off).store.entryCount + counted.left =
          after.store.entryCount := by
  obtain ⟨_, loaded⟩ : ∃ events, (next 0 (.loadCode "code"
      ⟨"main", #[100, 0, 0, 90, 0, 0], [.int 42], ["none"]⟩)
      (Session.start Unlimited.mk .off)).Logged Unlimited.mk [] events :=
    (Logged.start .off).next (by decide +kernel)
  obtain ⟨_, bound⟩ : ∃ events, (next 0 (.dict "names") _).Logged Unlimited.mk [] events :=
    ⟨_, (loaded.next (by decide +kernel)).choose_spec⟩
  obtain ⟨_, entered⟩ :
      ∃ events, (next 0 (.evaluate "result" "code" "names" "names" none) _).Attained
      Unlimited.mk [] events :=
    ⟨_, (bound.enter (by decide +kernel)).choose_spec⟩
  obtain ⟨stay, counts⟩ := own_objects_stay Unlimited.mk
  refine ⟨by decide +kernel, stay entered, ?_⟩
  have left : (((MachineM.runCounted 5 ⟨"main", #[100, 0, 0, 83], [.int 42], []⟩).run'
      (Machine.start Unlimited.mk .off)).bind Except.toOption).map (·.left) = some 3 := by
    decide +kernel
  have ends := counts .off 5 ⟨"main", #[100, 0, 0, 83], [.int 42], []⟩
  unfold EStateM.run' at left
  cases ran : MachineM.runCounted 5 ⟨"main", #[100, 0, 0, 83], [.int 42], []⟩
      (Machine.start Unlimited.mk .off) with
  | error stop after =>
      rw [EStateM.run, ran] at left
      cases left
  | ok result after =>
      rw [EStateM.run, ran] at left
      rw [ran] at ends
      cases result with
      | error report => cases left
      | ok counted => exact ⟨counted, after, rfl, Option.some.inj left, ends.2 counted rfl⟩

end Session

end StackMachine

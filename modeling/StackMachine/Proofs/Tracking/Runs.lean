import StackMachine.Proofs.Tracking.Machine

/-!
# Calls from the host with a watched tracker

A call from the host meets no refusal but those that dictionaries get along with, or else it
hands over an error that was recorded.  So does the run of an image.

Where a tracker does not limit memory, it refuses no table.  So a run that ends with a value
was refused nothing at all, and goes the same way without limits.
-/

namespace StackMachine

variable {τ ρ π α β : Type} [Tracker τ] [Tracker ρ] [Tracker π] {view : View τ ρ π}

namespace Outcome

open Watching

variable {φ σ ψ : Type} [Watching σ ψ τ ρ]

variable [Failing φ] {act : EStateM (Stop φ) σ α} {other : EStateM (Stop φ) ψ α}
variable {before : Fate} {fate : α → Fate} {state : σ} {since : List Entry}

/-- What is known where an operation returns, whatever it is where it stops. -/
theorem Watches.returning (watches : Watches before act other fate)
    (accounts : before.Accounts since (watched state).log) :
    Mirrors act other state (fun value after => (fate value).Accounts since (watched after).log)
      fun _ _ => True :=
  (watches state since accounts).mono (fun _ _ => id) fun _ _ _ => trivial

/-- What is seen goes along with an operation, whatever went before. -/
theorem Watches.follows (watches : Watches before act other fate) (state : σ) :
    Mirrors act other state (fun _ _ => True) fun _ _ => True :=
  (watches state _ (.refl before _)).mono (fun _ _ _ => trivial) fun _ _ _ => trivial

end Outcome

open Outcome Watching

/-! ## Loading images -/

namespace StoreM

mutual

theorem loadImage_heeds (image : Image) : Heeds view (loadImage image) (loadImage image) := by
  match image with
  | { file, bytecode, constants, names } =>
      unfold loadImage
      exact (loadConstants_heeds constants #[]).bind fun _ => allocate_heeds _

theorem loadConstant_heeds (constant : Constant) :
    Heeds view (loadConstant constant) (loadConstant constant) := by
  match constant with
  | .none =>
      unfold loadConstant
      exact (acquire_cleans _).heeds
  | .int _ | .float _ | .text _ =>
      unfold loadConstant
      exact allocate_heeds _
  | .code image =>
      unfold loadConstant
      exact loadImage_heeds image

theorem loadConstants_heeds (constants : List Constant) (loaded : Array Ref) :
    Heeds view (loadConstants constants loaded) (loadConstants constants loaded) := by
  match constants with
  | [] =>
      unfold loadConstants
      exact .well loaded
  | constant :: rest =>
      unfold loadConstants
      refine (loadConstant_heeds constant).attempt.bind fun result => ?_
      cases result with
      | ok ref => exact loadConstants_heeds rest (loaded.push ref)
      | error cause => exact ((releaseAll_cleans loaded.toList).keeps _).bind fun _ => .throw cause

end

end StoreM

namespace MachineM

theorem prepare_heeds (image : Image) : StoreM.Heeds view (prepare image) (prepare image) :=
  (StoreM.loadImage_heeds image).bind fun _ =>
    (StoreM.orRelease_watches _ (StoreM.registerModule_heeds mainName)).bind fun _ =>
      (StoreM.orRelease_watches _ (StoreM.loadAttr_heeds _ _)).bind fun _ => .well _

/-! ## Calls -/

theorem takeError_cleans : Cleans view takeError takeError := by
  refine .get_bind fun machine => ?_
  have removed : Cleans view (modify fun machine => { machine with error := none })
      (modify fun machine => { machine with error := none }) :=
    .modify (fun _ => rfl) fun _ => rfl
  exact removed.bind fun _ => .pure machine.error

theorem releasePair_cleans (pair : Option (Ref × Ref)) :
    Cleans view (releasePair pair) (releasePair pair) := by
  rcases pair with _ | ⟨first, second⟩
  · exact .pure ()
  · exact releaseAll_cleans [first, second]

theorem clearTraceback_cleans : Cleans view clearTraceback clearTraceback := by
  refine .get_bind fun machine => ?_
  have removed : Cleans view (modify fun machine => { machine with traceback := none })
      (modify fun machine => { machine with traceback := none }) :=
    .modify (fun _ => rfl) fun _ => rfl
  exact removed.bind fun _ => releaseAll_cleans machine.traceback.toList

theorem clearError_cleans : Cleans view clearError clearError :=
  takeError_cleans.bind fun pair => (releasePair_cleans pair).bind fun _ => clearTraceback_cleans

theorem beginCall_cleans : Cleans view beginCall beginCall :=
  .get_bind fun _ => .ite (fun _ => clearError_cleans) fun _ => .pure ()

/-- A call from the host went well, or its failure was recorded. -/
def callFate : Option α → Fate
  | some _ => .fine
  | none => .recorded

theorem recording_watches {act : MachineM (Seen view) Ref} {other : MachineM π Ref}
    (heeds : Heeds view act other) :
    Watches .fine (recording act) (recording other) callFate := by
  refine heeds.attempt.bind fun result => ?_
  cases result with
  | ok value => exact .pure callFate (some value)
  | error failure => exact ((record_notes failure).records _).bind fun _ => .pure callFate none

theorem evaluate_watches (fuel : Nat) (code globals locals : Ref) (argument : Option Ref) :
    Watches .fine (evaluate fuel code globals locals argument : MachineM (Seen view) (Option Ref))
      (evaluate fuel code globals locals argument : MachineM π (Option Ref)) callFate :=
  beginCall_cleans.heeds.bind fun _ =>
    recording_watches (evaluateCode_heeds (runFrame_heeds fuel) code globals locals argument)

theorem invoke_watches (fuel : Nat) (callee : Ref) (argument : Option Ref) :
    Watches .fine (invoke fuel callee argument : MachineM (Seen view) (Option Ref))
      (invoke fuel callee argument : MachineM π (Option Ref)) callFate :=
  beginCall_cleans.heeds.bind fun _ =>
    recording_watches (call_heeds (runFrame_heeds fuel) callee argument)

/-! ## Reports -/

theorem toObjectWithin_plain (store : Store (Seen view)) (room : Nat) :
    (plain store : Store π).toObjectWithin room = store.toObjectWithin room := by
  have leaf : (plain store : Store π).showLeaf = store.showLeaf := by
    funext payload
    cases payload <;> rfl
  induction room with
  | zero =>
      funext visiting ref
      unfold Store.toObjectWithin
      simp only [leaf]
      rfl
  | succ room ih =>
      funext visiting ref
      unfold Store.toObjectWithin
      simp only [ih, leaf]
      rfl

theorem tracePoints_plain (store : Store (Seen view)) (length : Nat) (entry : Option Ref) :
    (plain store : Store π).tracePoints length entry = store.tracePoints length entry := by
  induction length generalizing entry with
  | zero => rfl
  | succ length ih =>
      cases entry with
      | none => rfl
      | some entry =>
          unfold Store.tracePoints
          simp only [ih]
          rfl

theorem toObject_heeds (ref : Ref) : Heeds view (toObject ref) (toObject ref) := by
  refine onStore_watches (.reading fun store => ?_)
  unfold Store.toObject
  rw [toObjectWithin_plain]

theorem display_heeds (ref : Ref) : Heeds view (display ref) (display ref) :=
  (toObject_heeds ref).bind fun _ => .well _

theorem message?_heeds (value : Ref) : Heeds view (message? value) (message? value) :=
  .ite (fun _ => .well none) fun _ => (display_heeds value).bind fun _ => .well _

theorem traceback_heeds : Heeds view traceback traceback := by
  refine .get_bind fun machine => onStore_watches (.reading fun store => ?_)
  exact tracePoints_plain store store.cells.size machine.traceback

theorem takeReport_heeds : Heeds view takeReport takeReport := by
  refine takeError_cleans.heeds.bind fun pair => ?_
  rcases pair with _ | ⟨error, value⟩
  · exact .well none
  · exact (display_heeds error).bind fun _ => (message?_heeds value).bind fun _ =>
      (traceback_heeds.bind fun _ => clearTraceback_cleans.heeds.bind fun _ => .well _).bind
        fun _ => (releaseAll_cleans _).heeds.bind fun _ => .well _

theorem requireReport_heeds : Heeds view requireReport requireReport := by
  refine takeReport_heeds.bind fun report => ?_
  cases report with
  | some report => exact .well report
  | none => exact .fault _

theorem takeObject_heeds (result : Option Ref) :
    Heeds view (takeObject result) (takeObject result) := by
  cases result with
  | none => exact .well none
  | some ref =>
      exact (toObject_heeds ref).bind fun _ => (releaseAll_cleans [ref]).heeds.bind fun _ => .well _

/-- An operation went well, or its failure was handed over as a report. -/
def reportFate : Except Report α → Fate
  | .ok _ => .fine
  | .error _ => .recorded

theorem reporting_watches {act : StoreM (Seen view) α} {other : StoreM π α}
    (heeds : StoreM.Heeds view act other) :
    Watches .fine (reporting act) (reporting other) reportFate := by
  refine onStore_watches (heeds.attempt.bind fun result => ?_)
  cases result with
  | ok value => exact .pure reportFate (.ok value)
  | error cause => exact (Watches.pure reportFate (.error (.ofCause cause))).forget

/-! ## Running an image -/

/-- Where the run of an image ends with a value, nothing was refused that matters. -/
theorem runImage_mirrors (view : View τ ρ π) (fuel : Nat) (image : Image)
    (machine : Machine (Seen view))
    {since : List Entry} (accounts : Fate.fine.Accounts since machine.store.tracker.log) :
    Mirrors (runImage fuel image) (runImage fuel image : MachineM π (Except Report Object)) machine
      (fun result after => ∀ object, result = .ok object →
        Fate.fine.Accounts since after.store.tracker.log)
      fun _ _ => True := by
  have failed (state : Machine (Seen view)) : Mirrors
      (requireReport >>= fun report => pure (.error report) :
        MachineM (Seen view) (Except Report Object))
      (requireReport >>= fun report => pure (.error report)) state
      (fun result after => ∀ object, result = .ok object →
        Fate.fine.Accounts since after.store.tracker.log) fun _ _ => True := by
    refine (requireReport_heeds.follows state).bind fun report after _ => ?_
    exact .ok (.error report) after rfl (fun _ => rfl) (.refl _) fun _ absurd => by cases absurd
  refine ((reporting_watches (prepare_heeds image)).returning accounts).bind ?_
  rintro (report | ⟨code, module, globals⟩) loaded known
  · exact .ok (.error report) loaded rfl (fun _ => rfl) (.refl _) fun _ absurd => by cases absurd
  refine ((releaseAll_cleans [module]).heeds.returning known).bind fun _ begun known => ?_
  refine ((evaluate_watches fuel code globals globals none).returning known).bind
    fun result ran known => ?_
  cases result with
  | none =>
      exact ((releaseAll_cleans [code, globals]).heeds.follows ran).bind fun _ tidy _ => failed tidy
  | some ref =>
      refine ((takeObject_heeds (some ref)).returning known).bind fun object taken known => ?_
      refine ((releaseAll_cleans [code, globals]).heeds.returning known).bind
        fun _ tidy tidied => ?_
      cases object with
      | none => exact failed tidy
      | some object => exact .ok (.ok object) tidy rfl (fun _ => rfl) (.refl _) fun _ _ => tidied

end MachineM

/-! ## Running without limits -/

theorem Unlimited.pose_granted (query : Query) (tracker : Unlimited) :
    (query.pose tracker).1 = none := by
  cases query <;> rfl

/-- Being asked does not change the limits of a meter. -/
theorem Meter.limits_pose (query : Query) (meter : Meter) :
    (query.pose meter).2.limits = meter.limits := by
  cases query
  case allocate size =>
      show (Meter.allocate size meter).2.limits = meter.limits
      unfold Meter.allocate
      split <;> [rfl; split <;> rfl]
  case insert =>
      show (Meter.insert meter).2.limits = meter.limits
      unfold Meter.insert
      split <;> rfl
  case tick =>
      show (Meter.tick meter).2.limits = meter.limits
      unfold Meter.tick
      split <;> [rfl; (dsimp only; split <;> rfl)]
  all_goals rfl

/-- A meter that does not limit memory grants every table. -/
theorem Meter.build_granted {meter : Meter} (unlimited : meter.limits.memory = none) (size : Nat) :
    Tracker.build size meter = none := by
  show Meter.memoryRefusal? meter _ = none
  unfold Meter.memoryRefusal?
  rw [unlimited]

/-- A watched meter that does not limit memory, and that was refused nothing but tables, agrees
with a companion that grants everything. -/
theorem Watched.agrees_unlimited {watched : Watched Meter Unlimited}
    (unlimited : watched.origin.1.limits.memory = none)
    (accounts : Fate.fine.Accounts [] watched.log) :
    (View.companion Meter Unlimited).Agrees watched := by
  obtain ⟨recent, logged, quiet⟩ := accounts
  rw [List.append_nil] at logged
  have asked := (watched.history.keeps (fun meter => meter.limits.memory = none)
    (fun query meter => by rw [Meter.limits_pose]; exact id) unlimited).2
  intro entry member
  obtain ⟨companion, echo⟩ := watched.history.echoes entry member
  obtain ⟨meter, unlimited, answer⟩ := asked entry member
  show entry.echo = entry.answer
  rw [echo, Unlimited.pose_granted]
  rcases quiet entry (logged ▸ member) with granted | ⟨size, -, table⟩
  · exact granted.symm
  · rw [answer, table]
    exact (Meter.build_granted unlimited _).symm

/-- A machine with a tracker that grants everything in the place of its own. -/
def Machine.unlimited (machine : Machine τ) : Machine Unlimited where
  store := ⟨machine.store.cells, machine.store.free, Unlimited.mk⟩
  values := machine.values
  frames := machine.frames
  error := machine.error
  traceback := machine.traceback
  tracer := machine.tracer

namespace MachineM

/-- An image that runs to a value under limits, of which none is on memory, runs to the same
value without limits, and leaves the same machine. -/
theorem runImage_unlimited {fuel : Nat} {image : Image} {limits : Limits} {elapsed : Duration}
    {tracer : Tracer} {object : Object} {after : Machine Meter} (memory : limits.memory = none)
    (ran : runImage fuel image (Machine.start (Meter.start limits elapsed) tracer) =
      .ok (.ok object) after) :
    runImage fuel image (Machine.start Unlimited.mk tracer) = .ok (.ok object) after.unlimited := by
  let start : Machine (Watched Meter Unlimited) :=
    .start (.start (Meter.start limits elapsed) Unlimited.mk) tracer
  have begun : Fate.fine.Accounts [] start.store.tracker.log := .refl _ _
  -- The run of the watched meter is seen as the run of the meter itself,
  obtain ⟨final, watchedRan, rfl, accounts⟩ :
      ∃ final : Machine (Seen (View.tracker Meter Unlimited)),
      runImage fuel image start = .ok (.ok object) final ∧ plain final = after ∧
      Fate.fine.Accounts [] final.store.tracker.log := by
    cases runImage_mirrors (View.tracker Meter Unlimited) fuel image start begun with
    | error stop final _ same _ _ => cases ran.symm.trans (same fun _ _ => trivial)
    | ok value final watchedRan same _ known =>
        cases ran.symm.trans (same fun _ _ => trivial)
        exact ⟨final, watchedRan, rfl, known object rfl⟩
  -- and as the run without limits.
  cases runImage_mirrors (View.companion Meter Unlimited) fuel image start begun with
  | error stop _ stopped _ _ _ => cases watchedRan.symm.trans stopped
  | ok _ _ ranToo same continues _ =>
      cases watchedRan.symm.trans ranToo
      have origin := congrArg (fun origin => origin.1.limits.memory) continues.origin
      exact same (Watched.agrees_unlimited (origin.trans memory) accounts)

/-- Is this the tuple of the number 42? -/
def isAnswer : Except Report Object → Bool
  | .ok (.tuple [.int 42]) => true
  | _ => false

/-- A tuple that is made within limits is made without limits. -/
theorem runImage_unlimited_tuple :
    let image : Image := ⟨"main", #[100, 0, 0, 102, 1, 0, 83], [.int 42], []⟩
    let limits : Limits := ⟨some 3, some 9, none, none, some 1⟩
    ∃ after, runImage 4 image (Machine.start (Meter.start limits ⟨0, 0⟩) .off) =
        .ok (.ok (.tuple [.int 42])) after ∧
      runImage 4 image (Machine.start Unlimited.mk .off) =
        .ok (.ok (.tuple [.int 42])) after.unlimited := by
  intro image limits
  have tested : (match runImage 4 image (Machine.start (Meter.start limits ⟨0, 0⟩) .off) with
      | .ok result _ => isAnswer result
      | .error _ _ => false) = true := by
    decide +kernel
  split at tested
  case h_1 result after ran =>
    unfold isAnswer at tested
    split at tested
    · exact ⟨after, ran, runImage_unlimited rfl ran⟩
    · cases tested
  case h_2 => cases tested

end MachineM

end StackMachine

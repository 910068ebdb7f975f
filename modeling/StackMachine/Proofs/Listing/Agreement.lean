import StackMachine.Proofs.Listing.Entries
import StackMachine.Proofs.Machine.Effects

/-!
# Listings and runs agree

A machine that is at an entry of the listing of its code makes of it what the listing shows:
it carries out the instruction with its operand, or fails since there is none.  The errors of
reading an instruction are raised where the listing has no instruction or finds no detail, and
nowhere else.  A detail that is an offset is where the instruction goes to.

Neither the values nor the other objects of the machine matter for that.  All that ties it to the
listing is that the code object of its innermost frame holds the code of the image, as one that
was loaded does.
-/

namespace StackMachine

open Outcome Listing Store

/-! ## Code objects -/

/-- A code object holds the code of an image. -/
structure CodeObject.Holds (object : CodeObject) (image : Image) : Prop where
  bytecode : object.bytecode = image.bytecode
  names : object.names = image.names.toArray
  constants : object.constants.size = image.constants.length

namespace StoreM

variable {τ : Type} [Tracker τ] {store after : Store τ} {held inner : List Ref}

theorem loadConstants_size {constants : List Constant} {loaded all : Array Ref}
    (ran : loadConstants constants loaded store = .ok all after) :
    all.size = loaded.size + constants.length := by
  induction constants generalizing loaded store with
  | nil =>
      unfold loadConstants at ran
      cases ran
      rfl
  | cons constant rest ih =>
      unfold loadConstants at ran
      obtain ⟨result, middle, -, ran⟩ := bind_eq_ok ran
      cases result with
      | ok ref =>
          rw [ih ran, Array.size_push, List.length_cons]
          omega
      | error cause =>
          obtain ⟨_, _, -, raised⟩ := bind_eq_ok ran
          cases raised

/-- An image that is loaded becomes an object that holds its code. -/
theorem loadImage_holds {image : Image} {ref : Ref} (sound : store.Sound held inner)
    (ran : loadImage image store = .ok ref after) :
    ∃ object, after.payload? ref = some (.code object) ∧ object.Holds image := by
  match image with
  | { file, bytecode, constants, names } =>
      unfold loadImage at ran
      obtain ⟨loaded, middle, all, made⟩ := bind_eq_ok ran
      have owned : store.Sound ((#[] : Array Ref).toList ++ held) inner := sound
      have left := (loadConstants_accounts constants owned).of_ok all
      obtain ⟨-, found⟩ := (allocate_code_knowing left.sound).of_ok made
      have size := loadConstants_size all
      rw [Array.size_empty, Nat.zero_add] at size
      exact ⟨_, found, rfl, rfl, size⟩

end StoreM

variable {τ : Type} {machine : Machine τ} {activation : Activation} {callers : List Activation}
variable {own below held : List Ref} {image : Image}

/-- The innermost frame of a machine runs the code of an image. -/
structure Machine.Executes (machine : Machine τ) (activation : Activation) (image : Image) :
    Prop where
  bytecode : activation.bytecode = image.bytecode
  names : activation.names = image.names.toArray
  constants : ∃ object, machine.store.payload? activation.code = some (.code object) ∧
    object.constants.size = image.constants.length

/-- So does every frame that was entered for an object that holds it. -/
theorem Machine.Within.executes {object : CodeObject}
    (within : machine.Within activation callers below held)
    (coded : machine.store.payload? activation.code = some (.code object))
    (holds : object.Holds image) : machine.Executes activation image := by
  obtain ⟨other, found, -, bytecode, names⟩ :=
    (within.ready.placed activation (within.frames ▸ List.mem_cons_self)).code
  obtain rfl : object = other := by
    rw [coded] at found
    cases found
    rfl
  exact ⟨bytecode.symm.trans holds.bytecode, names.symm.trans holds.names, object, coded,
    holds.constants⟩

/-- In particular the frame that is entered for an image that was loaded. -/
theorem Machine.executes_of_loaded [Tracker τ] {before : Store τ} {kept inner : List Ref}
    {inside : Machine τ} (sound : before.Sound kept inner)
    (loaded : StoreM.loadImage image before = .ok activation.code machine.store)
    (entered : MachineM.Entered machine held [] inside) (member : activation.code ∈ held)
    (within : inside.Within activation callers below held) :
    inside.Executes activation image := by
  obtain ⟨object, found, holds⟩ := StoreM.loadImage_holds sound loaded
  have anchored : machine.store.Anchored ((machine.values.items ++ held) ++ machine.fixtures)
      activation.code :=
    .held (List.mem_append_left _ (List.mem_append_right _ member))
  exact within.executes (entered.retains.fixed anchored found rfl) holds

/-! ## Operands -/

namespace FrameM

variable {state : FrameState τ} {op : Opcode} {operand : Nat}

theorem get_bind {β : Type} {ref : Ref} {payload : Payload}
    (found : state.store.payload? ref = some payload) (next : Payload → FrameM τ β) :
    (onStore (StoreM.get ref) >>= next) state = next payload state :=
  StoreM.bind_ok (onStore_eq (StoreM.get_eq found))

variable [Tracker τ] {object : CodeObject}
variable (names : state.activation.names = image.names.toArray)
variable (coded : state.store.payload? state.activation.code = some (.code object))
variable (sized : object.constants.size = image.constants.length)

include names coded sized

/-- An instruction whose operand is not found fails at once. -/
theorem execute_missing (absent : lookup? image op operand = some none) (next : Nat) :
    execute op operand next state = .error (.failed op.missing) state := by
  unfold lookup? at absent
  split at absent
  · rename_i same
    subst same
    have outside : object.constants[operand]? = none := by
      simp only [Option.some.injEq, Option.map_eq_none_iff, List.getElem?_eq_none_iff] at absent
      rw [Array.getElem?_eq_none_iff, sized]
      exact absent
    show loadConst operand state = _
    rw [loadConst, asks_bind, get_bind coded]
    simp only [outside]
    rfl
  split at absent
  · rename_i named
    obtain ⟨rest, -, same⟩ := execute_named (τ := τ) named operand next
    have outside : state.activation.names[operand]? = none := by
      rw [names, List.getElem?_toArray]
      exact Option.some.inj absent
    have failed : nameAt operand state = .error (.failed .nameIndex) state := by
      rw [nameAt, asks_bind]
      simp only [outside]
      rfl
    rw [same, bind_error failed]
    cases op <;> first | rfl | cases named
  split at absent
  · rename_i same
    subst same
    simp only [Option.some.injEq, Option.map_eq_none_iff] at absent
    show compare operand state = _
    rw [compare, absent]
    rfl
  · cases absent

/-- Once its operand is found, an instruction has been read. -/
theorem execute_found (present : lookup? image op operand ≠ some none) {next : Nat}
    {cause : Cause} {after : FrameState τ}
    (failed : execute op operand next state = .error (.failed cause) after) :
    cause.isDecoding = false := by
  unfold lookup? at present
  split at present
  · rename_i same
    subst same
    have inside : operand < object.constants.size := by
      simpa [sized] using present
    change loadConst operand state = _ at failed
    rw [loadConst, asks_bind, get_bind coded] at failed
    simp only [Array.getElem?_eq_getElem inside] at failed
    exact pushing_sparesDecoding (StoreM.acquire_sparesCode _) state cause after failed
  split at present
  · rename_i named
    obtain ⟨rest, spares, same⟩ := execute_named (τ := τ) named operand next
    obtain ⟨name, found⟩ :=
      Option.ne_none_iff_exists'.mp fun absent => present (congrArg some absent)
    have read : nameAt operand state = .ok name state := by
      rw [nameAt, asks_bind, names, List.getElem?_toArray, found]
      rfl
    rw [same, StoreM.bind_ok read] at failed
    exact spares name state cause after failed
  split at present
  · rename_i same
    subst same
    obtain ⟨comparison, found⟩ : ∃ comparison, Comparison.ofOperand? operand = some comparison := by
      rw [← Option.isSome_iff_exists, Option.isSome_iff_ne_none]
      rintro absent
      rw [absent] at present
      exact present rfl
    exact compare_sparesDecoding found state cause after failed
  · rename_i constant named comparison
    exact execute_sparesDecoding (Bool.eq_false_iff.mpr named) constant comparison operand next
      state cause after failed

end FrameM

/-! ## Instructions -/

namespace MachineM

variable [Tracker τ] {run : MachineM τ Ref} {after : Machine τ} {op : Opcode} {operand next : Nat}

theorem dispatch_of_inside (inside : op.reachesOut = false) :
    dispatch run op operand next = do
      onFrame (FrameM.execute op operand next)
      return .next := by
  cases op <;> first | rfl | cases inside

theorem inside_of_lookup {found : Option String} (looked : lookup? image op operand = some found) :
    op.reachesOut = false := by
  cases op <;> first | rfl | cases looked

variable (frames : machine.frames.items = activation :: callers)
variable (executes : machine.Executes activation image)

include frames executes

/-- An instruction whose operand is not found does nothing but say so. -/
theorem dispatch_missing (absent : lookup? image op operand = some none) :
    dispatch run op operand next machine = .error (.failed (.raised op.missing)) machine := by
  obtain ⟨object, coded, sized⟩ := executes.constants
  have failed : FrameM.execute op operand next ⟨machine.store, machine.values, activation⟩ = _ :=
    FrameM.execute_missing executes.names coded sized absent next
  rw [dispatch_of_inside (inside_of_lookup absent)]
  exact bind_error (onFrame_unchanged frames failed)

/-- Once its operand is found, an instruction has been read. -/
theorem dispatch_found (spares : SparesCode run) (present : lookup? image op operand ≠ some none)
    {failure : Failure}
    (failed : dispatch run op operand next machine = .error (.failed failure) after) :
    failure.isDecoding = false := by
  cases reaches : op.reachesOut with
  | true =>
      refine dispatch_sparesDecoding spares ?_ machine failure after failed
      cases op <;> first | exact .pure () | cases reaches
  | false =>
      obtain ⟨object, coded, sized⟩ := executes.constants
      rw [dispatch_of_inside reaches] at failed
      have stopped := NeverFails.bind_failed (fun _ => .pure Flow.next) failed
      cases result : FrameM.execute op operand next ⟨machine.store, machine.values, activation⟩ with
      | ok value state =>
          obtain ⟨_, -, done⟩ := onFrame_eq frames result
          cases done.symm.trans stopped
      | error stop state =>
          obtain ⟨_, -, done⟩ := onFrame_error frames result
          cases stop with
          | failed cause =>
              cases done.symm.trans stopped
              exact FrameM.execute_found executes.names coded sized present result
          | fault broken => cases done.symm.trans stopped
          | unfinished => cases done.symm.trans stopped

end MachineM

/-! ## Entries -/

/-- Where a frame goes on after an instruction that has a target: there, or right behind the
instruction if that may be; or it is in a block that ends there. -/
def Opcode.Reaches (op : Opcode) (target next : Nat) (before after : Activation) : Prop :=
  match op with
  | .jumpForward | .jumpAbsolute => after.offset = target
  | .setup kind => ∃ level, after = { before with
      offset := next, blocks := ⟨kind, target, level⟩ :: before.blocks }
  | _ => after.offset = next ∨ after.offset = target

theorem Opcode.reaches_of_continues {op : Opcode} {operand next target given : Nat}
    {before after : Activation} (goes : op.target? operand next = some target)
    (continues : op.Continues operand next { before with offset := next } after given) :
    op.Reaches target next before after := by
  cases op with
  | jumpForward | jumpAbsolute =>
      cases goes
      exact continues.2
  | jumpIfFalse | jumpIfTrue =>
      cases goes
      exact continues.2
  | forLoop =>
      cases goes
      exact continues.imp (·.2) (·.2)
  | setup kind =>
      cases goes
      exact continues.2
  | _ => cases goes

namespace Listing

open MachineM

variable [Tracker τ] {entry : Entry}

/-- What a frame that is at the offset of an entry reads there. -/
def Entry.Decodes (entry : Entry) (run : MachineM τ Ref) (machine : Machine τ)
    (activation : Activation) (callers : List Activation) : Prop :=
  match entry.fetched with
  | .instruction op operand next =>
      ∃ (frames : Stack Activation) (tracer : Tracer),
        frames.items = { activation with offset := next } :: callers ∧
        step run machine = dispatch run op operand next { machine.ticked with frames, tracer }
  | .unknown _ => step run machine = .error (.failed (.raised .unknownOpcode)) machine.ticked
  | .truncated _ | .pastEnd =>
      step run machine = .error (.failed (.raised .codeEnd)) machine.ticked

/-- A frame that is at the offset of an entry makes of it what the entry shows. -/
structure Entry.Agrees (entry : Entry) (image : Image) (fuel : Nat) (machine : Machine τ)
    (activation : Activation) (callers : List Activation) : Prop where
  /-- It carries out the instruction that is shown, or fails since none is. -/
  decodes : entry.Decodes (runFrame fuel) machine activation callers
  /-- It fails while reading the instruction or looking its operand up exactly if the entry has no
  instruction, or none with an operand that is found. -/
  fails : ∀ cause, cause.isDecoding = true →
    ((∃ after, step (runFrame fuel) machine = .error (.failed (.raised cause)) after) ↔
      entry.fault? image = some cause)
  /-- It goes where the detail of the entry says. -/
  goes : ∀ op operand next target after, entry.fetched = .instruction op operand next →
    op.target? operand next = some target → step (runFrame fuel) machine = .ok .next after →
    ∃ new, after.frames.items = new :: callers ∧ op.Reaches target next activation new

/-- What an entry shows behind the operand. -/
structure Entry.Details (entry : Entry) (image : Image) : Prop where
  target : ∀ op operand next target, entry.fetched = .instruction op operand next →
    op.target? operand next = some target →
    line image entry = entry.columns op operand ++ " (" ++ ("to " ++ toString target) ++ ")"
  lookup : ∀ op operand next found, entry.fetched = .instruction op operand next →
    lookup? image op operand = some found →
    line image entry = entry.columns op operand ++ " (" ++ found.getD "?" ++ ")"

omit [Tracker τ] in
theorem entry_details (entry : Entry) (image : Image) : entry.Details image where
  target _ _ _ _ known goes :=
    line_of_detail known (hasOperand_of_target goes) (detail?_of_target goes)
  lookup _ _ _ _ known looked :=
    line_of_detail known (hasOperand_of_lookup looked) (detail?_of_lookup looked)

section

variable (fuel : Nat) (stands : Stands machine activation callers own below)
variable (executes : machine.Executes activation image)
variable (granted : (Tracker.tick machine.store.tracker).1 = none)
variable (fetched : entry.fetched = Fetched.read image.bytecode activation.offset)

include stands executes granted fetched

theorem decodes_of_fetched (run : MachineM τ Ref) :
    entry.Decodes run machine activation callers := by
  have reading : Fetched.read activation.bytecode activation.offset = entry.fetched := by
    rw [executes.bytecode, fetched]
  have asked : machine.ticked.frames.items = activation :: callers := stands.frames
  unfold Entry.Decodes
  cases known : entry.fetched with
  | instruction op operand next =>
      exact step_dispatches (onStore_tick granted) asked stands.items stands.base
        (reading.trans known)
  | pastEnd | truncated op | unknown byte =>
      show step run machine = _
      rw [step, StoreM.bind_ok (onStore_tick granted), StoreM.bind_ok (fetch_eq asked), reading,
        known]
      rfl

theorem agrees_of_fetched : entry.Agrees image fuel machine activation callers := by
  have decodes := decodes_of_fetched stands executes granted fetched (runFrame fuel)
  refine ⟨decodes, fun cause reads => ?_, fun op operand next target after known goes ran => ?_⟩
  · unfold Entry.Decodes at decodes
    unfold Entry.fault?
    cases known : entry.fetched with
    | pastEnd | truncated op | unknown byte =>
        rw [known] at decodes
        simp only at decodes ⊢
        rw [decodes]
        simp
    | instruction op operand next =>
        rw [known] at decodes
        obtain ⟨frames, tracer, items, same⟩ := decodes
        have inside : Machine.Executes { machine.ticked with frames, tracer }
            { activation with offset := next } image :=
          ⟨executes.bytecode, executes.names, executes.constants⟩
        simp only
        rw [same]
        split
        · rename_i absent
          rw [dispatch_missing items inside absent]
          simp
        · rename_i present
          simp only [reduceCtorEq, iff_false]
          rintro ⟨after, failed⟩
          have other := dispatch_found items inside (runFrame_sparesCode fuel) present failed
          exact Bool.false_ne_true (other.symm.trans reads)
  · unfold Entry.Decodes at decodes
    rw [known] at decodes
    obtain ⟨frames, tracer, items, same⟩ := decodes
    have stands' : Stands { machine.ticked with frames, tracer } { activation with offset := next }
        callers own below := ⟨items, stands.items, stands.base⟩
    have acts : Acts (dispatch (runFrame fuel) op operand next) _ _ _ _ _ _ _ :=
      dispatch_acts stands' (runFrame_local fuel) (runFrame_sparesCode fuel)
    obtain ⟨-, new, _, _, fresh, -, -, continues, left⟩ := acts.returns (same ▸ ran)
    exact ⟨new, left.frames, Opcode.reaches_of_continues goes continues⟩

end

/-- The listing of an image is made of the entries of its code and of the code nested in it.  These
cover the code byte by byte, from its start on, and each of them shows what a machine makes of it
whose innermost frame is there. -/
theorem entries_agree (image : Image) :
    lines image = codeLines image ++ (image.nested.flatMap fun inner => "" :: codeLines inner) ∧
    (entries image.bytecode).flatMap (Entry.span image.bytecode) =
      List.range image.bytecode.size ∧
    ∀ entry ∈ entries image.bytecode, 0 < entry.width image.bytecode ∧ entry.Details image ∧
      ∀ (fuel : Nat) (machine : Machine τ) (activation : Activation) (callers : List Activation)
        (own below : List Ref), Stands machine activation callers own below →
        machine.Executes activation image → activation.offset = entry.offset →
        (Tracker.tick machine.store.tracker).1 = none →
        entry.Agrees image fuel machine activation callers := by
  refine ⟨lines_eq image, ?_, fun entry listed =>
    ⟨width_pos listed, entry_details entry image, ?_⟩⟩
  · rw [List.range_eq_range']
    exact span_entriesFrom image.bytecode 0
  · intro fuel machine activation callers own below stands executes here granted
    obtain ⟨-, fetched⟩ := of_mem_entriesFrom listed
    rw [← here] at fetched
    exact agrees_of_fetched fuel stands executes granted fetched

/-- Code that loads a constant that it does not have, and ends in the middle of a jump. -/
theorem entries_agree_missing_constant : ∃ (machine : Machine Unlimited) (activation : Activation),
    Stands machine activation [] [] [] ∧
    machine.Executes activation ⟨"main", #[100, 7, 0, 2, 113, 0], [], []⟩ ∧
    activation.offset = 0 ∧ (Tracker.tick machine.store.tracker).1 = none ∧
    entries #[100, 7, 0, 2, 113, 0] =
      [⟨0, .instruction .loadConst 7 3⟩, ⟨3, .instruction .rotTwo 0 4⟩,
        ⟨4, .truncated .jumpAbsolute⟩] ∧
    Entry.Agrees ⟨0, .instruction .loadConst 7 3⟩ ⟨"main", #[100, 7, 0, 2, 113, 0], [], []⟩ 0
      machine activation [] := by
  let begun := Machine.start Unlimited.mk .off
  let named : Store Unlimited :=
    { begun.store with cells := begun.store.cells.push (some ⟨1, some (.dict .empty)⟩) }
  obtain ⟨stored, loaded, opened, entered, places, values, granted⟩ : ∃ stored,
      StoreM.loadImage ⟨"main", #[100, 7, 0, 2, 113, 0], [], []⟩ named = .ok ⟨20⟩ stored ∧
      ∃ opened, enterFrame ⟨20⟩ ⟨19⟩ ⟨19⟩ { begun with store := stored } = .ok () opened ∧
      opened.frames.items.map (fun activation => (activation.offset, activation.code)) =
        [(0, ⟨20⟩)] ∧
      opened.values.items = [] ∧ (Tracker.tick opened.store.tracker).1 = none := by
    unfold StoreM.loadImage
    exact ⟨_, rfl, _, rfl, rfl, rfl, rfl⟩
  have naming : Machine.Idle { begun with store := named } [⟨19⟩] :=
    idle_of_allocate (Machine.idle_start Unlimited.mk .off) rfl
      (fun table same => by cases same; exact Table.valid_empty) (by decide) rfl
  have left := (StoreM.loadImage_accounts _ naming.ready.sound).of_ok loaded
  have holding := (naming.ready.stays_of_leaves left).idle naming
  have inside := ((enterFrame_ends holding.ready (by simp)).of_ok entered).2
  obtain ⟨activation, -, within⟩ := inside.within
  rw [within.frames] at places
  simp only [List.map_cons, List.cons.injEq, Prod.mk.injEq] at places
  obtain ⟨⟨offset, code⟩, -⟩ := places
  have stands : Stands opened activation [] [] [] := ⟨within.frames, values, within.base⟩
  have executes : opened.Executes activation ⟨"main", #[100, 7, 0, 2, 113, 0], [], []⟩ :=
    Machine.executes_of_loaded naming.ready.sound (code ▸ loaded) inside (by simp [code]) within
  have listed : entries #[100, 7, 0, 2, 113, 0] = [⟨0, .instruction .loadConst 7 3⟩,
      ⟨3, .instruction .rotTwo 0 4⟩, ⟨4, .truncated .jumpAbsolute⟩] := by
    decide +kernel
  refine ⟨opened, activation, stands, executes, offset, granted, listed, ?_⟩
  refine ((entries_agree ⟨"main", #[100, 7, 0, 2, 113, 0], [], []⟩).2.2 _ ?_).2.2 0 opened
    activation [] [] [] stands executes offset granted
  rw [listed]
  exact List.mem_cons_self

end Listing

end StackMachine

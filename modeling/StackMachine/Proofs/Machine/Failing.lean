import StackMachine.Proofs.Machine.Effects
import StackMachine.Proofs.Store.Constructing

/-!
# Instructions that fail

An instruction that fails has taken some of its operands off its frame, or none, and has given each
of them back.  What else was done is undone: what it made is gone, and what it wanted to change is
as it was, but for tables that have been rebuilt with the same entries.

Calls of functions and of bound methods run code of their own, and are left out.
-/

namespace StackMachine

open Store StoreM Outcome

variable {τ α β : Type}

namespace Checkpoint

variable {point : Checkpoint τ} {most need count index : Nat} {taken kept refs : List Ref}
variable {own below : List Ref}

/-- Of the values `own` of a frame, which lie above others, some of the first `most` are gone, and
the store owes as much for them as if they had been given back. -/
def Forfeits (point : Checkpoint τ) (most : Nat) (own below : List Ref) (before : Store τ)
    (values : Stack Ref) (after : Store τ) : Prop :=
  ∃ count ≤ most, count ≤ own.length ∧ values.items = own.drop count ++ below ∧
    ∀ more, point.Owes (own.take count ++ more) before → point.Owes more after

/-- Nothing was done but to ask the tracker. -/
theorem Forfeits.untouched {before : Store τ} {values : Stack Ref}
    (items : values.items = own ++ below)
    (tracker : τ) : point.Forfeits most own below before values { before with tracker } :=
  ⟨0, Nat.zero_le _, Nat.zero_le _, items, fun _ owes => owes.withTracker tracker⟩

/-- Where an operation that has taken references over fails, it has left the values of its frame
alone, and the store owes nothing for the references. -/
def AbortsWithin (point : Checkpoint τ) (act : FrameM τ α) (taken : List Ref) : Prop :=
  ∀ state cause after, act state = .error (.failed cause) after → after.values = state.values ∧
    ∀ more, point.Owes (taken ++ more) state.store → point.Owes more after.store

/-- Where an operation fails, it has taken at most `most` values and given them back. -/
def BacksOut (point : Checkpoint τ) (act : FrameM τ α) (most : Nat) : Prop :=
  ∀ ⦃state after : FrameState τ⦄ ⦃own below : List Ref⦄ ⦃cause : Cause⦄, state.Splits own below →
    act state = .error (.failed cause) after →
      point.Forfeits most own below state.store after.values after.store

namespace AbortsWithin

variable {act : FrameM τ α} {next : α → FrameM τ β} {gives : α → List Ref}

theorem perm (aborts : point.AbortsWithin act taken) (same : kept.Perm taken) :
    point.AbortsWithin act kept := by
  intro state cause after failed
  obtain ⟨values, owed⟩ := aborts state cause after failed
  exact ⟨values, fun more owes => owed more (owes.perm (same.append_right more))⟩

theorem of_never (never : NeverFails act) : point.AbortsWithin act taken :=
  fun state cause after failed => absurd failed (never state cause after)

theorem raise (cause : Cause) : point.AbortsWithin (FrameM.raise cause : FrameM τ α) [] := by
  intro state other after failed
  cases failed
  exact ⟨rfl, fun _ owes => owes⟩

theorem asks_bind {read : Activation → α} (rest : ∀ value, point.AbortsWithin (next value) taken) :
    point.AbortsWithin (FrameM.asks read >>= next) taken :=
  fun state cause after failed => rest _ state cause after failed

/-- An operation on the store comes first. -/
theorem onStore_bind {act : StoreM τ α} (first : point.Reverts act taken gives)
    (rest : ∀ value, point.AbortsWithin (next value) (gives value)) :
    point.AbortsWithin (FrameM.onStore act >>= next) taken := by
  intro state cause after failed
  rcases FrameM.onStore_bind_cases act next state with
    ⟨value, store, worked, same⟩ | ⟨stop, store, worked, same⟩
  · rw [same] at failed
    obtain ⟨values, owed⟩ := rest value _ cause after failed
    exact ⟨values, fun more owes => owed more (first.returns more _ value store owes worked)⟩
  · rw [same] at failed
    cases failed
    exact ⟨rfl, fun more owes => first.fails more _ cause store owes worked⟩

/-- An operation that does not fail may leave references for what comes after. -/
theorem onStore_bind_keeping {act : StoreM τ α} (first : point.Reverts act taken gives)
    (never : NeverFails act)
    (rest : ∀ value, point.AbortsWithin (next value) (gives value ++ kept)) :
    point.AbortsWithin (FrameM.onStore act >>= next) (taken ++ kept) :=
  onStore_bind (first.keeping kept never) rest

theorem acquire_bind {ref : Ref} {next : Ref → FrameM τ β}
    (rest : ∀ value, point.AbortsWithin (next value) (ref :: taken)) :
    point.AbortsWithin (FrameM.onStore (StoreM.acquire ref) >>= next) taken := by
  intro state cause after failed
  rcases FrameM.onStore_bind_cases (StoreM.acquire ref) next state with
    ⟨value, store, worked, same⟩ | ⟨stop, store, worked, same⟩
  · rw [same] at failed
    obtain ⟨values, owed⟩ := rest value _ cause after failed
    exact ⟨values, fun more owes => owed more (owes.acquired worked).2⟩
  · rw [same] at failed
    cases failed
    exact absurd worked (neverFails_acquire ref _ cause store)

theorem look_bind {act : StoreM τ α} (looks : Looks act)
    (rest : ∀ value, point.AbortsWithin (next value) taken) :
    point.AbortsWithin (FrameM.onStore act >>= next) taken :=
  onStore_bind_keeping (.of_looks looks) looks.never rest

/-- What comes after an operation on the store does not fail. -/
theorem followed {act : StoreM τ α} (aborts : point.Aborts act taken)
    (never : ∀ value, NeverFails (next value)) :
    point.AbortsWithin (FrameM.onStore act >>= next) taken := by
  intro state cause after failed
  rcases FrameM.onStore_bind_cases act next state with
    ⟨value, store, worked, same⟩ | ⟨stop, store, worked, same⟩
  · rw [same] at failed
    exact absurd failed (never value _ cause after)
  · rw [same] at failed
    cases failed
    exact ⟨rfl, fun more owes => aborts more _ cause store owes worked⟩

theorem onStore {act : StoreM τ α} (aborts : point.Aborts act taken) :
    point.AbortsWithin (FrameM.onStore act) taken := by
  have whole : point.AbortsWithin (FrameM.onStore act >>= pure) taken :=
    followed aborts fun value => .pure value
  rwa [bind_pure] at whole

theorem neverFails_push (value : Ref) : NeverFails (FrameM.push value : FrameM τ Unit) :=
  fun _ _ _ failed => by cases failed

/-- A result is put on top. -/
theorem pushing {act : StoreM τ Ref} (aborts : point.Aborts act taken) :
    point.AbortsWithin (FrameM.onStore act >>= FrameM.push) taken :=
  followed aborts neverFails_push

variable [Tracker τ]

/-- References are given back before something else is done. -/
theorem releaseAll_bind {next : Unit → FrameM τ α} (rest : point.AbortsWithin (next ()) taken) :
    point.AbortsWithin (FrameM.releaseAll refs >>= next) (refs ++ taken) :=
  onStore_bind_keeping (.releaseAll refs) (neverFails_releaseAll refs) fun _ => rest

theorem releaseAll_raise (refs : List Ref) (cause : Cause) : point.AbortsWithin (do
    FrameM.releaseAll refs
    FrameM.raise cause : FrameM τ α) refs :=
  onStore_bind (.releaseAll refs) fun _ => raise cause

end AbortsWithin

namespace BacksOut

variable {act : FrameM τ α} {next : α → FrameM τ β} {gives : α → List Ref}

/-- The operation takes no values. -/
theorem within (aborts : point.AbortsWithin act []) : point.BacksOut act most := by
  intro state after own below cause splits failed
  obtain ⟨values, owed⟩ := aborts state cause after failed
  exact ⟨0, Nat.zero_le _, Nat.zero_le _, values ▸ splits.items, owed⟩

theorem raise (cause : Cause) : point.BacksOut (FrameM.raise cause : FrameM τ α) most :=
  within (.raise cause)

theorem of_never (never : NeverFails act) : point.BacksOut act most :=
  within (.of_never never)

theorem asks_bind {read : Activation → α} (rest : ∀ value, point.BacksOut (next value) most) :
    point.BacksOut (FrameM.asks read >>= next) most :=
  fun _ _ _ _ _ splits failed => rest _ splits failed

/-- A name is looked up before values are taken. -/
theorem nameAt_bind {next : String → FrameM τ β} (rest : ∀ name, point.BacksOut (next name) most) :
    point.BacksOut (FrameM.nameAt index >>= next) most := by
  unfold FrameM.nameAt
  rw [bind_assoc]
  refine asks_bind fun found => ?_
  cases found with
  | some name => exact rest name
  | none => exact raise _

theorem depth_bind {next : Nat → FrameM τ β} (rest : ∀ count, point.BacksOut (next count) most) :
    point.BacksOut (FrameM.depth >>= next) most := by
  intro state after own below cause splits failed
  rw [StoreM.bind_ok (FrameM.depth_eq splits)] at failed
  exact rest _ splits failed

/-- Once it is known that there are enough values, nothing can fail. -/
theorem requireDepth_bind {next : Unit → FrameM τ β} (never : NeverFails (next ())) :
    point.BacksOut (FrameM.requireDepth need >>= next) most := by
  intro state after own below cause splits failed
  have required := FrameM.requireDepth_eq splits need
  split at required
  · rw [bind_error required] at failed
    cases failed
    exact .untouched splits.items state.store.tracker
  · rw [StoreM.bind_ok required] at failed
    exact absurd failed (never state cause after)

/-- Values are taken before anything else is done. -/
theorem taking (takes : FrameM.Takes act need count gives)
    (rest : ∀ value, (gives value).length = count → point.AbortsWithin (next value) (gives value)) :
    point.BacksOut (act >>= next) count := by
  intro state after own below cause splits failed
  rcases Nat.lt_or_ge own.length need with few | inside
  · rw [bind_error (takes.few splits few)] at failed
    cases failed
    exact .untouched splits.items state.store.tracker
  · obtain ⟨value, took, perm⟩ := takes.enough splits inside
    have enough : count ≤ own.length := takes.le.trans inside
    have length : (gives value).length = count := by
      rw [← perm.length_eq, List.length_take_of_le enough]
    rw [StoreM.bind_ok took] at failed
    obtain ⟨values, owed⟩ := rest value length _ cause after failed
    refine ⟨count, Nat.le_refl _, enough, ?_, fun more owes => ?_⟩
    · rw [values, Stack.items_drop, splits.items, List.drop_append_of_le_length enough]
    · exact owed more (owes.perm (perm.append_right more))

/-- Values are taken and nothing else is done. -/
theorem of_takes (takes : FrameM.Takes act need count gives) : point.BacksOut act count := by
  have whole : point.BacksOut (act >>= pure) count :=
    taking takes fun value _ => .of_never (.pure value)
  rwa [bind_pure] at whole

end BacksOut

/-! ## Instructions within a frame -/

variable [Tracker τ]

theorem Aborts.assignItem (list : Ref) (index : Int64) (value : Ref) :
    point.Aborts (FrameM.assignItem list index value : StoreM τ Unit) [value] := by
  refine Aborts.lendingList fun items => ?_
  cases resolveIndex? index items.size with
  | some position => exact .replaceItem .list position value items
  | none => exact .refuse items value _

namespace BacksOut

theorem applyUnary {operation : Ref → StoreM τ Ref}
    (reverts : ∀ operand, point.Reverts (operation operand) [] fun ref => [ref]) :
    point.BacksOut (FrameM.applyUnary operation) 1 :=
  taking FrameM.pop_takes fun operand _ => .pushing ((reverts operand).releasing [operand]).aborts

theorem applyBinary {operation : Ref → Ref → StoreM τ Ref}
    (reverts : ∀ left right, point.Reverts (operation left right) [] fun ref => [ref]) :
    point.BacksOut (FrameM.applyBinary operation) 2 :=
  taking FrameM.popTwo_takes fun operands _ =>
    .pushing ((reverts operands.1 operands.2).releasing [operands.1, operands.2]).aborts

theorem invert : point.BacksOut (FrameM.invert : FrameM τ Unit) 1 :=
  taking FrameM.pop_takes fun operand _ => .look_bind (looks_get operand) fun _ =>
    .onStore_bind (.releaseAll [operand]) fun _ => .pushing (Reverts.acquire _).aborts

theorem compare (operand : Nat) : point.BacksOut (FrameM.compare operand : FrameM τ Unit) 2 := by
  unfold FrameM.compare
  split
  · exact raise _
  · exact taking FrameM.popTwo_takes fun operands _ =>
      .onStore_bind ((Reverts.reading _).releasing [operands.1, operands.2]) fun _ =>
        .pushing (Reverts.acquire _).aborts

omit [Tracker τ] in
/-- Finding out where a subscript assignment goes changes nothing, whether it fails or not. -/
theorem subscriptPlace (container key : Ref) :
    point.Reverts (FrameM.subscriptPlace container key : StoreM τ _) [] fun _ => [] := by
  refine .get_bind fun first => .get_bind fun second => ?_
  split
  · exact .pure (fun _ => []) _
  · exact .pure (fun _ => []) _
  all_goals exact .raise _

theorem storeAt (everywhere : ∀ ref, point.loose ref) (container value : Ref)
    (place : Except Cause FrameM.Place) : point.Aborts (match place with
      | .ok (.item index) => FrameM.assignItem container index value
      | .ok (.entry key) => StoreM.dictInsert container key value
      | .error cause => do
          StoreM.release value
          StoreM.raise cause : StoreM τ Unit) [value] := by
  rcases place with cause | index | key
  · exact (Reverts.releaseAll_then (.raise cause) : point.Reverts _ _ fun _ => []).aborts
  · exact .assignItem container index value
  · exact .dictInsert (everywhere container) key value

theorem storeSubscript (everywhere : ∀ ref, point.loose ref) :
    point.BacksOut (FrameM.storeSubscript : FrameM τ Unit) 3 := by
  refine taking FrameM.popThree_takes fun operands _ => ?_
  obtain ⟨value, container, key⟩ := operands
  refine .onStore_bind_keeping (subscriptPlace container key).attempt (neverFails_attempt _)
    fun place => ?_
  have stored := (storeAt everywhere container value place).releasing [container]
  have last : point.AbortsWithin (FrameM.onStore (StoreM.releasing [container] _) : FrameM τ Unit)
      [container, value] := .onStore stored
  refine (AbortsWithin.releaseAll_bind last).perm ?_
  cases place <;> exact (List.reverse_perm [key, container, value])

omit [Tracker τ] in
theorem sliceBound (bound : Option Ref) :
    point.Reverts (FrameM.sliceBound bound : StoreM τ _) [] fun _ => [] := by
  cases bound with
  | none => exact .pure (fun _ => []) none
  | some ref =>
      refine .get_bind fun payload => ?_
      split
      · exact .pure (fun _ => []) _
      · exact .raise _

theorem slice (low high : Bool) :
    point.BacksOut (FrameM.slice low high : FrameM τ Unit) (1 + low.toNat + high.toNat) := by
  refine taking (FrameM.popMany_takes _) fun operands length => ?_
  cases operands with
  | nil =>
      rw [id, List.length_nil] at length
      omega
  | cons sequence bounds =>
      have cut (lowRef highRef : Option Ref) : point.Reverts (do
          let lowBound ← FrameM.sliceBound lowRef
          let highBound ← FrameM.sliceBound highRef
          StoreM.slice sequence lowBound highBound : StoreM τ Ref) [] fun ref => [ref] :=
        (sliceBound lowRef).bind fun low => (sliceBound highRef).bind fun high =>
          .slice sequence low high
      exact (AbortsWithin.pushing ((cut _ _).releasing (sequence :: bounds)).aborts).perm (by simp)

theorem buildFunction : point.BacksOut (FrameM.buildFunction : FrameM τ Unit) 1 := by
  refine taking FrameM.pop_takes fun code _ => .look_bind (looks_get code) fun payload => ?_
  split
  · refine .asks_bind fun globals => ?_
    have made : point.Reverts (StoreM.allocate (.function code globals) : StoreM τ Ref)
        [code, globals] (fun ref => [ref]) := .allocate_plain nofun
    exact .acquire_bind fun _ => .perm (.pushing made.aborts) (.swap _ _ _)
  · exact .releaseAll_raise [code] _

theorem buildClass : point.BacksOut (FrameM.buildClass : FrameM τ Unit) 1 := by
  refine taking FrameM.pop_takes fun attrs _ => .look_bind (looks_get attrs) fun payload => ?_
  split
  · have made : point.Reverts (StoreM.allocate (.class_ attrs) : StoreM τ Ref) [attrs]
        (fun ref => [ref]) := .allocate_plain nofun
    exact .pushing made.aborts
  · exact .releaseAll_raise [attrs] _

theorem buildSequence (pack : Array Ref → Payload)
    (plain : ∀ items, (pack items).kind ≠ .dictionary)
    (owned : ∀ items, (pack items).children = items.toList) (count : Nat) :
    point.BacksOut (FrameM.buildSequence pack count : FrameM τ Unit) count := by
  refine taking (FrameM.popMany_takes count) fun items _ => ?_
  have made := (Reverts.allocate_plain (plain items.toArray) :
    point.Reverts (StoreM.allocate _ : StoreM τ Ref) _ _)
  rw [owned] at made
  exact .pushing made.aborts

omit [Tracker τ] in
theorem unpackItems (kind : Kind) (count : Nat) (sequence : Ref) : point.Reverts (do
    match FrameM.itemsOf? kind (← StoreM.get sequence) with
    | none => StoreM.raise (.unpackOther kind)
    | some items =>
        if items.size = count then do
          StoreM.acquireAll items.toList
          return items.toList
        else
          StoreM.raise (.unpackWrongSize kind) : StoreM τ (List Ref)) [] id := by
  refine .get_bind fun payload => ?_
  split
  · exact .raise _
  split
  · refine .acquireAll_bind ?_
    rw [List.append_nil]
    exact .pure id _
  · exact .raise _

theorem unpack (kind : Kind) (count : Nat) :
    point.BacksOut (FrameM.unpack kind count : FrameM τ Unit) 1 := by
  refine taking FrameM.pop_takes fun sequence _ => ?_
  exact .followed ((unpackItems kind count sequence).releasing [sequence]).aborts
    fun items _ _ _ failed => by cases failed

omit [Tracker τ] in
theorem loadConst (index : Nat) : point.BacksOut (FrameM.loadConst index : FrameM τ Unit) most := by
  refine asks_bind fun code => within (.look_bind (looks_get code) fun payload => ?_)
  split
  · split
    · exact .pushing (Reverts.acquire _).aborts
    · exact .raise _
  · exact .raise _

omit [Tracker τ] in
theorem looks_firstOf (key : Bytes) (dicts : List Ref) :
    Looks (FrameM.firstOf key dicts : StoreM τ (Option Ref)) := by
  induction dicts with
  | nil => exact .pure none
  | cons dict rest ih =>
      refine (looks_dictLookup dict key).bind fun found => ?_
      cases found with
      | some value => exact .pure _
      | none => exact ih

omit [Tracker τ] in
theorem loadName (index : Nat) : point.BacksOut (FrameM.loadName index : FrameM τ Unit) most :=
  nameAt_bind fun name => asks_bind fun scopes =>
    within (.look_bind (looks_firstOf _ scopes) fun found =>
      .pushing (Reverts.acquireNamed name found).aborts)

theorem storeName (everywhere : ∀ ref, point.loose ref) (index : Nat) :
    point.BacksOut (FrameM.storeName index : FrameM τ Unit) 1 :=
  nameAt_bind fun _ => taking FrameM.pop_takes fun value _ => .asks_bind fun locals =>
    .onStore (.dictInsert (everywhere locals) _ value)

theorem loadAttr (index : Nat) : point.BacksOut (FrameM.loadAttr index : FrameM τ Unit) 1 :=
  nameAt_bind fun name => applyUnary (Reverts.loadAttr · name)

theorem storeAttr (everywhere : ∀ ref, point.loose ref) (index : Nat) :
    point.BacksOut (FrameM.storeAttr index : FrameM τ Unit) 2 :=
  nameAt_bind fun name => taking FrameM.popTwo_takes fun operands _ =>
    (AbortsWithin.onStore ((Aborts.storeAttr everywhere operands.2 name operands.1).releasing
      [operands.2])).perm (.swap _ _ _)

theorem importFrom (everywhere : ∀ ref, point.loose ref) (index : Nat) :
    point.BacksOut (FrameM.importFrom index : FrameM τ Unit) 0 := by
  refine nameAt_bind fun name => taking FrameM.peek_takes fun top _ =>
    .look_bind (looks_get top) fun payload => ?_
  split
  · exact .look_bind (looks_dictLookup _ _) fun found =>
      .onStore_bind (.acquireNamed name found) fun value => .asks_bind fun locals =>
        .onStore (.dictInsert (everywhere locals) _ value)
  · exact .raise _

omit [Tracker τ] in
theorem jumpIf (condition : Bool) (target : Nat) :
    point.BacksOut (FrameM.jumpIf condition target : FrameM τ Unit) 0 := by
  refine taking FrameM.peek_takes fun top _ =>
    .look_bind (looks_get top) fun payload => .of_never ?_
  split
  · exact fun _ _ _ failed => by cases failed
  · exact .pure ()

theorem forLoop (exhausted : Nat) :
    point.BacksOut (FrameM.forLoop exhausted : FrameM τ Unit) 2 := by
  refine taking FrameM.popTwo_takes fun operands _ => ?_
  obtain ⟨sequence, index⟩ := operands
  refine .look_bind (looks_get index) fun payload => ?_
  refine .perm (AbortsWithin.releaseAll_bind ?_) (.swap index sequence [])
  split
  · exact .releaseAll_raise [sequence] _
  · rename_i position _
    refine .onStore_bind ((Reverts.loopItem sequence position).orRelease [sequence]) fun item => ?_
    cases item with
    | some item =>
        have counted : point.Reverts (StoreM.allocate (.int (Int64.ofNat
            (min (position + 1) 0x7fffffffffffffff))) : StoreM τ Ref) [] (fun ref => [ref]) :=
          .allocate_plain nofun
        exact .perm (.followed (counted.orRelease [sequence, item]).aborts
          fun next _ _ _ failed => by cases failed) (.swap _ _ _)
    | none =>
        exact .of_never ((FrameM.neverFails_onStore (neverFails_releaseAll [sequence])).bind
          fun _ _ _ _ failed => by cases failed)

omit [Tracker τ] in
theorem rotateTwo : point.BacksOut (FrameM.rotateTwo : FrameM τ Unit) 2 := by
  refine requireDepth_bind fun before cause after failed => ?_
  obtain ⟨store, ⟨items, height, height_eq⟩, activation⟩ := before
  match items with
  | [] | [_] | _ :: _ :: _ => cases failed

omit [Tracker τ] in
theorem rotateThree : point.BacksOut (FrameM.rotateThree : FrameM τ Unit) 3 := by
  refine requireDepth_bind fun before cause after failed => ?_
  obtain ⟨store, ⟨items, height, height_eq⟩, activation⟩ := before
  match items with
  | [] | [_] | [_, _] | _ :: _ :: _ :: _ => cases failed

/-- Every instruction that stays within the frame. -/
theorem execute (everywhere : ∀ ref, point.loose ref) (op : Opcode) (operand next : Nat) :
    point.BacksOut (FrameM.execute op operand next : FrameM τ Unit) (op.takes operand) := by
  cases op with
  | popTop | printTop =>
      exact taking FrameM.pop_takes fun value _ => .onStore (Reverts.releaseAll [value]).aborts
  | rotTwo => exact rotateTwo
  | rotThree => exact rotateThree
  | dupTop =>
      exact taking FrameM.peek_takes fun value _ => .pushing (Reverts.acquire value).aborts
  | negate => exact applyUnary Reverts.negate
  | invert => exact invert
  | arithmetic operation => exact applyBinary (Reverts.arithmetic operation)
  | subscript => exact applyBinary Reverts.subscript
  | slice low high => exact slice low high
  | storeSubscript => exact storeSubscript everywhere
  | loadLocals => exact asks_bind fun locals => within (.pushing (Reverts.acquire locals).aborts)
  | requireArgs | refuseArgs =>
      refine depth_bind fun count => ?_
      split <;> first | exact raise _ | exact of_never (.pure ())
  | buildFunction => exact buildFunction
  | buildClass => exact buildClass
  | storeName => exact storeName everywhere operand
  | unpackTuple => exact unpack .tuple operand
  | unpackList => exact unpack .list operand
  | storeAttr => exact storeAttr everywhere operand
  | loadConst => exact loadConst operand
  | loadName => exact loadName operand
  | buildTuple =>
      exact buildSequence .tuple (fun _ => by simp [Payload.kind]) (fun _ => rfl) operand
  | buildList => exact buildSequence .list (fun _ => by simp [Payload.kind]) (fun _ => rfl) operand
  | buildMap =>
      have made : point.Reverts (StoreM.allocate (.dict .empty) : StoreM τ Ref) []
          (fun ref => [ref]) :=
        .allocate fun table same => Payload.dict.inj same ▸ Table.valid_empty
      exact within (.pushing made.aborts)
  | loadAttr => exact loadAttr operand
  | compare => exact compare operand
  | importName =>
      exact nameAt_bind fun name =>
        within (.pushing (Aborts.importModule (everywhere .modules) name))
  | importFrom => exact importFrom everywhere operand
  | jumpForward | jumpAbsolute | setLine => exact of_never fun _ _ _ failed => by cases failed
  | jumpIfFalse => exact jumpIf false (next + operand)
  | jumpIfTrue => exact jumpIf true (next + operand)
  | forLoop => exact forLoop (next + operand)
  | callBare | callWith | breakLoop | returnValue | popBlock | setup => exact of_never (.pure ())

omit [Tracker τ] in
theorem pushBlock (kind : BlockKind) (handler : Nat) :
    point.BacksOut (FrameM.pushBlock kind handler : FrameM τ Unit) 0 := by
  refine asks_bind fun blocks => ?_
  split
  · exact raise _
  · exact depth_bind fun count => of_never fun _ _ _ failed => by cases failed

omit [Tracker τ] in
theorem popBlock : point.BacksOut (FrameM.popBlock : FrameM τ Block) 0 := by
  refine asks_bind fun blocks => ?_
  split
  · exact of_never fun _ _ _ failed => by cases failed
  · exact raise _

end BacksOut

end Checkpoint

/-! ## Calls -/

/-- The object that an instruction calls, if it is a call: it lies under the argument. -/
def Opcode.callee? (op : Opcode) (own : List Ref) : Option Ref :=
  match op with
  | .callBare => own[0]?
  | .callWith => own[1]?
  | _ => none

namespace Fetched

/-- The object that is called by what was read. -/
def callee? (fetched : Fetched) (own : List Ref) : Option Ref :=
  match fetched with
  | .instruction op _ _ => op.callee? own
  | _ => none

/-- How many values it takes off the frame. -/
def takes : Fetched → Nat
  | .instruction op operand _ => op.takes operand
  | _ => 0

end Fetched

/-- Is an object neither a function nor a bound method?  Then calling it runs no code. -/
def Payload.RunsNoCode (payload : Payload) : Prop :=
  payload.kind ≠ .function ∧ payload.kind ≠ .classMethod

/-- What is called, if anything, runs no code. -/
def Store.RunsNoCode (store : Store τ) (callee : Option Ref) : Prop :=
  ∀ ref payload, callee = some ref → store.payload? ref = some payload → payload.RunsNoCode

namespace MachineM

open Checkpoint

variable {point : Checkpoint τ} {machine after : Machine τ} {current activation : Activation}
variable {callers : List Activation} {own below : List Ref} {op : Opcode} {operand next most : Nat}
variable {callee : Ref} {argument : Option Ref} {payload : Payload} {failure : Failure}

theorem onStore_error {act : StoreM τ α} {stop : Stop Cause} {store : Store τ}
    (stopped : act machine.store = .error stop store) :
    onStore act machine = .error stop.raised { machine with store } := by
  obtain ⟨before, values, frames, error, traceback, tracer⟩ := machine
  unfold onStore
  simp only at stopped ⊢
  rw [stopped]

theorem onStore_failed {act : StoreM τ α}
    (failed : onStore act machine = .error (.failed failure) after) :
    ∃ cause store, act machine.store = .error (.failed cause) store ∧
      after = { machine with store } := by
  cases worked : act machine.store with
  | ok value store => cases (onStore_eq worked).symm.trans failed
  | error stop store =>
      have same := (onStore_error worked).symm.trans failed
      cases stop with
      | failed cause =>
          cases same
          exact ⟨cause, store, rfl, rfl⟩
      | fault broken => cases same
      | unfinished => cases same

/-- What fails within the frame. -/
theorem onFrame_forfeits {act : FrameM τ α} {rest : α → MachineM τ Flow}
    (stands : Stands machine current callers own below) (backs : point.BacksOut act most)
    (never : ∀ value, NeverFails (rest value))
    (failed : (onFrame act >>= rest) machine = .error (.failed failure) after) :
    point.Forfeits most own below machine.store after.values after.store := by
  have stopped := NeverFails.bind_failed never failed
  cases result : act ⟨machine.store, machine.values, current⟩ with
  | ok value state =>
      obtain ⟨frames, -, done⟩ := onFrame_eq stands.frames result
      cases done.symm.trans stopped
  | error stop state =>
      obtain ⟨frames, -, done⟩ := onFrame_error stands.frames result
      have same := done.symm.trans stopped
      cases stop with
      | failed cause =>
          cases same
          exact backs stands.splits result
      | fault broken => cases same
      | unfinished => cases same

variable [Tracker τ] {run : MachineM τ Ref}

/-- Giving references back after an operation on the store is done on the store alone. -/
theorem releasing_onStore (refs : List Ref) (act : StoreM τ α) :
    releasing refs (onStore act) = onStore (StoreM.releasing refs act) := by
  funext machine
  obtain ⟨store, values, frames, error, traceback, tracer⟩ := machine
  simp only [releasing, StoreM.releasing, releaseAll, Bind.bind, EStateM.bind, attempt, onStore]
  cases act store with
  | ok value middle =>
      simp only
      cases StoreM.releaseAll refs middle <;> rfl
  | error stop middle =>
      cases stop with
      | failed cause =>
          simp only [Stop.raised]
          cases StoreM.releaseAll refs middle <;> rfl
      | fault broken => rfl
      | unfinished => rfl

/-- Calling an object that runs no code. -/
def callDirect (payload : Payload) (callee : Ref) (argument : Option Ref) : StoreM τ Ref :=
  match payload with
  | .native function => StoreM.callNative function argument
  | .class_ _ => instantiate callee argument
  | _ => do
      StoreM.releaseAll argument.toList
      StoreM.raise .notCallable

theorem call_eq_onStore (found : machine.store.payload? callee = some payload)
    (direct : payload.RunsNoCode) :
    call run callee argument machine = onStore (callDirect payload callee argument) machine := by
  have got : onStore (StoreM.get callee) machine = .ok payload machine :=
    onStore_eq (StoreM.get_eq found)
  have plain : callPlain run callee argument machine =
      onStore (callDirect payload callee argument) machine := by
    refine (StoreM.bind_ok got).trans ?_
    have refused : (do
        releaseAll argument.toList
        raise .notCallable : MachineM τ Ref) = onStore (do
          StoreM.releaseAll argument.toList
          StoreM.raise .notCallable) := by
      funext state
      obtain ⟨store, values, frames, error, traceback, tracer⟩ := state
      simp only [releaseAll, Bind.bind, EStateM.bind, onStore]
      cases StoreM.releaseAll argument.toList store <;> rfl
    cases payload
    case native function => rfl
    case class_ attrs => rfl
    case function code globals => exact absurd rfl direct.1
    case method function self => exact absurd rfl direct.2
    all_goals exact congrFun refused machine
  refine (StoreM.bind_ok got).trans ?_
  cases payload
  case method function self => exact absurd rfl direct.2
  all_goals exact plain

theorem callDirect_aborts (payload : Payload) (callee : Ref) (argument : Option Ref) :
    point.Aborts (callDirect payload callee argument : StoreM τ Ref) argument.toList := by
  unfold callDirect
  split
  · exact .callNative _ argument
  · exact (Reverts.instantiate callee argument).aborts
  · exact (Reverts.releaseAll_then (.raise _) : point.Reverts _ _ fun ref => [ref]).aborts

/-- A call that fails has given back the callee and the argument. -/
theorem call_backsOut (direct : ∀ payload, machine.store.payload? callee = some payload →
      payload.RunsNoCode)
    (failed : (do
      let result ← releasing [callee] (call run callee argument)
      onFrame (FrameM.push result)
      return .next : MachineM τ Flow) machine = .error (.failed failure) after) :
    after.values = machine.values ∧
      ∀ more, point.Owes (callee :: (argument.toList ++ more)) machine.store →
        point.Owes more after.store := by
  have never (value : Ref) : NeverFails (do
      onFrame (FrameM.push value)
      return .next : MachineM τ Flow) :=
    (neverFails_onFrame fun _ _ _ failed => by cases failed).bind fun _ => .pure _
  have stopped := NeverFails.bind_failed never failed
  cases got : StoreM.get callee machine.store with
  | ok payload store =>
      have same : releasing [callee] (call run callee argument) machine =
          releasing [callee] (onStore (callDirect payload callee argument)) machine := by
        have found := (StoreM.get_cases got).2
        refine bind_congr_at ?_
        rw [attempt, attempt, call_eq_onStore found (direct payload found)]
      rw [same, releasing_onStore] at stopped
      obtain ⟨cause, final, worked, rfl⟩ := onStore_failed stopped
      have aborts := (callDirect_aborts payload callee argument :
        point.Aborts (callDirect payload callee argument : StoreM τ Ref) _).releasing [callee]
      exact ⟨rfl, fun more owes => aborts more _ cause final owes worked⟩
  | error stop store =>
      have lost : call run callee argument machine = .error stop.raised { machine with store } :=
        bind_error (onStore_error got)
      cases stop with
      | failed cause => exact absurd got (neverFails_get callee _ _ _)
      | fault broken =>
          have broke : attempt (call run callee argument) machine =
              .error (.fault broken) { machine with store } := by rw [attempt, lost]; rfl
          cases (bind_error broke).symm.trans stopped
      | unfinished =>
          have ended : attempt (call run callee argument) machine =
              .error .unfinished { machine with store } := by rw [attempt, lost]; rfl
          cases (bind_error ended).symm.trans stopped

omit [Tracker τ] in
theorem pop_top {state after : FrameState τ} {value : Ref} (splits : state.Splits own below)
    (ran : FrameM.pop state = .ok value after) : own[0]? = some value := by
  cases own with
  | nil => cases (FrameM.pop_takes.few splits Nat.one_pos).symm.trans ran
  | cons top rest =>
      have required := FrameM.requireDepth_eq splits 1
      rw [if_neg (by simp)] at required
      unfold FrameM.pop at ran
      rw [StoreM.bind_ok required, FrameM.takeTop_first state splits.items] at ran
      cases ran
      rfl

omit [Tracker τ] in
theorem popTwo_second {state after : FrameState τ} {pair : Ref × Ref}
    (splits : state.Splits own below) (ran : FrameM.popTwo state = .ok pair after) :
    own[1]? = some pair.1 := by
  match own with
  | [] | [_] => cases (FrameM.popTwo_takes.few splits (by simp)).symm.trans ran
  | top :: second :: rest =>
      have required := FrameM.requireDepth_eq splits 2
      rw [if_neg (by simp)] at required
      have later : state.values.items.drop 1 = second :: (rest ++ below) := by
        rw [splits.items]; rfl
      unfold FrameM.popTwo at ran
      rw [StoreM.bind_ok required, StoreM.bind_ok (FrameM.takeTop_first state splits.items),
        StoreM.bind_ok (FrameM.takeTop_eq state 1 later)] at ran
      cases ran
      rfl

/-- Operands are taken off the frame, and one of them is called with the others. -/
theorem takenCall_forfeits {act : FrameM τ α} {need count : Nat} {gives : α → List Ref}
    {callee : α → Ref} {argument : α → Option Ref}
    (stands : Stands machine current callers own below) (takes : FrameM.Takes act need count gives)
    (operands : ∀ value, gives value = callee value :: (argument value).toList)
    (direct : ∀ value state, act ⟨machine.store, machine.values, current⟩ = .ok value state →
      ∀ payload, machine.store.payload? (callee value) = some payload → payload.RunsNoCode)
    (failed : (do
      let value ← onFrame act
      let result ← releasing [callee value] (call run (callee value) (argument value))
      onFrame (FrameM.push result)
      return .next : MachineM τ Flow) machine = .error (.failed failure) after) :
    point.Forfeits count own below machine.store after.values after.store := by
  rcases Nat.lt_or_ge own.length need with few | inside
  · have unchanged := onFrame_unchanged stands.frames (takes.few stands.splits few)
    cases (bind_error unchanged).symm.trans failed
    exact .untouched stands.items machine.store.tracker
  · obtain ⟨value, took, perm⟩ := takes.enough stands.splits inside
    have enough : count ≤ own.length := takes.le.trans inside
    obtain ⟨frames, -, done⟩ := onFrame_eq stands.frames took
    rw [StoreM.bind_ok done] at failed
    obtain ⟨values, owed⟩ := call_backsOut (by exact direct value _ took) failed
    refine ⟨count, Nat.le_refl _, enough, ?_, fun more owes => ?_⟩
    · rw [values, Stack.items_drop, stands.items, List.drop_append_of_le_length enough]
    · rw [operands] at perm
      exact owed more (owes.perm (perm.append_right more))

theorem dispatch_forfeits (everywhere : ∀ ref, point.loose ref)
    (stands : Stands machine current callers own below)
    (direct : machine.store.RunsNoCode (op.callee? own))
    (failed : dispatch run op operand next machine = .error (.failed failure) after) :
    point.Forfeits (op.takes operand) own below machine.store after.values after.store := by
  cases op with
  | callBare =>
      exact takenCall_forfeits stands FrameM.pop_takes (fun _ => rfl)
        (fun value state took payload => direct value payload (pop_top stands.splits took)) failed
  | callWith =>
      exact takenCall_forfeits stands FrameM.popTwo_takes (fun _ => rfl)
        (fun value state took payload => direct value.1 payload (popTwo_second stands.splits took))
        failed
  | returnValue =>
      exact onFrame_forfeits stands (.of_takes FrameM.pop_takes) (fun value => .pure _) failed
  | breakLoop => cases failed
  | popBlock =>
      refine onFrame_forfeits stands .popBlock (fun block => ?_) failed
      exact (neverFails_tell _).bind fun _ => (neverFails_drainTo _).bind fun _ => .pure _
  | setup kind =>
      exact onFrame_forfeits stands (.pushBlock kind _)
        (fun _ => (neverFails_tell _).bind fun _ => .pure _) failed
  | _ =>
      exact onFrame_forfeits stands (.execute everywhere _ operand next) (fun _ => .pure _) failed

/-- The step of a frame, which asks the tracker first. -/
theorem step_forfeits (everywhere : ∀ ref, point.loose ref)
    (stands : Stands machine activation callers own below)
    (direct : machine.store.RunsNoCode
      ((Fetched.read activation.bytecode activation.offset).callee? own))
    (failed : step run machine = .error (.failed failure) after) :
    point.Forfeits (Fetched.read activation.bytecode activation.offset).takes own below
      machine.store after.values after.store := by
  cases granted : (Tracker.tick machine.store.tracker).1 with
  | some refusal =>
      cases (bind_error (onStore_tick_refused granted)).symm.trans failed
      exact .untouched stands.items _
  | none =>
      have ticks := onStore_tick granted
      have frames : machine.ticked.frames.items = activation :: callers := stands.frames
      cases here : Fetched.read activation.bytecode activation.offset with
      | instruction op operand next =>
          obtain ⟨frames, tracer, items, same⟩ := step_dispatches ticks stands.frames stands.items
            stands.base here
          have told : Stands { machine.ticked with frames, tracer }
            { activation with offset := next } callers own below :=
          ⟨items, stands.items, stands.base⟩
          rw [here] at direct
          rw [same] at failed
          obtain ⟨count, few, inside, left, owed⟩ := dispatch_forfeits everywhere told direct failed
          exact ⟨count, few, inside, left, fun more owes => owed more (owes.withTracker _)⟩
      | pastEnd | unknown byte | truncated op =>
          rw [step, StoreM.bind_ok ticks, StoreM.bind_ok (fetch_eq frames), here] at failed
          cases failed
          exact .untouched stands.items _

/-- What an instruction that failed has done: it has taken values off its frame, which had `own`,
and given each of them back.  The objects that are left are as before, but for tables that have
been rebuilt. -/
structure Undone (machine : Machine τ) (own below : List Ref) (most : Nat) (after : Machine τ) :
    Prop where
  popped : ∃ count ≤ most, count ≤ own.length ∧ after.values.items = own.drop count ++ below ∧
    ∃ released, (StoreM.releaseAll (own.take count) : StoreM τ Unit) machine.store =
      .ok () released ∧
      SameObjects (fun _ => True) released after.store
  contents : ∀ ref payload, after.store.payload? ref = some payload →
    ∃ old, machine.store.payload? ref = some old ∧ old.Like True payload

theorem step_undone {held : List Ref} (ready : machine.Ready held)
    (stands : Stands machine activation callers own below)
    (direct : machine.store.RunsNoCode
      ((Fetched.read activation.bytecode activation.offset).callee? own))
    (failed : step run machine = .error (.failed failure) after) :
    Undone machine own below (Fetched.read activation.bytecode activation.offset).takes after := by
  have forfeits (point : Checkpoint τ) (everywhere : ∀ ref, point.loose ref) :=
    step_forfeits everywhere stands direct failed
  -- How many values are gone can be read off what is left of them.
  obtain ⟨count, few, inside, items, -⟩ :=
    forfeits ⟨fun _ => True, machine.store, []⟩ fun _ => trivial
  obtain ⟨rest, owing⟩ : ∃ rest, machine.store.Exact (own.take count ++ rest) := by
    refine ⟨roots ++ (held ++ ((own.drop count ++ below) ++ machine.errorRefs) ++
      machine.internals), ready.sound.exact.perm ?_⟩
    rw [List.perm_iff_count]
    intro ref
    have split := congrArg (List.count ref) (List.take_append_drop count own)
    rw [List.count_append] at split
    rw [stands.items]
    simp only [List.count_append]
    omega
  obtain ⟨released, drained, -, remains⟩ := drain_exact (own.take count) machine.store owing
  have owes : Owes ⟨fun _ => True, released, rest⟩ (own.take count) machine.store :=
    .of_drain owing ready.sound.tables drained
  obtain ⟨again, -, inside', items', owed⟩ :=
    forfeits ⟨fun _ => True, released, rest⟩ fun _ => trivial
  obtain rfl : again = count := by
    have same := congrArg List.length (items'.symm.trans items)
    simp only [List.length_append, List.length_drop] at same
    omega
  have same : SameObjects (fun _ => True) released after.store :=
    (owed [] (by rwa [List.append_nil])).sameObjects
  refine ⟨⟨again, few, inside, items, released, drained, same⟩, fun ref payload found => ?_⟩
  obtain ⟨cell, live⟩ : ∃ cell, released.cell? ref = some cell := by
    obtain ⟨shared, present⟩ := cell?_of_payload? found
    exact Option.isSome_iff_exists.mp ((same.live_eq ref).symm.trans (by rw [isLive, present]; rfl))
  obtain ⟨old, present, equal⟩ := remains ref cell live
  obtain ⟨content, filled⟩ := Option.ne_none_iff_exists'.mp (ready.sound.whole ref old present)
  obtain ⟨new, found', like⟩ := same.like ref content (by rw [payload?_eq live, ← equal, filled])
  rw [found, Option.some.injEq] at found'
  subst found'
  exact ⟨content, by rw [payload?, present, Option.bind_some, filled], like⟩

end MachineM

end StackMachine

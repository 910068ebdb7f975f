import StackMachine.Proofs.Evolution.Advancing
import StackMachine.Proofs.Evolution.Changes
import StackMachine.Proofs.Tracking.Store
import StackMachine.Store.Conversion
import StackMachine.Store.Loading

/-!
# Paths of operations on the store

Every operation on the store takes it along a path on which neither frames nor entries of
tracebacks are made.  Work on an object that is out of its slot only frees objects and asks
the tracker.
-/

namespace StackMachine.StoreM

open Outcome Relation Store

variable {τ φ α β γ : Type} [Tracker τ]

/-- The operation takes the store along a path, on which no frame and no entry of a traceback
is made. -/
abbrev Evolves (act : EStateM (Stop φ) (Store τ) α) : Prop :=
  Advances PlainPath act

/-- The operation has freed objects and asked the tracker, and did not fail. -/
def Tidied (before : Store τ) (result : EStateM.Result (Stop φ) (Store τ) α) : Prop :=
  match result with
  | .ok _ after => ReflTransGen Tidying before after
  | .error (.failed _) _ => False
  | .error (.fault _) _ => True
  | .error .unfinished _ => True

theorem Tidied.head {before middle : Store τ} {result : EStateM.Result (Stop φ) (Store τ) α}
    (earlier : ReflTransGen Tidying before middle) (later : Tidied middle result) :
    Tidied before result := by
  cases result with
  | ok value after => exact ReflTransGen.trans earlier later
  | error stop after => cases stop <;> exact later

/-- The operation frees objects and asks the tracker, and does not fail. -/
def Tidies (act : StoreM τ α) : Prop :=
  ∀ before, Tidied before (act before)

/-- Work on something that is out of its slot, and that `pack` makes an object of: of the store it
only frees objects, and of the object it makes what may become of it.  What the object gains, the
tracker has agreed to. -/
structure Refits (pack : γ → Payload) (content : γ) (work : StoreM τ (γ × Except Cause α)) :
    Prop where
  tidies : Tidies work
  becomes : ∀ before worked after, work before = .ok worked after →
    (pack content).Becomes (pack worked.1)
  covered : ∀ before worked after, work before = .ok worked after → (pack content).IsSized →
    (pack worked.1).IsSized ∧
      Covered (pack content).mostBytes before (pack worked.1).mostBytes after

namespace Tidies

variable {act : StoreM τ α} {next : α → StoreM τ β}

theorem evolves (tidies : Tidies act) : Evolves act := by
  intro before
  have known := tidies before
  cases ran : act before with
  | ok value after =>
      rw [ran] at known
      exact Path.of_tidyings known
  | error stop after =>
      rw [ran] at known
      cases stop with
      | failed cause => exact known.elim
      | fault broken => trivial
      | unfinished => trivial

theorem pure (value : α) : Tidies (pure value : StoreM τ α) :=
  fun _ => ReflTransGen.refl

theorem fault (broken : Fault) : Tidies (throw (.fault broken) : StoreM τ α) :=
  fun _ => trivial

theorem unfinished : Tidies (throw .unfinished : StoreM τ α) :=
  fun _ => trivial

theorem bind (first : Tidies act) (second : ∀ value, Tidies (next value)) :
    Tidies (act >>= next) := by
  intro before
  have known := first before
  show Tidied before (EStateM.bind act next before)
  unfold EStateM.bind
  cases ran : act before with
  | ok value middle =>
      rw [ran] at known
      exact (second value middle).head known
  | error stop after =>
      rw [ran] at known
      cases stop <;> exact known

/-- Work is over once something was given back. -/
theorem worked (tidies : Tidies act) (pair : γ × Except Cause β) :
    Tidies (act *> Pure.pure pair : StoreM τ (γ × Except Cause β)) :=
  tidies.bind fun _ => pure pair

/-- What has been freed makes room, and the tracker has heard of it. -/
theorem covered (tidies : Tidies act) {before after : Store τ} {value : α}
    (ran : act before = .ok value after) (given : Nat) : Covered given before given after := by
  have known := tidies before
  rw [ran] at known
  have covered := (covered_add_iff given).mpr (covered_of_tidyings known)
  rwa [Nat.zero_add] at covered

end Tidies

namespace Refits

variable {pack : γ → Payload} {content : γ} {work : StoreM τ (γ × Except Cause α)}

/-- Work that does not make the object heavier. -/
theorem of_lighter (tidies : Tidies work) (becomes : ∀ new, (pack content).Becomes (pack new))
    (lighter : ∀ before worked after, work before = .ok worked after → (pack content).IsSized →
      (pack worked.1).IsSized ∧ (pack worked.1).mostBytes ≤ (pack content).mostBytes) :
    Refits pack content work where
  tidies := tidies
  becomes _ worked _ _ := becomes worked.1
  covered before worked after ran sized := by
    obtain ⟨newSized, lighter⟩ := lighter before worked after ran sized
    exact ⟨newSized, (tidies.covered ran _).mono lighter⟩

/-- What was worked on is put back into its container. -/
theorem repacked (refits : Refits pack content work) :
    Refits id (pack content) (work >>= fun pair => Pure.pure (pack pair.1, pair.2)) where
  tidies := refits.tidies.bind fun pair => .pure _
  becomes before worked after ran := by
    obtain ⟨pair, middle, ran, packed⟩ := bind_eq_ok ran
    cases packed
    exact refits.becomes before pair after ran
  covered before worked after ran := by
    obtain ⟨pair, middle, ran, packed⟩ := bind_eq_ok ran
    cases packed
    exact refits.covered before pair after ran

end Refits

/-! ## Giving back -/

theorem drain_tidies (refs : List Ref) : Tidies (Store.drain refs : StoreM τ Unit) := by
  intro before
  induction refs, before using Store.drain.induct with
  | case1 store =>
      rw [Store.drain]
      exact ReflTransGen.refl
  | case2 store ref rest missing =>
      rw [Store.drain_of_missing missing]
      trivial
  | case3 store ref rest cell found shared ih =>
      rw [Store.drain_of_found found, dif_pos shared]
      exact ih.head (ReflTransGen.single (.recount found _))
  | case4 store ref rest cell found last ih =>
      rw [Store.drain_of_found found, dif_neg last]
      exact ih.head (ReflTransGen.single (.vacate found last))

theorem releaseAll_tidies (refs : List Ref) : Tidies (releaseAll refs : StoreM τ Unit) :=
  drain_tidies refs

theorem release_tidies (ref : Ref) : Tidies (release ref : StoreM τ Unit) :=
  drain_tidies [ref]

theorem release_evolves (ref : Ref) : Evolves (release ref : StoreM τ Unit) :=
  (release_tidies ref).evolves

theorem releaseOption_tidies (ref : Option Ref) : Tidies (releaseOption ref : StoreM τ Unit) :=
  drain_tidies ref.toList

theorem releaseAll_evolves (refs : List Ref) : Evolves (releaseAll refs : StoreM τ Unit) :=
  (releaseAll_tidies refs).evolves

section Combining

variable {act : StoreM τ α}

theorem releasing_evolves (refs : List Ref) (body : Evolves act) : Evolves (releasing refs act) :=
  body.attempt.bind fun result => (releaseAll_evolves refs).bind fun _ => .settle result

theorem orRelease_evolves (refs : List Ref) (body : Evolves act) :
    Evolves (orRelease refs act) := by
  refine body.attempt.bind fun result => ?_
  cases result with
  | ok value => exact .pure value
  | error cause => exact (releaseAll_evolves refs).bind fun _ => .throw cause

/-- The argument is given back before the function goes on. -/
theorem releaseOption_evolves (argument : Option Ref) (rest : Evolves act) :
    Evolves (releaseOption argument >>= fun _ => act) :=
  (releaseOption_tidies argument).evolves.bind fun _ => rest

end Combining

/-! ## One slot -/

theorem get_evolves (ref : Ref) : Evolves (get ref : StoreM τ Payload) :=
  .reading _

theorem acquire_evolves (ref : Ref) : Evolves (acquire ref : StoreM τ Ref) := by
  intro before
  unfold acquire
  cases found : before.cell? ref with
  | some cell => exact Path.of_tidyings (ReflTransGen.single (.recount found _))
  | none => trivial

theorem acquireAll_evolves (refs : List Ref) : Evolves (acquireAll refs : StoreM τ Unit) := by
  induction refs with
  | nil => exact .pure ()
  | cons ref rest ih => exact (acquire_evolves ref).bind fun _ => ih

/-- An object that is worked on in place goes back into its slot. -/
theorem lending_evolves {work : Payload → StoreM τ (Payload × Except Cause α)} (ref : Ref)
    (refits : ∀ payload, Refits id payload (work payload)) : Evolves (lending ref work) := by
  intro before
  unfold lending
  rcases found : before.cell? ref with _ | ⟨count, _ | payload⟩
  · have vacant : (lend ref : StoreM τ Payload) before = .error (.fault (.vacant ref)) before := by
      rw [lend, found]
    rw [bind_error vacant]
    trivial
  · have lent : (lend ref : StoreM τ Payload) before = .error (.fault (.lent ref)) before := by
      rw [lend, found]
    rw [bind_error lent]
    trivial
  have lent : (lend ref : StoreM τ Payload) before =
      .ok payload (before.setCell ref (some ⟨count, none⟩)) := by rw [lend, found]
  rw [bind_ok lent]
  obtain ⟨tidies, becomes, covered⟩ := refits payload
  have meanwhile := tidies (before.setCell ref (some ⟨count, none⟩))
  cases ran : work payload (before.setCell ref (some ⟨count, none⟩)) with
  | error stop after =>
      rw [ran] at meanwhile
      rw [bind_error ran]
      cases stop with
      | failed cause => exact meanwhile.elim
      | fault broken => trivial
      | unfinished => trivial
  | ok worked after =>
      obtain ⟨new, result⟩ := worked
      rw [ran] at meanwhile
      rw [bind_ok ran]
      simp only
      cases kept : after.cell? ref with
      | none =>
          have vacant : (putBack ref new : StoreM τ Unit) after =
              .error (.fault (.vacant ref)) after := by rw [putBack, kept]
          rw [bind_error vacant]
          trivial
      | some cell =>
          have returned : (putBack ref new : StoreM τ Unit) after =
              .ok () (after.setCell ref (some { cell with payload := some new })) := by
            rw [putBack, kept]
          rw [bind_ok returned]
          have path : PlainPath before
              (after.setCell ref (some { cell with payload := some new })) :=
            ⟨ReflTransGen.single (.rework found meanwhile kept (becomes _ _ after ran)),
              covered_rework found meanwhile kept (covered _ _ after ran)⟩
          cases result <;> exact path

/-! ## What the tracker is asked about -/

/-- A question that no object is made or freed for. -/
theorem ask_evolves (query : Query) (idle : ∀ tracker : τ, query.IsIdle tracker) :
    Evolves (ask query : StoreM τ Unit) := by
  intro before
  have path : PlainPath before (before.asking query) :=
    Path.of_tidyings (ReflTransGen.single (.ask query (idle _)))
  unfold ask
  cases (query.pose before.tracker).1 <;> exact path

theorem chargeTable_evolves (bytes : Nat) : Evolves (chargeTable bytes : StoreM τ Unit) := by
  rw [chargeTable_eq]
  exact ask_evolves (.build bytes) fun _ => trivial

/-- Whether the tracker agrees or refuses, it was only asked. -/
theorem chargeInsert_tidies : Tidies (attempt (chargeInsert : StoreM τ Unit)) := by
  intro before
  have asked : ReflTransGen Tidying before (before.asking .insert) :=
    ReflTransGen.single (.ask .insert trivial)
  rw [chargeInsert_eq]
  unfold attempt ask
  cases (Query.insert.pose before.tracker).1 <;> exact asked

/-- An object is made where the tracker grants it; otherwise its parts are given back. -/
theorem allocate_outcome (payload : Payload) (before : Store τ) :
    match allocate payload before with
    | .ok ref after => (Tracker.allocate payload.bytes before.tracker).1 = none ∧
        (before.asking (.allocate payload.bytes)).place payload = (ref, after)
    | .error (.failed _) after => PlainPath before after
    | .error (.fault _) _ => True
    | .error .unfinished _ => True := by
  unfold allocate asking Query.pose
  rcases answer : Tracker.allocate payload.bytes before.tracker with ⟨_ | refusal, tracker⟩
  · refine ⟨rfl, ?_⟩
    simp only [answer]
  · have idle : (Query.allocate payload.bytes).IsIdle before.tracker := by
      simp only [Query.IsIdle, answer, Option.isSome_some]
    have asked := Tidying.ask (.allocate payload.bytes) idle
    simp only [asking, Query.pose, answer] at asked
    have drained := (drain_tidies payload.children { before with tracker }).head
      (ReflTransGen.single asked)
    simp only
    cases ran : Store.drain payload.children { before with tracker } with
    | ok value after =>
        rw [ran] at drained
        exact Path.of_tidyings drained
    | error stop after =>
        rw [ran] at drained
        cases stop with
        | failed cause => exact drained.elim
        | fault broken => trivial
        | unfinished => trivial

theorem allocate_advances {allowed : Payload → Prop} {payload : Payload} (fits : allowed payload)
    (light : payload.IsLight) (more : ∀ payload, payload.IsPlain → allowed payload) :
    Advances (Path allowed) (allocate payload : StoreM τ Ref) := by
  intro before
  have outcome := allocate_outcome payload before
  cases ran : allocate payload before with
  | ok ref after =>
      rw [ran] at outcome
      have made : Path allowed before _ := Path.make fits light outcome.1
      rw [outcome.2] at made
      exact made
  | error stop after =>
      rw [ran] at outcome
      cases stop with
      | failed cause => exact outcome.mono more
      | fault broken => trivial
      | unfinished => trivial

theorem allocate_evolves (payload : Payload) (simple : decide payload.IsSimple = true) :
    Evolves (allocate payload : StoreM τ Ref) :=
  have ⟨plain, other⟩ := of_decide_eq_true simple
  allocate_advances plain (Payload.isLight_of_kind other) fun _ => id

theorem allocateDict_evolves : Evolves (allocate (.dict .empty) : StoreM τ Ref) :=
  allocate_advances (by decide) Payload.isLight_empty fun _ => id

/-- Binding a key in a table that is in no slot only asks the tracker. -/
theorem insert_asks (table : Table γ) (store : Store τ) (key : Bytes) (value : γ) :
    ReflTransGen Tidying store
      { store with tracker := (table.insert store.tracker key value).2.2 } := by
  have room : ReflTransGen Tidying store { store with tracker := table.askRoom store.tracker } := by
    unfold Table.askRoom
    split
    · split
      · exact ReflTransGen.single (.ask (.build _) trivial)
      · exact ReflTransGen.refl
    · exact ReflTransGen.refl
  unfold Table.insert
  cases table.makeRoom store.tracker with
  | error stop => exact room
  | ok grown =>
      simp only
      cases grown.probe key with
      | endless => exact room
      | full => exact room
      | found index => exact room
      | vacant index =>
          have asked := ReflTransGen.tail room (.ask .insert trivial)
          simp only [asking, Query.pose] at asked
          rcases answer : Tracker.insert (table.askRoom store.tracker) with ⟨_ | refusal, tracker⟩
          · rw [answer] at asked
            exact asked
          · rw [answer] at asked
            exact asked

/-- Of a table that is in no slot, no more may become than the tracker has agreed to. -/
theorem insert_covered {table : Table Ref} (sized : table.Sized) (store : Store τ) (key : Bytes)
    (value : Ref) : Covered (Payload.dict table).mostBytes store
      (Payload.dict (table.insert store.tracker key value).2.1).mostBytes
      { store with tracker := (table.insert store.tracker key value).2.2 } := by
  have asked := covered_of_tidyings (insert_asks table store key value)
  obtain ⟨-, fewer | ⟨more, granted, answered⟩⟩ := sized.insert store.tracker key value
  · have kept := (covered_add_iff (Payload.dict table).mostBytes).mpr asked
    rw [Nat.zero_add] at kept
    exact kept.mono (Nat.add_le_add_left (Nat.add_le_add_left (Nat.mul_le_mul_left _ fewer) _) _)
  · refine fun storeSized => ⟨(asked storeSized).1, fun ledger => ?_⟩
    have room := ledger.le_askRoom table store.tracker
    have booked := ledger.insert granted
    have entries : Table.entryBytes * (table.insert store.tracker key value).2.1.fill ≤
        Table.entryBytes * table.fill + Table.entryBytes :=
      Nat.mul_le_mul_left Table.entryBytes more
    simp only [answered, mostBytes, Payload.mostBytes]
    omega

/-! ## Containers -/

omit [Tracker τ] in
/-- Where something was given back, the result is known. -/
theorem eq_of_worked {act : StoreM τ α} {pair worked : γ × Except Cause β} {before after : Store τ}
    (ran : (act *> Pure.pure pair : StoreM τ _) before = .ok worked after) :
    worked = pair ∧ ∃ value, act before = .ok value after := by
  obtain ⟨value, middle, acted, done⟩ := bind_eq_ok ran
  cases done
  exact ⟨rfl, value, acted⟩

theorem tableInsert_tidies (key : Bytes) (value : Ref) (table : Table Ref) :
    Tidies (tableInsert key value table : StoreM τ _) := by
  intro before
  have asked := insert_asks table before key value
  unfold tableInsert
  rcases result : table.insert before.tracker key value with ⟨outcome, changed, tracker⟩
  rw [result] at asked
  rcases outcome with (cause | broken | _) | displaced
  · exact ((release_tidies value).worked (changed, .error cause) { before with tracker }).head asked
  · trivial
  · trivial
  · exact ((releaseOption_tidies displaced).worked (changed, .ok ()) { before with tracker }).head
      asked

theorem tableInsert_refits (key : Bytes) (value : Ref) (table : Table Ref) :
    Refits .dict table (tableInsert key value table : StoreM τ _) where
  tidies := tableInsert_tidies key value table
  becomes _ worked _ _ := .dict table worked.1
  covered before worked after ran sized := by
    have newSized := (Table.Sized.insert sized before.tracker key value).1
    have charged := insert_covered sized before key value
    unfold tableInsert at ran
    rcases result : table.insert before.tracker key value with ⟨outcome, changed, tracker⟩
    rw [result] at ran newSized charged
    rcases outcome with (cause | broken | _) | displaced
    · obtain ⟨rfl, _, released⟩ := eq_of_worked ran
      exact ⟨newSized, charged.trans ((release_tidies value).covered released _)⟩
    · cases ran
    · cases ran
    · obtain ⟨rfl, _, released⟩ := eq_of_worked ran
      exact ⟨newSized, charged.trans ((releaseOption_tidies displaced).covered released _)⟩

theorem tableErase_tidies (key : Bytes) (table : Table Ref) :
    Tidies (tableErase key table : StoreM τ _) := by
  unfold tableErase
  rcases table.erase key with ⟨(cause | broken | _) | value, changed⟩
  · exact .pure _
  · exact .fault broken
  · exact .unfinished
  · exact (release_tidies value).worked _

theorem tableErase_refits (key : Bytes) (table : Table Ref) :
    Refits .dict table (tableErase key table : StoreM τ _) := by
  refine .of_lighter (tableErase_tidies key table) (.dict table)
    fun before worked after ran sized => ?_
  obtain ⟨newSized, fill⟩ := Table.Sized.erase sized key
  have same : worked.1 = (table.erase key).2 := by
    unfold tableErase at ran
    rcases erased : table.erase key with ⟨(cause | broken | _) | value, changed⟩
    all_goals rw [erased] at ran
    · cases ran
      rfl
    · cases ran
    · cases ran
    · rw [(eq_of_worked ran).1]
  rw [same]
  refine ⟨newSized, ?_⟩
  simp only [Payload.mostBytes, fill, Nat.le_refl]

theorem replaceItem_tidies (kind : Kind) (index : Nat) (value : Ref) (items : Array Ref) :
    Tidies (replaceItem kind index value items : StoreM τ _) := by
  unfold replaceItem
  cases items[index]? with
  | some displaced => exact (release_tidies displaced).worked _
  | none => exact (release_tidies value).worked _

/-- There are as many items as before. -/
theorem replaceItem_size {kind : Kind} {index : Nat} {value : Ref} {items : Array Ref}
    {worked : Array Ref × Except Cause Unit} {before after : Store τ}
    (ran : replaceItem kind index value items before = .ok worked after) :
    worked.1.size = items.size := by
  unfold replaceItem at ran
  cases found : items[index]? with
  | some displaced =>
      rw [found] at ran
      rw [(eq_of_worked ran).1, Array.size_setIfInBounds]
  | none =>
      rw [found] at ran
      rw [(eq_of_worked ran).1]

theorem replaceItem_refits_list (index : Nat) (value : Ref) (items : Array Ref) :
    Refits .list items (replaceItem .list index value items : StoreM τ _) := by
  refine .of_lighter (replaceItem_tidies _ _ _ _) (.list items) fun before worked after ran _ => ?_
  refine ⟨trivial, ?_⟩
  simp only [Payload.mostBytes, Payload.bytes, replaceItem_size ran, Nat.le_refl]

theorem replaceItem_refits_tuple (index : Nat) (value : Ref) (items : Array Ref) :
    Refits .tuple items (replaceItem .tuple index value items : StoreM τ _) := by
  refine .of_lighter (replaceItem_tidies _ _ _ _) (.tuple items) fun before worked after ran _ => ?_
  refine ⟨trivial, ?_⟩
  simp only [Payload.mostBytes, Payload.bytes, replaceItem_size ran, Nat.le_refl]

/-- What gives something back and refuses leaves the rest as it was. -/
theorem refused_refits {act : StoreM τ α} {pack : γ → Payload} (content : γ) (cause : Cause)
    (tidies : Tidies act) : Refits pack content
      (act *> Pure.pure (content, .error cause) : StoreM τ (γ × Except Cause β)) where
  tidies := tidies.worked _
  becomes before worked after ran := by
    rw [(eq_of_worked ran).1]
    exact .same (pack content)
  covered before worked after ran sized := by
    obtain ⟨rfl, _, released⟩ := eq_of_worked ran
    exact ⟨sized, tidies.covered released _⟩

theorem growItems_tidies (position : Nat) (value : Ref) (items : Array Ref) :
    Tidies (growItems position value items : StoreM τ _) := by
  refine chargeInsert_tidies.bind fun result => ?_
  cases result with
  | ok _ => exact .pure _
  | error cause => exact (release_tidies value).worked (items, .error cause)

theorem attempt_chargeInsert (before : Store τ) :
    attempt (chargeInsert : StoreM τ Unit) before =
      .ok (match (Tracker.insert before.tracker).1 with
        | none => .ok ()
        | some refusal => .error (.refused refusal)) (before.asking .insert) := by
  unfold attempt chargeInsert asking Query.pose
  rcases Tracker.insert before.tracker with ⟨_ | refusal, tracker⟩ <;> rfl

/-- There is one item more. -/
theorem mostBytes_insertIdx_le (position : Nat) (value : Ref) (items : Array Ref) :
    (Payload.list (items.insertIdxIfInBounds position value)).mostBytes ≤
      (Payload.list items).mostBytes + Payload.refBytes := by
  simp only [Payload.mostBytes, Payload.bytes, Array.insertIdxIfInBounds]
  split
  · rw [Array.size_insertIdx, Nat.mul_succ, Nat.add_assoc]
  · exact Nat.le_add_right _ _

theorem growItems_refits (position : Nat) (value : Ref) (items : Array Ref) :
    Refits .list items (growItems position value items : StoreM τ _) where
  tidies := growItems_tidies position value items
  becomes _ worked _ _ := .list items worked.1
  covered before worked after ran _ := by
    obtain ⟨result, middle, charged, rest⟩ := bind_eq_ok ran
    rw [attempt_chargeInsert] at charged
    cases charged
    cases granted : (Tracker.insert before.tracker).1 with
    | none =>
        rw [granted] at rest
        cases rest
        refine ⟨trivial, fun sized => ⟨sized, fun ledger => ?_⟩⟩
        have booked := ledger.insert granted
        have grown := mostBytes_insertIdx_le position value items
        have enough : Payload.refBytes ≤ Table.entryBytes := by decide
        simp only [asking, Query.pose, mostBytes]
        omega
    | some refusal =>
        rw [granted] at rest
        obtain ⟨rfl, _, released⟩ := eq_of_worked rest
        have asked := Tidies.covered (chargeInsert_tidies (τ := τ)) (attempt_chargeInsert before)
          (Payload.list items).mostBytes
        exact ⟨trivial, asked.trans ((release_tidies value).covered released _)⟩

theorem refuseObject_refits (refs : List Ref) (payload : Payload) :
    Refits id payload (refuseObject refs payload : StoreM τ _) :=
  refused_refits payload .badCall (releaseAll_tidies refs)

theorem lendingTable_evolves {work : Table Ref → StoreM τ (Table Ref × Except Cause Unit)}
    (dict : Ref) (refs : List Ref)
    (refits : ∀ table, Refits .dict table (work table)) :
    Evolves (lendingTable dict refs work) := by
  refine lending_evolves dict fun payload => ?_
  cases payload
  case dict table => exact (refits table).repacked
  all_goals exact refuseObject_refits refs _

theorem lendingList_evolves {work : Array Ref → StoreM τ (Array Ref × Except Cause Unit)}
    (list : Ref) (refs : List Ref)
    (refits : ∀ items, Refits .list items (work items)) :
    Evolves (lendingList list refs work) := by
  refine lending_evolves list fun payload => ?_
  cases payload
  case list items => exact (refits items).repacked
  all_goals exact refuseObject_refits refs _

theorem lendingTuple_evolves {work : Array Ref → StoreM τ (Array Ref × Except Cause Unit)}
    (tuple : Ref) (refs : List Ref)
    (refits : ∀ items, Refits .tuple items (work items)) :
    Evolves (lendingTuple tuple refs work) := by
  refine lending_evolves tuple fun payload => ?_
  cases payload
  case tuple items => exact (refits items).repacked
  all_goals exact refuseObject_refits refs _

theorem dictInsert_evolves (dict : Ref) (key : Bytes) (value : Ref) :
    Evolves (dictInsert dict key value : StoreM τ Unit) :=
  lendingTable_evolves dict [value] (tableInsert_refits key value)

theorem dictRemove_evolves (dict : Ref) (key : Bytes) :
    Evolves (dictRemove dict key : StoreM τ Unit) :=
  lendingTable_evolves dict [] (tableErase_refits key)

theorem listSet_evolves (list : Ref) (index : Nat) (value : Ref) :
    Evolves (listSet list index value : StoreM τ Unit) :=
  lendingList_evolves list [value] (replaceItem_refits_list index value)

theorem tupleSet_evolves (tuple : Ref) (index : Nat) (value : Ref) :
    Evolves (tupleSet tuple index value : StoreM τ Unit) :=
  lendingTuple_evolves tuple [value] (replaceItem_refits_tuple index value)

theorem listInsert_evolves (list : Ref) (index : Int64) (value : Ref) :
    Evolves (listInsert list index value : StoreM τ Unit) :=
  lendingList_evolves list [value] fun items => growItems_refits _ value items

theorem listAppend_evolves (list value : Ref) : Evolves (listAppend list value : StoreM τ Unit) :=
  lendingList_evolves list [value] fun items => growItems_refits _ value items

theorem dictLookup_evolves (dict : Ref) (key : Bytes) :
    Evolves (dictLookup dict key : StoreM τ (Option Ref)) := by
  refine (get_evolves dict).bind fun payload => ?_
  cases payload
  case dict table => exact .reading _
  all_goals exact .pure none

end StackMachine.StoreM

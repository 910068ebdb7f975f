import StackMachine.Machine.Run
import StackMachine.Proofs.Store.Accounting
import StackMachine.Proofs.Tracking.Mirroring

/-!
# Operations on a watched store

Every operation on the store accounts for the refusals it meets.  Only a few of them
ask the tracker at all: allocations, insertions into containers, new tables, new frames
and instructions.  A dictionary that is not allowed to be rebuilt goes on with the table
it has; every other refusal makes the operation fail.
-/

namespace StackMachine

variable {τ ρ π α β : Type} [Tracker τ] [Tracker ρ] [Tracker π] {view : View τ ρ π}

instance : Watching (Store (Seen view)) (Store π) τ ρ where
  plain store := ⟨store.cells, store.free, view.shows store.tracker⟩
  watched store := store.tracker
  agrees := view.agrees

namespace StoreM

open Outcome Watching

/-- An operation on the store, with a watched tracker and with what is seen of it, that fails for
every refusal it meets. -/
abbrev Heeds (view : View τ ρ π) (act : StoreM (Seen view) α)
    (other : StoreM π α) : Prop :=
  Outcome.Heeds act other

/-- An operation on the store, with a watched tracker and with what is seen of it, that meets no
refusal and does not fail. -/
abbrev Cleans (view : View τ ρ π) (act : StoreM (Seen view) α)
    (other : StoreM π α) : Prop :=
  Tidies Entry.Granted act other

/-! ## What the tracker is not asked about -/

theorem get_heeds (ref : Ref) : Heeds view (get ref) (get ref) :=
  .reading fun _ => rfl

/-- An operation on one slot that the tracker knows nothing of. -/
theorem cleans_of_cell {act : StoreM (Seen view) α} {other : StoreM π α} (ref : Ref)
    (change : Cell → Option (α × Cell)) (fault : Option Cell → Fault)
    (acts : ∀ store, act store = match (store.cell? ref).bind change with
      | some (value, cell) => .ok value (store.setCell ref (some cell))
      | none => .error (.fault (fault (store.cell? ref))) store)
    (others : ∀ store, other store = match (store.cell? ref).bind change with
      | some (value, cell) => .ok value (store.setCell ref (some cell))
      | none => .error (.fault (fault (store.cell? ref))) store) :
    Cleans view act other := by
  intro store
  have same : (plain store).cell? ref = store.cell? ref := rfl
  cases changed : (store.cell? ref).bind change with
  | some result =>
      obtain ⟨value, cell⟩ := result
      refine .ok value (store.setCell ref (some cell)) ?_ (fun _ => ?_) (.refl _) (.refl _ store)
      · rw [acts, changed]
      · rw [others, same, changed]
        rfl
  | none =>
      refine .error (.fault (fault (store.cell? ref))) store ?_ (fun _ => ?_) (.refl _) ⟨_, rfl⟩
      · rw [acts, changed]
      · rw [others, same, changed]

theorem acquire_cleans (ref : Ref) : Cleans view (acquire ref) (acquire ref) := by
  refine cleans_of_cell ref (fun cell => some (ref, { cell with count := cell.count + 1 }))
    (fun _ => .vacant ref) ?_ ?_
  all_goals
    intro store
    unfold acquire
    cases store.cell? ref <;> rfl

theorem putBack_cleans (ref : Ref) (payload : Payload) :
    Cleans view (putBack ref payload) (putBack ref payload) := by
  refine cleans_of_cell ref (fun cell => some ((), { cell with payload := some payload }))
    (fun _ => .vacant ref) ?_ ?_
  all_goals
    intro store
    unfold putBack
    cases store.cell? ref <;> rfl

theorem lend_cleans (ref : Ref) : Cleans view (lend ref) (lend ref) := by
  refine cleans_of_cell ref
    (fun cell => cell.payload.map fun payload => (payload, ⟨cell.count, none⟩))
    (fun cell => if cell.isSome then .lent ref else .vacant ref) ?_ ?_
  all_goals
    intro store
    unfold lend
    rcases store.cell? ref with _ | ⟨count, _ | payload⟩ <;> rfl

theorem acquireAll_cleans (refs : List Ref) : Cleans view (acquireAll refs) (acquireAll refs) := by
  induction refs with
  | nil => exact .pure ()
  | cons ref rest ih => exact (acquire_cleans ref).bind fun _ => ih

/-! ## Giving back -/

theorem plain_vacate {store : Store (Seen view)} {ref : Ref} {payload : Option Payload}
    (agreed : Agreed (store.vacate ref payload)) :
    plain (store.vacate ref payload) = (plain store : Store π).vacate ref payload := by
  cases payload with
  | none => rfl
  | some payload =>
      have posed := view.poses (.free payload.bytes) store.tracker (agreed _ List.mem_cons_self)
      exact congrArg (Store.mk _ _) (congrArg Prod.snd posed).symm

theorem adds_vacate (store : Store (Seen view)) (ref : Ref) (payload : Option Payload) :
    store.tracker.Continues (store.vacate ref payload).tracker ∧
      Adds Entry.Granted store (store.vacate ref payload) := by
  cases payload with
  | none => exact ⟨.refl _, .refl _ store⟩
  | some payload =>
      refine ⟨Watched.continues_note _ _, [store.tracker.entry (.free payload.bytes)], rfl, ?_⟩
      intro entry member
      obtain rfl := List.mem_singleton.mp member
      rfl

theorem releaseAll_cleans (refs : List Ref) : Cleans view (releaseAll refs) (releaseAll refs) := by
  intro store
  show Mirrors (Store.drain refs) (Store.drain refs) store _ _
  induction refs, store using Store.drain.induct with
  | case1 store =>
      refine .ok () store ?_ (fun _ => ?_) (.refl _) (.refl _ store)
      · rw [Store.drain]
      · rw [Store.drain]
  | case2 store ref rest missing =>
      have absent : (plain store : Store π).cell? ref = none := missing
      exact .error (.fault (.vacant ref)) store (Store.drain_of_missing missing)
        (fun _ => Store.drain_of_missing absent) (.refl _) ⟨_, rfl⟩
  | case3 store ref rest cell found shared ih =>
      have present : (plain store : Store π).cell? ref = some cell := found
      refine ih.rebase ?_ (fun _ => ?_) (.refl _)
      · rw [Store.drain_of_found found, dif_pos shared]
      · rw [Store.drain_of_found present, dif_pos shared]
        rfl
  | case4 store ref rest cell found last ih =>
      have present : (plain store : Store π).cell? ref = some cell := found
      obtain ⟨continues, adds⟩ := adds_vacate store ref cell.payload
      refine (ih.rebase ?_ (fun agreed => ?_) continues).mono (fun _ _ later => adds.trans later) ?_
      · rw [Store.drain_of_found found, dif_neg last]
      · rw [Store.drain_of_found present, dif_neg last, plain_vacate agreed]
      · exact fun _ _ => id

theorem release_cleans (ref : Ref) : Cleans view (release ref) (release ref) :=
  releaseAll_cleans [ref]

theorem releaseOption_cleans (ref : Option Ref) :
    Cleans view (releaseOption ref) (releaseOption ref) :=
  releaseAll_cleans ref.toList

section Combining

variable {act : StoreM (Seen view) α} {other : StoreM π α} {before : Fate} {fate : α → Fate}

theorem releasing_watches (refs : List Ref) (body : Watches before act other fate) :
    Watches before (releasing refs act) (releasing refs other) fate :=
  body.attempt.bind fun result =>
    ((releaseAll_cleans refs).keeps _).bind fun _ => .settle result

theorem orRelease_watches (refs : List Ref) (body : Watches before act other fate) :
    Watches before (orRelease refs act) (orRelease refs other) fate := by
  refine body.attempt.bind fun result => ?_
  cases result with
  | ok value => exact .pure fate value
  | error cause => exact ((releaseAll_cleans refs).keeps _).bind fun _ => .throw cause

/-- The fate of work that hands over its failure with what it has worked on. -/
def worked {γ : Type} (pair : γ × Except Cause α) : Fate :=
  handed allWell pair.2

/-- Work is over once something was given back. -/
theorem worked_after {γ : Type} {tidy : StoreM (Seen view) Unit} {otherTidy : StoreM π Unit}
    (cleans : Cleans view tidy otherTidy) (pair : γ × Except Cause α) :
    Watches (worked pair) (tidy >>= fun _ => pure pair) (otherTidy >>= fun _ => pure pair) worked :=
  (cleans.keeps _).bind fun _ => .pure worked pair

theorem lending_heeds {work : Payload → StoreM (Seen view) (Payload × Except Cause α)}
    {otherWork : Payload → StoreM π (Payload × Except Cause α)} (ref : Ref)
    (body : ∀ payload, Watches .fine (work payload) (otherWork payload) worked) :
    Heeds view (lending ref work) (lending ref otherWork) := by
  refine (lend_cleans ref).heeds.bind fun payload => (body payload).bind ?_
  rintro ⟨payload, result⟩
  exact ((putBack_cleans ref payload).keeps _).bind fun _ => .settle result

end Combining

/-! ## What the tracker is asked about -/

/-- Go on, or fail for a refusal. -/
def answered {ω : Type} : Option Refusal → StoreM ω Unit
  | none => pure ()
  | some refusal => raise (.refused refusal)

/-- Ask the tracker. -/
def ask {ω : Type} [Tracker ω] (query : Query) : StoreM ω Unit := fun store =>
  answered (query.pose store.tracker).1 { store with tracker := (query.pose store.tracker).2 }

theorem chargeInsert_eq {ω : Type} [Tracker ω] : (chargeInsert : StoreM ω Unit) = ask .insert := by
  funext store
  rcases answer : Tracker.insert store.tracker with ⟨_ | refusal, tracker⟩ <;>
    simp only [chargeInsert, ask, Query.pose, answer] <;> rfl

theorem tick_eq {ω : Type} [Tracker ω] : (MachineM.tick : StoreM ω Unit) = ask .tick := by
  funext store
  rcases answer : Tracker.tick store.tracker with ⟨_ | refusal, tracker⟩ <;>
    simp only [MachineM.tick, ask, Query.pose, answer] <;> rfl

theorem chargeTable_eq {ω : Type} [Tracker ω] (bytes : Nat) :
    (chargeTable bytes : StoreM ω Unit) = ask (.build bytes) := by
  funext store
  cases answer : Tracker.build bytes store.tracker <;>
    simp only [chargeTable, ask, Query.pose, answer] <;> rfl

theorem chargeFrame_eq {ω : Type} [Tracker ω] (depth : Nat) :
    (MachineM.chargeFrame depth : StoreM ω Unit) = ask (.enter depth) := by
  funext store
  cases answer : Tracker.enter depth store.tracker <;>
    simp only [MachineM.chargeFrame, ask, Query.pose, answer] <;> rfl

/-- The store after its tracker was asked. -/
def noted (query : Query) (store : Store (Seen view)) : Store (Seen view) :=
  { store with tracker := store.tracker.note query }

theorem ask_eq (query : Query) (store : Store (Seen view)) :
    ask query store = answered (query.pose store.tracker.tracker).1 (noted query store) := by
  unfold ask
  have posed : query.pose store.tracker =
      ((query.pose store.tracker.tracker).1, store.tracker.note query) :=
    Watched.pose_eq query store.tracker
  rw [posed]
  rfl

/-- Where what is seen agrees, it is asked to the same effect. -/
theorem ask_plain (query : Query) (store : Store (Seen view))
    (agreed : Agreed (noted query store)) :
    ask query (plain store : Store π) =
      answered (query.pose store.tracker.tracker).1 (plain (noted query store)) := by
  have posed := view.poses query store.tracker (agreed _ List.mem_cons_self)
  show answered (query.pose (view.shows store.tracker)).1 _ = _
  rw [posed]
  show answered _ (Store.mk store.cells store.free (query.pose (view.shows store.tracker)).2) = _
  rw [posed]
  rfl

/-- What is asked is granted, or it is refused and that is the failure. -/
theorem ask_mirrors (query : Query) (store : Store (Seen view)) :
    Mirrors (ask query) (ask query : StoreM π Unit) store
      (fun _ after => after = noted query store ∧ (store.tracker.entry query).Granted)
      fun stop after => after = noted query store ∧ ∃ refusal,
        stop = .failed (.refused refusal) ∧ (store.tracker.entry query).answer = some refusal := by
  have asked := ask_eq query store
  have plainly := ask_plain query store
  have continues : store.tracker.Continues (noted query store).tracker :=
    Watched.continues_note query store.tracker
  cases answer : (query.pose store.tracker.tracker).1 with
  | none =>
      rw [answer] at asked plainly
      exact .ok () _ asked plainly continues ⟨rfl, answer⟩
  | some refusal =>
      rw [answer] at asked plainly
      exact .error _ _ asked plainly continues ⟨rfl, refusal, rfl, answer⟩

theorem ask_heeds (query : Query) : Heeds view (ask query) (ask query) := by
  intro store since accounts
  refine (ask_mirrors query store).mono ?_ ?_
  · rintro _ _ ⟨rfl, granted⟩
    exact accounts.cons (Or.inl granted)
  · rintro _ _ ⟨rfl, refusal, rfl, refused⟩
    exact (accounts.admitted _).cons (Or.inr ⟨refusal, refused, rfl⟩)

/-- Asking makes one entry. -/
theorem ask_risks {allowed : Entry → Prop} (query : Query)
    (fits : ∀ entry : Entry, entry.query = query → allowed entry) :
    Risks allowed (ask query : StoreM (Seen view) Unit) (ask query : StoreM π Unit) := by
  intro store
  have adds : Adds allowed store (noted query store) := by
    refine ⟨[store.tracker.entry query], rfl, fun entry member => ?_⟩
    obtain rfl := List.mem_singleton.mp member
    exact fits _ rfl
  refine (ask_mirrors query store).mono ?_ ?_
  · rintro _ _ ⟨rfl, -⟩
    exact adds
  · rintro _ _ ⟨rfl, refusal, rfl, -⟩
    exact Or.inr ⟨_, rfl, adds⟩

theorem chargeInsert_heeds : Heeds view chargeInsert chargeInsert := by
  rw [chargeInsert_eq, chargeInsert_eq]
  exact ask_heeds .insert

theorem chargeTable_heeds (bytes : Nat) : Heeds view (chargeTable bytes) (chargeTable bytes) := by
  rw [chargeTable_eq, chargeTable_eq]
  exact ask_heeds (.build bytes)

/-- Put an object into a slot. -/
def placing {ω : Type} (payload : Payload) : StoreM ω Ref := fun store =>
  .ok (store.place payload).1 (store.place payload).2

theorem place_plain (store : Store (Seen view)) (payload : Payload) :
    (store.place payload).2.tracker = store.tracker ∧
      (plain store : Store π).place payload =
        ((store.place payload).1, plain (store.place payload).2) := by
  obtain ⟨cells, free, tracker⟩ := store
  cases free <;> exact ⟨rfl, rfl⟩

theorem placing_cleans (payload : Payload) : Cleans view (placing payload) (placing payload) := by
  intro store
  obtain ⟨tracker_eq, same⟩ := place_plain store payload
  refine .ok (store.place payload).1 (store.place payload).2 rfl (fun _ => ?_) ?_ ⟨[], ?_, by simp⟩
  · rw [placing, same]
  · show store.tracker.Continues (store.place payload).2.tracker
    rw [tracker_eq]
    exact .refl store.tracker
  · exact congrArg Watched.log tracker_eq

/-- Making an object asks the tracker first; where it refuses, the parts are given back. -/
theorem allocate_eq {ω : Type} [Tracker ω] (payload : Payload) :
    (allocate payload : StoreM ω Ref) =
      orRelease payload.children (ask (.allocate payload.bytes)) >>= fun _ => placing payload := by
  funext store
  unfold allocate orRelease
  rw [bind_assoc]
  rcases answer : Tracker.allocate payload.bytes store.tracker with ⟨_ | refusal, tracker⟩
  · have asked : attempt (ask (.allocate payload.bytes)) store =
        .ok (.ok ()) { store with tracker } := by
      simp only [attempt, ask, Query.pose, answer]
      rfl
    rw [bind_ok asked]
    rfl
  · have asked : attempt (ask (.allocate payload.bytes)) store =
        .ok (.error (.refused refusal)) { store with tracker } := by
      simp only [attempt, ask, Query.pose, answer]
      rfl
    rw [bind_ok asked]
    show _ = EStateM.bind (EStateM.bind (Store.drain payload.children) _) _ { store with tracker }
    cases drained : Store.drain payload.children { store with tracker } with
    | ok value after =>
        simp only [EStateM.bind, drained]
        rfl
    | error stop after => simp only [EStateM.bind, drained]

theorem allocate_heeds (payload : Payload) : Heeds view (allocate payload) (allocate payload) := by
  rw [allocate_eq, allocate_eq]
  exact (orRelease_watches _ (ask_heeds _)).bind fun _ => (placing_cleans payload).heeds

/-- Making an object asks for nothing but that. -/
theorem allocate_risks (payload : Payload) :
    Risks Entry.Minor (allocate payload : StoreM (Seen view) Ref)
      (allocate payload : StoreM π Ref) := by
  have asked : Risks Entry.Minor (ask (.allocate payload.bytes) : StoreM (Seen view) Unit)
      (ask (.allocate payload.bytes) : StoreM π Unit) :=
    ask_risks _ fun _ same => Or.inr ⟨_, same⟩
  have minor : ∀ entry : Entry, entry.Granted → entry.Minor := fun _ => Or.inl
  rw [allocate_eq, allocate_eq]
  refine Risks.bind (asked.attempt.risks.bind fun result => ?_) fun _ =>
    ((placing_cleans payload).mono minor).risks
  cases result with
  | ok _ => exact (Tidies.pure ()).risks
  | error cause =>
      exact ((releaseAll_cleans payload.children).mono minor).risks.bind fun _ => .throw cause

/-! ## Tables -/

section Tables

variable {γ : Type}

/-- A dictionary asks for nothing but a table to be rebuilt in. -/
theorem askRoom_plain (table : Table γ) (watched : Seen view) :
    (table.askRoom watched = watched ∧ table.askRoom (view.shows watched) = view.shows watched ∧
        table.makeRoom (view.shows watched) = table.makeRoom watched) ∨
      ∃ query : Query, query.IsRebuild ∧ table.askRoom watched = watched.note query ∧
        (view.Agrees (watched.note query) →
          table.askRoom (view.shows watched) = view.shows (watched.note query) ∧
          table.makeRoom (view.shows watched) = table.makeRoom watched) := by
  unfold Table.askRoom Table.makeRoom Table.rebuild
  split
  · cases found : Table.nextSize? table.used with
    | some size =>
        refine Or.inr ⟨.build (size * Table.slotBytes), ⟨size, ?_, rfl⟩, rfl, fun agreed => ?_⟩
        · exact List.mem_of_find?_eq_some found
        · have posed := view.poses (.build (size * Table.slotBytes)) watched
            (agreed _ List.mem_cons_self)
          have answered : Tracker.build (size * Table.slotBytes) (view.shows watched) =
              Tracker.build (size * Table.slotBytes) watched := congrArg Prod.fst posed
          refine ⟨congrArg Prod.snd posed, ?_⟩
          simp only [answered]
    | none => exact Or.inl ⟨rfl, rfl, rfl⟩
  · exact Or.inl ⟨rfl, rfl, rfl⟩

/-- Making room is granted or does without. -/
theorem askRoom_accounts (table : Table γ) (watched : Seen view) {since : List Entry}
    (accounts : Fate.fine.Accounts since watched.log) :
    watched.Continues (table.askRoom watched : Seen view) ∧
      Fate.fine.Accounts since (table.askRoom watched).log ∧
      (view.Agrees (table.askRoom watched : Seen view) →
        table.askRoom (view.shows watched) = view.shows (table.askRoom watched : Seen view) ∧
        table.makeRoom (view.shows watched) = table.makeRoom watched) := by
  rcases askRoom_plain table watched with
    ⟨unasked, plainly, same⟩ | ⟨query, rebuild, asked, same⟩
  · rw [unasked]
    exact ⟨.refl _, accounts, fun _ => ⟨plainly, same⟩⟩
  · rw [asked]
    exact ⟨Watched.continues_note query watched, accounts.cons (Or.inr rebuild), same⟩

/-- The fate of a change to a table. -/
def insertFate : Except (Stop Cause) γ → Fate
  | .error (.failed cause) => .failing cause
  | _ => .fine

/-- Binding a key, with a watched tracker and with what is seen of it. -/
theorem insert_accounts (table : Table γ) (watched : Seen view) (key : Bytes) (value : γ)
    {since : List Entry} (accounts : Fate.fine.Accounts since watched.log) :
    watched.Continues (table.insert watched key value).2.2 ∧
      (insertFate (table.insert watched key value).1).Accounts since
        (table.insert watched key value).2.2.log ∧
      (view.Agrees (table.insert watched key value).2.2 →
        table.insert (view.shows watched) key value =
          ((table.insert watched key value).1, (table.insert watched key value).2.1,
            view.shows (table.insert watched key value).2.2)) := by
  obtain ⟨continues, asked, same⟩ := askRoom_accounts table watched accounts
  unfold Table.insert
  cases made : table.makeRoom watched with
  | error stop =>
      refine ⟨continues, asked.admitted _, fun agreed => ?_⟩
      rw [(same agreed).2, made, (same agreed).1]
  | ok grown =>
      simp only
      cases probed : grown.probe key with
      | endless =>
          refine ⟨continues, asked.admitted _, fun agreed => ?_⟩
          simp only [(same agreed).2, made, (same agreed).1, probed]
      | full =>
          refine ⟨continues, asked.admitted _, fun agreed => ?_⟩
          simp only [(same agreed).2, made, (same agreed).1, probed]
      | found index =>
          refine ⟨continues, asked.admitted _, fun agreed => ?_⟩
          simp only [(same agreed).2, made, (same agreed).1, probed]
      | vacant index =>
          let room := table.askRoom watched
          have posed : Tracker.insert room = ((Tracker.insert room.tracker).1, room.note .insert) :=
            rfl
          have noted := Watched.continues_note .insert room
          have alike (agreed : view.Agrees (room.note .insert)) :
              Tracker.insert (view.shows room) =
                ((Tracker.insert room.tracker).1, view.shows (room.note .insert)) :=
            view.poses .insert room (agreed _ List.mem_cons_self)
          cases answer : (Tracker.insert room.tracker).1 with
          | none =>
              rw [answer] at posed alike
              simp only [posed, room]
              refine ⟨continues.trans noted, asked.cons (Or.inl answer), fun agreed => ?_⟩
              obtain ⟨asks, makes⟩ := same (noted.all agreed)
              simp only [makes, made, asks, probed, alike agreed, room]
          | some refusal =>
              rw [answer] at posed alike
              simp only [posed, room]
              refine ⟨continues.trans noted,
                (asked.admitted _).cons (Or.inr ⟨refusal, answer, rfl⟩), fun agreed => ?_⟩
              obtain ⟨asks, makes⟩ := same (noted.all agreed)
              simp only [makes, made, asks, probed, alike agreed, room]

end Tables

end StoreM

end StackMachine

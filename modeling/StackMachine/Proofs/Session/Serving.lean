import StackMachine.Proofs.Machine.Host
import StackMachine.Session.Basic

/-!
# Sessions that hold what they own

The registers of a session own the references in them.  `Serves` describes an
operation of a session by the references it leaves with whoever asked for it, besides
those in the registers.  Where the reply comes early, nothing is left.

An operation of a session never fails: an ordinary failure is a reply.  It leaves the registers
alone that it has not been told to touch, and keeps what is in them.
-/

namespace StackMachine

variable {τ α β : Type}

/-! ## Registers -/

section Registers

variable {registers : List (Register × Ref)} {name : Register} {ref : Ref}

theorem filter_ne_of_lookup_none (absent : registers.lookup name = none) :
    (registers.filter fun entry => entry.1 != name) = registers := by
  rw [List.filter_eq_self]
  intro entry member
  rw [bne_comm]
  exact List.lookup_eq_none_iff.mp absent entry member

theorem name_not_mem_filter (name : Register) (registers : List (Register × Ref)) :
    name ∉ (registers.filter fun entry => entry.1 != name).map (·.1) := by
  intro member
  obtain ⟨entry, kept, rfl⟩ := List.mem_map.mp member
  simpa using (List.mem_filter.mp kept).2

/-- What is in a register and what is in the others is what is in all of them. -/
theorem refs_perm (names : (registers.map (·.1)).Nodup) (name : Register) :
    ((registers.lookup name).toList ++
        (registers.filter fun entry => entry.1 != name).map (·.2)).Perm
      (registers.map (·.2)) := by
  induction registers with
  | nil => exact List.Perm.refl _
  | cons entry rest ih =>
      obtain ⟨key, ref⟩ := entry
      obtain ⟨fresh, names⟩ := List.nodup_cons.mp names
      by_cases same : key = name
      · have absent : rest.lookup name = none := by
          rw [List.lookup_eq_none_iff]
          intro other member
          rw [bne_iff_ne]
          intro again
          exact fresh (List.mem_map.mpr ⟨other, member, again.symm.trans same.symm⟩)
        rw [same, List.lookup_cons_self, List.filter_cons_of_neg (by simp),
          filter_ne_of_lookup_none absent]
        exact List.Perm.refl _
      · rw [List.lookup_cons, beq_eq_false_iff_ne.mpr (Ne.symm same),
          List.filter_cons_of_pos (by simpa using same)]
        exact List.perm_middle.trans ((ih names).cons ref)

end Registers

namespace Session

open Store Machine

variable {session : Session τ} {held taken : List Ref} {name : Register} {ref : Ref}

/-- The references in the registers. -/
def refs (session : Session τ) : List Ref :=
  session.registers.map (·.2)

/-- The machine is idle, and its host holds `held` besides what is in the registers. -/
structure Holds (session : Session τ) (held : List Ref) : Prop where
  idle : session.machine.Idle (held ++ session.refs)
  names : (session.registers.map (·.1)).Nodup

/-- What there is for an operation on the store to keep. -/
def others (session : Session τ) (held : List Ref) : List Ref :=
  (held ++ session.refs) ++ (session.machine.values.items ++ session.machine.errorRefs)

theorem Holds.perm {others : List Ref} (holds : session.Holds held) (same : held.Perm others) :
    session.Holds others :=
  ⟨holds.idle.perm (same.append_right _), holds.names⟩

theorem Holds.sound (holds : session.Holds held) :
    session.machine.store.Sound (session.others held) session.machine.internals :=
  holds.idle.ready.sound

theorem Holds.sound_taken (holds : session.Holds (taken ++ held)) :
    session.machine.store.Sound (taken ++ session.others held) session.machine.internals := by
  have sound := holds.sound
  rw [others, List.append_assoc, List.append_assoc] at sound
  rw [others, List.append_assoc]
  exact sound

theorem Holds.sound_cons (holds : session.Holds (ref :: held)) :
    session.machine.store.Sound (ref :: session.others held) session.machine.internals :=
  holds.sound

theorem mem_refs_of_lookup (found : session.registers.lookup name = some ref) :
    ref ∈ session.refs := by
  obtain ⟨before, after, equal, -⟩ := List.lookup_eq_some_iff.mp found
  rw [refs, equal]
  simp

theorem mem_others_of_lookup (found : session.registers.lookup name = some ref)
    (held : List Ref) : ref ∈ session.others held :=
  List.mem_append_left _ (List.mem_append_right _ (mem_refs_of_lookup found))

theorem mem_others_of_held (member : ref ∈ held) : ref ∈ session.others held :=
  List.mem_append_left _ (List.mem_append_left _ member)

theorem Holds.usable (holds : session.Holds held)
    (found : session.registers.lookup name = some ref) : session.machine.store.Usable ref :=
  holds.sound.usable (mem_others_of_lookup found held)

/-! ## Registers that are left alone -/

variable {before middle after : Session τ} {touched : List Register}

/-- The registers besides those that may be touched. -/
def untouched (session : Session τ) (touched : List Register) : List (Register × Ref) :=
  session.registers.filter fun entry => entry.1 ∉ touched

/-- The references in the registers besides those that may be touched. -/
def spared (session : Session τ) (touched : List Register) : List Ref :=
  (session.untouched touched).map (·.2)

/-- Only some registers were touched.  What is in the others was kept, and so was what the host
holds besides. -/
structure Spares (before : Session τ) (touched : List Register) (held : List Ref)
    (after : Session τ) : Prop where
  registers : after.untouched touched = before.untouched touched
  keeps : Keeps (held ++ before.spared touched) before.machine.store after.machine.store

theorem spared_subset (session : Session τ) (touched : List Register) :
    session.spared touched ⊆ session.refs :=
  (List.filter_sublist.map _).subset

theorem Spares.refl (session : Session τ) (touched : List Register) (held : List Ref) :
    session.Spares touched held session :=
  ⟨rfl, Keeps.refl _ _⟩

theorem Spares.spared_eq (spares : before.Spares touched held after) :
    after.spared touched = before.spared touched := by
  rw [spared, spared, spares.registers]

theorem Spares.trans (earlier : before.Spares touched held middle)
    (later : middle.Spares touched held after) : before.Spares touched held after :=
  ⟨later.registers.trans earlier.registers, earlier.keeps.trans (earlier.spared_eq ▸ later.keeps)⟩

theorem Spares.mono {fewer : List Ref} (spares : before.Spares touched held after)
    (sub : fewer ⊆ held) : before.Spares touched fewer after :=
  ⟨spares.registers, spares.keeps.mono (List.append_subset.mpr
    ⟨List.subset_append_of_subset_left _ sub, List.subset_append_right _ _⟩)⟩

/-- The machine goes on, and keeps what its host holds. -/
theorem spares_of_keeps {machine : Machine τ}
    (keeps : Keeps (held ++ session.refs) session.machine.store machine.store) :
    session.Spares touched held { session with machine } :=
  ⟨rfl, keeps.mono (append_subset_append held (session.spared_subset touched))⟩

theorem untouched_filter_ne (touches : name ∈ touched) :
    (session.registers.filter fun entry => entry.1 != name).filter
      (fun entry => entry.1 ∉ touched) = session.untouched touched := by
  rw [List.filter_filter]
  refine List.filter_congr fun entry _ => ?_
  by_cases same : entry.1 = name
  · simp [same, touches]
  · simp [same]

/-- A register that may be touched is emptied. -/
theorem spares_emptied (touches : name ∈ touched) :
    session.Spares touched held
      { session with registers := session.registers.filter fun entry => entry.1 != name } :=
  ⟨untouched_filter_ne touches, Keeps.refl _ _⟩

/-- A register that may be touched is filled. -/
theorem spares_filled (touches : name ∈ touched) (seen : List (Register × Ref)) :
    session.Spares touched held { session with
      registers := (name, ref) :: session.registers.filter (fun entry => entry.1 != name),
      seen } := by
  refine ⟨?_, Keeps.refl _ _⟩
  rw [untouched, List.filter_cons_of_neg (by simpa using touches)]
  exact untouched_filter_ne touches

end Session

namespace SessionM

open Store Outcome Machine Session

variable {session middle after : Session τ} {held taken : List Ref} {gives : α → List Ref}
variable {act : SessionM τ α} {name : Register} {ref : Ref} {touched : List Register}

/-- An operation of a session, which touches some registers only and leaves the references that
`gives` lists with whoever asked for it, and none where it replies early. -/
def Serves (act : SessionM τ α) (session : Session τ) (touched : List Register) (held : List Ref)
    (gives : α → List Ref) : Prop :=
  Ends (act.run session)
    (fun result after => after.Holds (StoreM.Accounts.orNothing gives result ++ held) ∧
      session.Spares touched held after)
    fun _ _ => False

/-- Nothing is left with whoever asked. -/
theorem Serves.holds (serves : Serves act session touched held fun _ => []) :
    Ends (act.run session)
      (fun _ after => after.Holds held ∧ session.Spares touched held after) fun _ _ => False := by
  refine Ends.imp serves fun result after left => ?_
  cases result with
  | ok value => exact left
  | error reply => exact left

theorem serves_of_holds
    (ends : Ends (act.run session)
      (fun _ after => after.Holds held ∧ session.Spares touched held after) fun _ _ => False) :
    Serves act session touched held fun _ => [] := by
  refine Ends.imp ends fun result after left => ?_
  cases result with
  | ok value => exact left
  | error reply => exact left

theorem Serves.pure {value : α} (holds : session.Holds (gives value ++ held)) :
    Serves (Pure.pure value) session touched held gives :=
  ⟨holds, .refl _ _ _⟩

theorem Serves.throw {reply : Reply τ} (holds : session.Holds held) :
    Serves (throwThe (Reply τ) reply : SessionM τ α) session touched held gives :=
  ⟨holds, .refl _ _ _⟩

/-- What was done first has touched no other registers, either. -/
theorem Serves.rebase (serves : Serves act middle touched held gives)
    (spares : session.Spares touched held middle) :
    Ends (act.run middle)
      (fun result after => after.Holds (StoreM.Accounts.orNothing gives result ++ held) ∧
        session.Spares touched held after) fun _ _ => False :=
  Ends.imp serves fun _ _ ⟨holds, later⟩ => ⟨holds, spares.trans later⟩

theorem Serves.bind {next : α → SessionM τ β} {leaves : β → List Ref}
    (first : Serves act session touched held gives)
    (second : ∀ value after, after.Holds (gives value ++ held) →
      Serves (next value) after touched held leaves) :
    Serves (act >>= next) session touched held leaves := by
  refine Ends.bind first fun result after ⟨holds, spares⟩ => ?_
  cases result with
  | ok value => exact (second value after holds).rebase spares
  | error reply => exact ⟨holds, spares⟩

/-- An operation that returns is followed by the next. -/
theorem run_bind_ok {next : α → SessionM τ β} {value : α}
    (returned : act.run session = .ok (.ok value) middle) :
    (act >>= next).run session = (next value).run middle := by
  show (act.run >>= ExceptT.bindCont next) session = _
  rw [StoreM.bind_ok returned]
  rfl

/-- An operation that replies early is the end. -/
theorem run_bind_reply {next : α → SessionM τ β} {reply : Reply τ}
    (returned : act.run session = .ok (.error reply) middle) :
    (act >>= next).run session = .ok (.error reply) middle := by
  show (act.run >>= ExceptT.bindCont next) session = _
  rw [StoreM.bind_ok returned]
  rfl

theorem Serves.bind_ok {next : α → SessionM τ β} {leaves : β → List Ref} {value : α}
    (returned : act.run session = .ok (.ok value) middle)
    (spares : session.Spares touched held middle)
    (rest : Serves (next value) middle touched held leaves) :
    Serves (act >>= next) session touched held leaves := by
  unfold Serves
  rw [run_bind_ok returned]
  exact rest.rebase spares

/-- An operation that only looks is followed by the next. -/
theorem Serves.bind_read {next : α → SessionM τ β} {leaves : β → List Ref} {value : α}
    (returned : act.run session = .ok (.ok value) session)
    (rest : Serves (next value) session touched held leaves) :
    Serves (act >>= next) session touched held leaves :=
  .bind_ok returned (.refl _ _ _) rest

/-! ## Acting on the machine -/

theorem onMachine_ok {act : MachineM τ α} {value : α} {machine : Machine τ}
    (returned : act session.machine = .ok value machine) :
    (onMachine act).run session = .ok (.ok value) { session with machine } := by
  obtain ⟨before, registers, seen⟩ := session
  show (ExceptT.lift _ : SessionM τ α).run _ = _
  simp only at returned
  simp only [ExceptT.lift, ExceptT.run, ExceptT.mk, Functor.map, EStateM.map, returned]

/-- What is known of an operation of the machine holds of the session. -/
theorem onMachine_ends {act : MachineM τ α} {returns : α → Machine τ → Prop}
    (ends : Ends (act session.machine) returns fun _ _ => False) :
    Ends ((onMachine act).run session)
      (fun result after => ∃ value machine, result = .ok value ∧
        after = { session with machine } ∧ returns value machine) fun _ _ => False := by
  obtain ⟨machine, registers, seen⟩ := session
  unfold onMachine
  simp only [ExceptT.lift, ExceptT.run, ExceptT.mk, Functor.map, EStateM.map]
  simp only at ends
  cases result : act machine with
  | ok value final =>
      rw [result] at ends
      exact ⟨value, final, rfl, rfl, ends⟩
  | error stop final =>
      rw [result] at ends
      cases stop with
      | failed failure => exact ends
      | fault broken => exact ends
      | unfinished => trivial

theorem onMachine_serves {act : MachineM τ α}
    (answers : MachineM.Answers act session.machine (held ++ session.refs) gives)
    (names : (session.registers.map (·.1)).Nodup) :
    Serves (onMachine act) session touched held gives := by
  refine Ends.imp (onMachine_ends answers) ?_
  rintro _ _ ⟨value, machine, rfl, rfl, idle, keeps⟩
  refine ⟨⟨?_, names⟩, spares_of_keeps keeps⟩
  rw [StoreM.Accounts.orNothing, List.append_assoc]
  exact idle

/-- Something is read off the store. -/
theorem Serves.onStore_bind {act : StoreM τ α} {next : α → SessionM τ β} {knows : α → Prop}
    {leaves : β → List Ref}
    (reads : Ends (act session.machine.store)
      (fun value final => final = session.machine.store ∧ knows value) fun _ _ => False)
    (rest : ∀ value, knows value → Serves (next value) session touched held leaves) :
    Serves (SessionM.onStore act >>= next) session touched held leaves := by
  have ends := (MachineM.onStore_ends reads).mono (fun _ _ => id) (?_ : ∀ _ _, _ → False)
  · refine Ends.bind (onMachine_ends ends) ?_
    rintro _ _ ⟨value, _, rfl, rfl, _, rfl, rfl, known⟩
    exact rest value known
  · rintro failure machine ⟨_, _, -, -, impossible⟩
    exact impossible

/-- An operation on the store that always returns. -/
theorem onStore_ok {act : StoreM τ α} {value : α} {store : Store τ}
    (returned : act session.machine.store = .ok value store) :
    (onStore act).run session =
      .ok (.ok value) { session with machine := { session.machine with store } } :=
  onMachine_ok (MachineM.onStore_eq returned)

/-- An operation on the store changes only the machine. -/
theorem holds_of_stays {machine : Machine τ} {extra : List Ref} (holds : session.Holds taken)
    (stays : session.machine.Stays (held ++ session.refs) extra machine) :
    ({ session with machine } : Session τ).Holds (extra ++ held) := by
  refine ⟨?_, holds.names⟩
  rw [List.append_assoc]
  exact stays.idle holds.idle

theorem spares_of_stays {machine : Machine τ} {extra : List Ref}
    (stays : session.machine.Stays (held ++ session.refs) extra machine) :
    session.Spares touched held { session with machine } :=
  spares_of_keeps stays.keeps_held

/-! ## Registers -/

theorem read_some (found : session.registers.lookup name = some ref) :
    (read name).run session = .ok (.ok ref) session := by
  have looked : (get : SessionM τ (Session τ)).run session = .ok (.ok session) session := rfl
  rw [read, run_bind_ok looked, found]
  rfl

theorem read_none (absent : session.registers.lookup name = none) :
    (read name : SessionM τ Ref).run session = .ok (.error (.emptyRegister name)) session := by
  have looked : (get : SessionM τ (Session τ)).run session = .ok (.ok session) session := rfl
  rw [read, run_bind_ok looked, absent]
  rfl

theorem Serves.read_bind {next : Ref → SessionM τ α} (holds : session.Holds held)
    (rest : ∀ ref, session.registers.lookup name = some ref →
      Serves (next ref) session touched held gives) :
    Serves (read name >>= next) session touched held gives := by
  cases found : session.registers.lookup name with
  | some ref => exact Serves.bind_read (read_some found) (rest ref found)
  | none =>
      unfold Serves
      rw [run_bind_reply (read_none found)]
      exact ⟨holds, .refl _ _ _⟩

/-- Some registers hold some references. -/
def Reads (session : Session τ) : List Register → List Ref → Prop :=
  List.Forall₂ fun name ref => session.registers.lookup name = some ref

theorem readAll_cases (session : Session τ) (names : List Register) :
    (∃ refs, (readAll names).run session = .ok (.ok refs) session ∧ Reads session names refs) ∨
      ∃ name ∈ names, session.registers.lookup name = none ∧
        (readAll names : SessionM τ (List Ref)).run session =
          .ok (.error (.emptyRegister name)) session := by
  induction names with
  | nil => exact Or.inl ⟨[], rfl, .nil⟩
  | cons name rest ih =>
      cases found : session.registers.lookup name with
      | none =>
          refine Or.inr ⟨name, List.mem_cons_self, found, ?_⟩
          rw [readAll, run_bind_reply (read_none found)]
      | some ref =>
          rcases ih with ⟨refs, returned, reads⟩ | ⟨other, member, absent, returned⟩
          · refine Or.inl ⟨ref :: refs, ?_, .cons found reads⟩
            rw [readAll, run_bind_ok (read_some found), run_bind_ok returned]
            rfl
          · refine Or.inr ⟨other, List.mem_cons_of_mem _ member, absent, ?_⟩
            rw [readAll, run_bind_ok (read_some found), run_bind_reply returned]

theorem Serves.readAll_bind {names : List Register} {next : List Ref → SessionM τ α}
    (holds : session.Holds held)
    (rest : ∀ refs, Reads session names refs → Serves (next refs) session touched held gives) :
    Serves (readAll names >>= next) session touched held gives := by
  rcases readAll_cases session names with ⟨refs, returned, reads⟩ | ⟨name, -, -, returned⟩
  · exact Serves.bind_read returned (rest refs reads)
  · unfold Serves
    rw [run_bind_reply returned]
    exact ⟨holds, .refl _ _ _⟩

theorem Reads.isSome {names : List Register} {refs : List Ref} (reads : Reads session names refs) :
    ∀ name ∈ names, (session.registers.lookup name).isSome := by
  induction reads with
  | nil => exact nofun
  | cons found _ ih =>
      intro name member
      rcases List.mem_cons.mp member with rfl | later
      · rw [found]
        rfl
      · exact ih name later

theorem Reads.usable {names : List Register} {refs : List Ref} (reads : Reads session names refs)
    (holds : session.Holds held) : ∀ ref ∈ refs, session.machine.store.Usable ref := by
  induction reads with
  | nil => exact nofun
  | cons found _ ih =>
      intro ref member
      rcases List.mem_cons.mp member with rfl | later
      · exact holds.usable found
      · exact ih ref later

/-- What was in a register is in the hands of whoever took it out. -/
theorem take_ok (holds : session.Holds held)
    (found : session.registers.lookup name = some ref) :
    let after : Session τ :=
      { session with registers := session.registers.filter fun entry => entry.1 != name }
    (take name).run session = .ok (.ok ref) after ∧ after.Holds (ref :: held) := by
  refine ⟨?_, ?_, ?_⟩
  · rw [take, run_bind_ok (read_some found)]
    rfl
  · refine holds.idle.perm ?_
    have split := refs_perm holds.names name
    rw [found] at split
    exact (List.Perm.append_left held split.symm).trans List.perm_middle
  · exact holds.names.sublist (List.filter_sublist.map _)

/-! ## Storing and holding references -/

variable [Tracker τ]

theorem releaseAll_ok {refs : List Ref} (touched : List Register)
    (holds : session.Holds (refs ++ held)) :
    ∃ store, (onStore (StoreM.releaseAll refs)).run session =
        .ok (.ok ()) { session with machine := { session.machine with store } } ∧
      ({ session with machine := { session.machine with store } } : Session τ).Holds held ∧
      session.Spares touched held { session with machine := { session.machine with store } } := by
  have owing : session.machine.Idle (refs ++ (held ++ session.refs)) := by
    rw [← List.append_assoc]
    exact holds.idle
  obtain ⟨store, released, left, -⟩ := StoreM.releaseAll_sound owing.ready.sound_taken
  have stays := owing.ready.stays_of_leaves left
  exact ⟨store, onStore_ok released, holds_of_stays holds stays, spares_of_stays stays⟩

/-- The register owns the reference that is stored in it, and what it held is given
back. -/
theorem write_ok (holds : session.Holds (ref :: held)) (touches : name ∈ touched) :
    ∃ after, (write name ref).run session = .ok (.ok ()) after ∧ after.Holds held ∧
      after.machine.error = session.machine.error ∧ session.Spares touched held after := by
  let stored : Session τ := { session with
    registers := (name, ref) :: session.registers.filter fun entry => entry.1 != name
    seen := (name, ref) :: session.seen.filter fun entry => entry.1 != name }
  have owing : stored.Holds ((session.registers.lookup name).toList ++ held) := by
    refine ⟨holds.idle.perm ?_, List.nodup_cons.mpr ⟨name_not_mem_filter name _,
      holds.names.sublist (List.filter_sublist.map _)⟩⟩
    have split := refs_perm holds.names name
    rw [List.perm_iff_count] at split ⊢
    intro other
    have counted := split other
    simp only [stored, Session.refs, List.map_cons, List.count_append, List.count_cons] at counted ⊢
    omega
  obtain ⟨store, released, left, spares⟩ := releaseAll_ok touched owing
  exact ⟨_, released, left, rfl, (spares_filled touches _).trans spares⟩

theorem write_serves (holds : session.Holds (ref :: held)) (touches : name ∈ touched) :
    Serves (write name ref) session touched held fun _ => [] := by
  obtain ⟨after, written, left, -, spares⟩ := write_ok holds touches
  unfold Serves
  rw [written]
  exact ⟨left, spares⟩

/-- Objects are there while an operation holds one more reference to each.  `knows` is
about the error that is set then. -/
theorem holding_ends {refs : List Ref} (touched : List Register) (gives : α → List Ref)
    (knows : Except (Reply τ) α → Option (Ref × Ref) → Prop) (holds : session.Holds held)
    (usable : ∀ ref ∈ refs, session.machine.store.Usable ref)
    (body : ∀ after : Session τ, after.registers = session.registers →
      after.Holds (refs ++ held) →
      Ends (act.run after)
        (fun result final =>
          (final.Holds (StoreM.Accounts.orNothing gives result ++ (refs ++ held)) ∧
            after.Spares touched (refs ++ held) final) ∧
          knows result final.machine.error) fun _ _ => False) :
    Ends ((holding refs act).run session)
      (fun result after => (after.Holds (StoreM.Accounts.orNothing gives result ++ held) ∧
          session.Spares touched held after) ∧
        knows result after.machine.error) fun _ _ => False := by
  obtain ⟨store, acquired, sound, same⟩ := StoreM.acquireAll_values holds.sound usable
  let kept : Session τ := { session with machine := { session.machine with store } }
  have stays := holds.idle.ready.stays_of_leaves
    (⟨sound, same.keeps _⟩ : session.machine.store.Leaves _ _ _ store)
  have lifted : Ends ((ExceptT.lift act.run : SessionM τ (Except (Reply τ) α)).run kept)
      (fun result after => ∃ inner, result = .ok inner ∧
        (after.Holds (StoreM.Accounts.orNothing gives inner ++ (refs ++ held)) ∧
          kept.Spares touched (refs ++ held) after) ∧
        knows inner after.machine.error) fun _ _ => False :=
    Ends.map (Ends.imp (body kept rfl (holds_of_stays holds stays))
      fun inner _ left => ⟨inner, rfl, left⟩)
  rw [holding, run_bind_ok (onStore_ok acquired)]
  refine Ends.bind lifted ?_
  rintro _ after ⟨inner, rfl, ⟨left, meanwhile⟩, known⟩
  obtain ⟨final, released, rest, spares⟩ :=
    releaseAll_ok touched (left.perm (List.perm_append_comm_assoc _ refs held))
  have all : session.Spares touched held _ := (spares_of_stays stays).trans
    ((meanwhile.mono (List.subset_append_right _ _)).trans
      (spares.mono (List.subset_append_right _ _)))
  show Ends ((onStore (StoreM.releaseAll refs) >>= fun _ => MonadExcept.ofExcept inner :
    SessionM τ α).run after) _ _
  rw [run_bind_ok released]
  cases inner with
  | ok value => exact ⟨⟨rest, all⟩, known⟩
  | error reply => exact ⟨⟨rest, all⟩, known⟩

theorem Serves.holding {refs : List Ref} (holds : session.Holds held)
    (usable : ∀ ref ∈ refs, session.machine.store.Usable ref)
    (body : ∀ after : Session τ, after.registers = session.registers →
      after.Holds (refs ++ held) → Serves act after touched (refs ++ held) gives) :
    Serves (SessionM.holding refs act) session touched held gives := by
  refine (holding_ends touched gives (fun _ _ => True) holds usable fun after same kept => ?_).imp
    fun _ _ left => left.1
  exact Ends.imp (body after same kept) fun _ _ left => ⟨left, trivial⟩

/-! ## What requests are made of -/

omit [Tracker τ] in
theorem reporting_serves {act : StoreM τ α} (holds : session.Holds taken)
    (accounts : StoreM.Accounts act session.machine.store (session.others held)
      session.machine.internals gives) : Serves (reporting act) session touched held gives := by
  refine Serves.bind (onMachine_serves (MachineM.reporting_answers holds.idle accounts)
    holds.names) fun result after left => ?_
  cases result with
  | ok value => exact .pure left
  | error report => exact .throw left

omit [Tracker τ] in
theorem object_ok (holds : session.Holds held) (filled : session.machine.store.Filled ref) :
    ∃ shown, (object ref).run session = .ok (.ok shown) session := by
  obtain ⟨shown, returned⟩ := MachineM.toObject_ok holds.idle filled
  exact ⟨shown, onMachine_ok returned⟩

theorem store_serves {target : Register} (holds : session.Holds (ref :: held))
    (touches : target ∈ touched) :
    Serves (do
      let shown ← object ref
      write target ref
      return .object shown : SessionM τ (Answer τ)) session touched held fun _ => [] := by
  have usable := holds.sound.usable (mem_others_of_held List.mem_cons_self)
  obtain ⟨shown, returned⟩ := object_ok holds usable.filled
  refine Serves.bind_read returned ?_
  exact (write_serves holds touches).bind fun _ after left => Serves.pure left

theorem produce_serves {act : StoreM τ Ref} {target : Register} (holds : session.Holds taken)
    (touches : target ∈ touched)
    (accounts : StoreM.Accounts act session.machine.store (session.others held)
      session.machine.internals fun ref => [ref]) :
    Serves (produce target act) session touched held fun _ => [] :=
  (reporting_serves holds accounts).bind fun _ _ left => store_serves left touches

theorem produceFrom_serves {sources : List Register} {act : List Ref → StoreM τ Ref}
    {target : Register} (holds : session.Holds held) (touches : target ∈ touched)
    (accounts : ∀ refs {store : Store τ} {held inner : List Ref}, refs.length = sources.length →
      refs ⊆ held → store.Sound held inner →
      StoreM.Accounts (act refs) store held inner fun ref => [ref]) :
    Serves (produceFrom target sources act) session touched held fun _ => [] := by
  refine Serves.readAll_bind holds fun refs reads => ?_
  refine Serves.holding holds (reads.usable holds) fun after same kept => ?_
  refine produce_serves kept touches (accounts refs reads.length_eq.symm ?_ kept.sound)
  exact fun ref member => mem_others_of_held (List.mem_append_left _ member)

omit [Tracker τ] in
theorem inspect_serves {source : Register}
    {read_ : Store τ → Ref → Except (Stop Cause) (Answer τ)} (holds : session.Holds held)
    (answers : ∀ ref, session.machine.store.Filled ref →
      ∃ answer, read_ session.machine.store ref = .ok answer) :
    Serves (inspect source read_) session touched held fun _ => [] := by
  refine Serves.read_bind holds fun ref found => ?_
  obtain ⟨answer, read⟩ := answers ref (holds.usable found).filled
  unfold Serves
  rw [SessionM.onStore, onMachine_ok (MachineM.reading_ok read)]
  exact ⟨holds, .refl _ _ _⟩

theorem change_serves {container value : Register} {act : Ref → Ref → StoreM τ Unit}
    (holds : session.Holds held) (touches : value ∈ touched)
    (accounts : ∀ {store : Store τ} {held inner : List Ref} {ref taken : Ref},
      store.Sound (taken :: held) inner → ref ∈ held →
      StoreM.Accounts (act ref taken) store held inner fun _ => []) :
    Serves (change container value act) session touched held fun _ => [] := by
  refine Serves.readAll_bind holds fun refs reads => ?_
  refine Serves.holding holds (reads.usable holds) fun after same kept => ?_
  obtain _ | ⟨found, _ | ⟨found', _ | _⟩⟩ := reads
  rename_i first second
  rw [← same] at found found'
  -- The container may be in the register that is emptied, but it is held meanwhile.
  obtain ⟨taken, left⟩ := take_ok kept found'
  refine Serves.bind_read (read_some found) (Serves.bind_ok taken (spares_emptied touches) ?_)
  have kept' : first ∈ [first, second] ++ held := by simp
  refine (reporting_serves left (accounts left.sound_cons (mem_others_of_held kept'))).bind ?_
  exact fun _ final rest => Serves.pure rest

/-- A container that is held while it is changed. -/
theorem changeContainer_serves {container value : Register} {act : Ref → Ref → StoreM τ Unit}
    (holds : session.Holds held) (touches : value ∈ touched)
    (accounts : ∀ {store : Store τ} {held inner : List Ref} {ref taken : Ref},
      store.Sound (taken :: held) inner → store.Secured (roots ++ (held ++ inner)) ref →
      ref ≠ .builtins → StoreM.Accounts (act ref taken) store held inner fun _ => []) :
    Serves (change container value act) session touched held fun _ => [] := by
  refine change_serves holds touches fun sound member => accounts sound ?_ ?_
  · exact Or.inl (List.mem_append_right _ (List.mem_append_left _ member))
  · exact (sound.values _ (List.mem_cons_of_mem _ member)).ne_builtins

theorem discover_serves {found : Option Ref} {target : Option Register}
    (holds : session.Holds held) (touches : target.toList ⊆ touched)
    (usable : ∀ ref ∈ found, session.machine.store.Usable ref) :
    Serves (discover target found) session touched held fun _ => [] := by
  cases found with
  | none => exact Serves.pure holds
  | some ref =>
      obtain ⟨shown, returned⟩ := object_ok holds (usable ref rfl).filled
      refine Serves.bind_read returned ?_
      cases target with
      | none => exact Serves.pure holds
      | some target =>
          obtain ⟨store, acquired, sound, same⟩ := StoreM.acquire_value holds.sound (usable ref rfl)
          have stays := holds.idle.ready.stays_of_leaves
            (⟨sound, same.keeps _⟩ : session.machine.store.Leaves _ _ [ref] store)
          have left : ({ session with machine := { session.machine with store } } :
              Session τ).Holds (ref :: held) := holds_of_stays holds stays
          refine Serves.bind_ok (onStore_ok acquired) (spares_of_stays stays) ?_
          exact (write_serves left (touches (List.mem_singleton_self target))).bind
            fun _ after rest => Serves.pure rest

/-- The result of code that was run is shown and stored. -/
theorem conclude_ends {result : Option Ref} {target : Register}
    (holds : session.Holds (result.toList ++ held)) (touches : target ∈ touched) :
    Ends ((conclude target result).run session)
      (fun told after => (after.Holds held ∧ session.Spares touched held after) ∧
        after.machine.error = session.machine.error ∧
        ((∃ object, told = .ok (.object object)) ∧ result.isSome ∨
          (∃ kind, told = .error (.noResult kind)) ∧ result = none))
      fun _ _ => False := by
  cases result with
  | some ref =>
      have usable := holds.sound.usable (mem_others_of_held List.mem_cons_self)
      obtain ⟨shown, returned⟩ := object_ok holds usable.filled
      obtain ⟨after, written, left, error, spares⟩ := write_ok holds touches
      simp only [conclude]
      rw [run_bind_ok returned, run_bind_ok written]
      exact ⟨⟨left, spares⟩, error, Or.inl ⟨⟨shown, rfl⟩, rfl⟩⟩
  | none => exact ⟨⟨holds, .refl _ _ _⟩, rfl, Or.inr ⟨⟨_, rfl⟩, rfl⟩⟩

theorem conclude_serves {result : Option Ref} {target : Register}
    (holds : session.Holds (result.toList ++ held)) (touches : target ∈ touched) :
    Serves (conclude target result) session touched held fun _ => [] :=
  serves_of_holds ((conclude_ends holds touches).imp fun _ _ left => left.1)

end SessionM

end StackMachine

import StackMachine.Proofs.Machine.Host

/-!
# Reading a traceback

The entries of a traceback form a chain in the store: each leads to its frame, whose
code names a file, and to the entry that follows.  A chain stays as long as its first
entry is held, since none of the objects it goes through ever changes.

No entry occurs twice in a chain, so there are no more of them than the store has
slots, and reading a chain off the store gives a point for each.
-/

namespace StackMachine.Store

variable {τ : Type} {store before after : Store τ} {head : Option Ref}
variable {points others : List TracePoint}

/-- The entries from `head` on stand for some points, first one first. -/
inductive Chain (store : Store τ) : (head : Option Ref) → List TracePoint → Prop where
  | nil : Chain store none []
  | cons {entry frame code globals locals : Ref} {next back : Option Ref} {line : Nat}
      {object : CodeObject} {points : List TracePoint}
      (found : store.payload? entry = some (.traceback next frame line))
      (framed : store.payload? frame = some (.frame back code globals locals))
      (coded : store.payload? code = some (.code object)) (rest : Chain store next points) :
      Chain store (some entry) (⟨object.file, line⟩ :: points)

namespace Chain

/-- Whoever holds the first entry keeps the whole chain. -/
theorem of_keeps {anchors : List Ref} (chain : Chain before head points)
    (anchored : ∀ ref ∈ head, before.Anchored anchors ref) (keeps : Keeps anchors before after) :
    Chain after head points := by
  induction chain with
  | nil => exact .nil
  | cons found framed coded rest ih =>
      have here := anchored _ rfl
      have there := Anchored.part here found rfl (List.mem_append_right _ List.mem_cons_self)
      have source := Anchored.part there framed rfl (List.mem_append_right _ List.mem_cons_self)
      refine .cons (keeps.fixed here found rfl) (keeps.fixed there framed rfl)
        (keeps.fixed source coded rfl) (ih fun ref member => ?_)
      exact .part here found rfl (List.mem_append_left _ (Option.mem_toList.mpr member))

/-- What a chain stands for is decided by where it starts. -/
theorem unique (chain : Chain store head points) (other : Chain store head others) :
    points = others := by
  induction chain generalizing others with
  | nil =>
      cases other
      rfl
  | cons found framed coded rest ih =>
      cases other with
      | cons found' framed' coded' rest' =>
          cases found.symm.trans found'
          cases framed.symm.trans framed'
          cases coded.symm.trans coded'
          rw [ih rest']

/-- A chain goes through different entries, each of which is the start of a part of it. -/
theorem entries (chain : Chain store head points) :
    ∃ refs : List Ref, refs.length = points.length ∧ refs.Nodup ∧
      ∀ ref ∈ refs, ∃ part, Chain store (some ref) part ∧ part.length ≤ points.length := by
  induction chain with
  | nil => exact ⟨[], rfl, List.nodup_nil, by simp⟩
  | @cons entry _ _ _ _ _ _ line object points found framed coded rest ih =>
      obtain ⟨refs, same, distinct, known⟩ := ih
      have whole := Chain.cons found framed coded rest
      refine ⟨entry :: refs, by simp [same], List.nodup_cons.mpr ⟨?_, distinct⟩, ?_⟩
      · intro again
        obtain ⟨part, chain, short⟩ := known entry again
        rw [← whole.unique chain, List.length_cons] at short
        omega
      · intro ref member
        rcases List.mem_cons.mp member with rfl | later
        · exact ⟨_, whole, Nat.le_refl _⟩
        · obtain ⟨part, chain, short⟩ := known ref later
          exact ⟨part, chain, Nat.le_succ_of_le short⟩

theorem index_lt {ref : Ref} (chain : Chain store (some ref) points) :
    ref.index < store.cells.size := by
  cases chain with
  | cons found =>
      obtain ⟨cell, present, -⟩ := Option.bind_eq_some_iff.mp found
      exact (Array.getElem?_eq_some_iff.mp (Option.join_eq_some_iff.mp present)).1

/-- There are no more entries than slots. -/
theorem length_le (chain : Chain store head points) : points.length ≤ store.cells.size := by
  obtain ⟨refs, same, distinct, known⟩ := chain.entries
  have apart : (refs.map (·.index)).Nodup := by
    refine List.Nodup.map_on ?_ distinct
    rintro ⟨first⟩ - ⟨second⟩ - (rfl : first = second)
    rfl
  have bounded : refs.map (·.index) ⊆ List.range store.cells.size := by
    intro index member
    obtain ⟨ref, listed, rfl⟩ := List.mem_map.mp member
    obtain ⟨part, chain, -⟩ := known ref listed
    exact List.mem_range.mpr chain.index_lt
  have fewer := apart.length_le_of_subset bounded
  rwa [List.length_map, List.length_range, same] at fewer

theorem frameFile {frame code globals locals : Ref} {back : Option Ref} {object : CodeObject}
    (framed : store.payload? frame = some (.frame back code globals locals))
    (coded : store.payload? code = some (.code object)) :
    store.frameFile frame = .ok object.file := by
  unfold Store.frameFile
  rw [get_eq_ok_iff.mpr framed]
  show (store.get code >>= _) = _
  rw [get_eq_ok_iff.mpr coded]
  rfl

/-- What a chain stands for is read off the store. -/
theorem tracePoints {length : Nat} (chain : Chain store head points)
    (enough : points.length ≤ length) : store.tracePoints length head = .ok points := by
  induction chain generalizing length with
  | nil => cases length <;> rfl
  | cons found framed coded rest ih =>
      obtain ⟨length, rfl⟩ : ∃ more, length = more + 1 :=
        ⟨length - 1, by rw [List.length_cons] at enough; omega⟩
      unfold Store.tracePoints
      rw [get_eq_ok_iff.mpr found]
      show (store.frameFile _ >>= _) = _
      rw [frameFile framed coded]
      show (store.tracePoints length _ >>= _) = _
      rw [ih (Nat.le_of_succ_le_succ enough)]
      rfl

end Chain

end StackMachine.Store

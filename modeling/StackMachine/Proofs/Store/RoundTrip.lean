import StackMachine.Proofs.Store.Constructing
import StackMachine.Proofs.Store.Originals
import StackMachine.Proofs.Store.Showing
import StackMachine.Proofs.Table.Filling

/-!
# Plain data into the store and out of it

Plain data is `none`, numbers, strings, and the lists, tuples and dictionaries made of plain data.
Where nobody refuses, an object can be made for it, and the object is shown as the data it was made
for: as it was, but for the order of a dictionary's entries, of which the last one counts for each
key.

While parts of a value wait for the rest, other parts are made, and values that a dictionary drops
are given back.  Neither touches what the waiting parts lead to.
-/

namespace StackMachine

open Store StoreM Outcome

/-! ## Plain data -/

namespace Object

/-- Data inside of `depth` containers that can be put into the store and shown: containers are not
too deep, and dictionaries do not have more keys than tables take, nor keys that searches do not
end for. -/
inductive Plain : (depth : Nat) → Object → Prop where
  | none {depth : Nat} : Plain depth .none
  | int {depth : Nat} (value : Int64) : Plain depth (.int value)
  | float {depth : Nat} (value : Double) : Plain depth (.float value)
  | string {depth : Nat} (text : String) : Plain depth (.string text)
  | list {depth : Nat} {items : List Object} (shallow : depth ≤ maxDepth)
      (parts : ∀ item ∈ items, Plain (depth + 1) item) : Plain depth (.list items)
  | tuple {depth : Nat} {items : List Object} (shallow : depth ≤ maxDepth)
      (parts : ∀ item ∈ items, Plain (depth + 1) item) : Plain depth (.tuple items)
  | dict {depth : Nat} {entries : List (String × Object)} (shallow : depth ≤ maxDepth)
      (few : (entries.map Prod.fst).dedup.length < Table.largestSize)
      (searchable : ∀ key ∈ entries.map Prod.fst, Table.Searchable (Bytes.ofString key))
      (parts : ∀ entry ∈ entries, Plain (depth + 1) entry.2) : Plain depth (.dict entries)

/-- Data is shown as the same, up to the order of the entries of its dictionaries.  Each key is
shown once, with the last of the values it had. -/
inductive Same : (original shown : Object) → Prop where
  | none : Same .none .none
  | int (value : Int64) : Same (.int value) (.int value)
  | float (value : Double) : Same (.float value) (.float value)
  | string (text : String) : Same (.string text) (.string text)
  | list {items shown : List Object} (parts : List.Forall₂ Same items shown) :
      Same (.list items) (.list shown)
  | tuple {items shown : List Object} (parts : List.Forall₂ Same items shown) :
      Same (.tuple items) (.tuple shown)
  | dict {entries shown : List (String × Object)} (distinct : (shown.map Prod.fst).Nodup)
      (bindings : ∀ key, Option.Rel Same (entries.reverse.lookup key) (shown.lookup key)) :
      Same (.dict entries) (.dict shown)

variable {original shown : Object} {depth : Nat}

/-- Each of some items stands for one of the others. -/
theorem exists_of_mem_right {α β : Type} {relation : α → β → Prop} {lefts : List α}
    {rights : List β} (related : List.Forall₂ relation lefts rights) {right : β}
    (member : right ∈ rights) : ∃ left ∈ lefts, relation left right := by
  induction related with
  | nil => cases member
  | cons first _ ih =>
      rcases List.mem_cons.mp member with rfl | later
      · exact ⟨_, List.mem_cons_self, first⟩
      · obtain ⟨left, present, same⟩ := ih later
        exact ⟨left, List.mem_cons_of_mem _ present, same⟩

/-- What a key is shown with is the last value it had. -/
theorem exists_original_entry {entries shown : List (String × Object)}
    (distinct : (shown.map Prod.fst).Nodup)
    (bindings : ∀ key, Option.Rel Same (entries.reverse.lookup key) (shown.lookup key))
    {key : String} {value : Object} (member : (key, value) ∈ shown) :
    ∃ old, (key, old) ∈ entries ∧ old.Same value := by
  have found := (mem_iff_lookup_eq_some distinct).mp member
  have bound := bindings key
  rw [found] at bound
  generalize last : entries.reverse.lookup key = result at bound
  cases bound with
  | some same =>
      obtain ⟨before, after, split, -⟩ := List.lookup_eq_some_iff.mp last
      refine ⟨_, List.mem_reverse.mp ?_, same⟩
      rw [split]
      exact List.mem_append_right _ List.mem_cons_self

/-- What plain data is shown as is plain data: there is no sign of an object that was met again or
is too deep. -/
theorem Plain.of_same (plain : original.Plain depth) (same : original.Same shown) :
    shown.Plain depth := by
  induction plain generalizing shown with
  | none =>
      cases same
      exact .none
  | int value =>
      cases same
      exact .int value
  | float value =>
      cases same
      exact .float value
  | string text =>
      cases same
      exact .string text
  | list shallow _ ih =>
      cases same with
      | list related =>
          refine .list shallow fun part member => ?_
          obtain ⟨item, present, same⟩ := exists_of_mem_right related member
          exact ih item present same
  | tuple shallow _ ih =>
      cases same with
      | tuple related =>
          refine .tuple shallow fun part member => ?_
          obtain ⟨item, present, same⟩ := exists_of_mem_right related member
          exact ih item present same
  | @dict depth entries shallow few searchable _ ih =>
      cases same with
      | @dict _ output distinct bindings =>
          have keys : output.map Prod.fst ⊆ entries.map Prod.fst := by
            intro key listed
            obtain ⟨⟨_, value⟩, member, rfl⟩ := List.mem_map.mp listed
            obtain ⟨old, present, -⟩ := exists_original_entry distinct bindings member
            exact List.mem_map.mpr ⟨_, present, rfl⟩
          refine .dict shallow ?_ (fun key member => searchable key (keys member)) ?_
          · have fewer : output.map Prod.fst ⊆ (entries.map Prod.fst).dedup :=
              fun key member => List.mem_dedup.mpr (keys member)
            rw [distinct.dedup]
            exact (distinct.subperm fewer).length_le.trans_lt few
          · rintro ⟨key, value⟩ member
            obtain ⟨old, present, same⟩ := exists_original_entry distinct bindings member
            exact ih (key, old) present same

end Object

/-! ## Objects that stand for data -/

namespace Store

variable {store before after : Store Unlimited} {held more : List Ref} {ref : Ref} {room : Nat}
variable {object : Object} {payload : Payload} {shown : Object}

/-- The object is shown as the data it stands for. -/
def Depicts (store : Store Unlimited) (room : Nat) (object : Object) (ref : Ref) : Prop :=
  ∃ shown, store.Shows room ref shown ∧ object.Same shown

theorem Depicts.of_untouched (depicts : before.Depicts room object ref)
    (untouched : Untouched held before after) (member : ref ∈ held) :
    after.Depicts room object ref := by
  obtain ⟨shown, shows_, same⟩ := depicts
  exact ⟨shown, shows_.of_untouched (untouched.mono (by simpa using member)), same⟩

/-- Counts are exact, and the object of kind `none` is held. -/
structure Hosts (store : Store Unlimited) (held : List Ref) : Prop where
  exact : store.Exact held
  none_held : .noneObject ∈ held
  none_payload : store.payload? .noneObject = some .none

theorem Hosts.next (hosts : before.Hosts held) (untouched : Untouched held before after)
    (exact : after.Exact more) (fewer : held ⊆ more) : after.Hosts more where
  exact := exact
  none_held := fewer hosts.none_held
  none_payload := by rw [untouched.payload?_eq (.refl hosts.none_held), hosts.none_payload]

/-- An object was made that stands for some data, and what was held before leads to what it led
to. -/
structure Built (held : List Ref) (room : Nat) (object : Object) (before : Store Unlimited)
    (ref : Ref) (after : Store Unlimited) : Prop where
  exact : after.Exact (ref :: held)
  untouched : Untouched held before after
  depicts : after.Depicts room object ref

/-- Data for which an object can be made. -/
def Buildable (room : Nat) (object : Object) : Prop :=
  ∀ ⦃store : Store Unlimited⦄ ⦃held⦄, store.Hosts held →
    ∃ ref after, ofObject object store = .ok ref after ∧ Built held room object store ref after

/-- An object is made of parts that nobody else waits for. -/
theorem built_place (exact : store.Exact (payload.children ++ held))
    (depicts : ∀ ref (placed : Store Unlimited), placed.payload? ref = some payload →
      ¬ placed.LeadsTo payload.children ref → Untouched payload.children store placed →
      placed.Depicts room object ref) :
    ∃ ref after, (inputObject payload : Input Unlimited Ref) store = .ok ref after ∧
      Built held room object store ref after := by
  have untouched := Untouched.of_place exact payload
  refine ⟨_, _, rfl, exact.place, untouched.mono (List.subset_append_right _ _), ?_⟩
  refine depicts _ _ ?_ ?_ (untouched.mono (List.subset_append_left _ _))
  · rw [payload?_place exact, if_pos rfl]
  · exact fun leads =>
      not_leadsTo_place exact payload (leads.mono (List.subset_append_left _ _))

theorem built_leaf (hosts : store.Hosts held) (alone : payload.children = [])
    (plain : payload.placeholder? = none) (same : object.Same shown)
    (told : ∀ placed : Store Unlimited, placed.showLeaf payload = .ok shown) :
    ∃ ref after, (inputObject payload : Input Unlimited Ref) store = .ok ref after ∧
      Built held room object store ref after := by
  refine built_place (by rw [alone]; exact hosts.exact) fun ref placed found _ _ => ?_
  exact ⟨shown, .leaf found plain (told placed) room, same⟩

/-! ## Items -/

theorem depicts_of_untouched {items : List Object} {refs : List Ref}
    (each : List.Forall₂ (before.Depicts room) items refs) (untouched : Untouched held before after)
    (within : refs ⊆ held) : List.Forall₂ (after.Depicts room) items refs := by
  induction each with
  | nil => exact .nil
  | cons first _ ih =>
      rw [List.cons_subset] at within
      exact .cons (first.of_untouched untouched within.1) (ih within.2)

theorem exists_shown {items : List Object} {refs : List Ref}
    (each : List.Forall₂ (store.Depicts room) items refs) :
    ∃ shown, List.Forall₂ (store.Shows room) refs shown ∧
      List.Forall₂ Object.Same items shown := by
  induction each with
  | nil => exact ⟨[], .nil, .nil⟩
  | cons first _ ih =>
      obtain ⟨here, shows_, same⟩ := first
      obtain ⟨shown, parts, alike⟩ := ih
      exact ⟨here :: shown, .cons shows_ parts, .cons same alike⟩

theorem ofItems_builds {items : List Object} (buildable : ∀ item ∈ items, Buildable room item)
    {made : Array Ref} (hosts : store.Hosts (made.toList ++ held)) :
    ∃ result after refs, ofItems items made store = .ok result after ∧
      result.toList = made.toList ++ refs ∧ after.Exact (result.toList ++ held) ∧
      Untouched (made.toList ++ held) store after ∧
      List.Forall₂ (after.Depicts room) items refs := by
  induction items generalizing store made with
  | nil =>
      unfold ofItems
      exact ⟨made, store, [], rfl, (List.append_nil _).symm, hosts.exact, .refl _ _, .nil⟩
  | cons item rest ih =>
      obtain ⟨ref, middle, ran, built⟩ := buildable item List.mem_cons_self hosts
      have pushed : (made.push ref).toList = made.toList ++ [ref] := Array.toList_push
      have exact : middle.Exact ((made.push ref).toList ++ held) := by
        rw [pushed, List.append_assoc]
        exact built.exact.perm List.perm_middle.symm
      have fewer : made.toList ++ held ⊆ (made.push ref).toList ++ held := by
        rw [pushed, List.append_assoc]
        intro other member
        simp only [List.mem_append, List.mem_singleton] at member ⊢
        tauto
      obtain ⟨result, after, refs, collected, listed, left, untouched, each⟩ :=
        ih (fun other member => buildable other (List.mem_cons_of_mem _ member))
          (hosts.next built.untouched exact fewer)
      refine ⟨result, after, ref :: refs, ?_, ?_, left,
        built.untouched.trans (untouched.mono fewer), .cons ?_ each⟩
      · unfold ofItems
        rw [bind_ok (attempt_ok ran)]
        exact collected
      · rw [listed, pushed, List.append_assoc, List.singleton_append]
      · exact built.depicts.of_untouched untouched (by simp)

/-! ## Entries -/

/-- A table stands for some entries: each key that one of them has, and no other, is bound to an
object that stands for its last value.  `keys` lists the keys that may come. -/
structure Tabulates (store : Store Unlimited) (room : Nat) (keys : List String)
    (entries : List (String × Object)) (table : Table Ref) : Prop where
  filling : table.Filling
  known : ∀ entry ∈ table.entries, ∃ key ∈ keys, entry.1 = Bytes.ofString key
  bindings : ∀ key, Option.Rel (store.Depicts room) (entries.reverse.lookup key)
    (table.find? (Bytes.ofString key))

variable {keys : List String} {entries : List (String × Object)} {table : Table Ref}
variable {key : String}

namespace Tabulates

theorem empty (store : Store Unlimited) (room : Nat) (keys : List String) :
    store.Tabulates room keys [] .empty where
  filling := Table.filling_empty
  known := by simp [Table.empty]
  bindings key := by
    have absent : (Table.empty : Table Ref).find? (Bytes.ofString key) = none := by
      refine Option.eq_none_iff_forall_ne_some.mpr fun ref found => ?_
      rw [Table.valid_empty.find?_eq_some_iff] at found
      simp [Table.empty] at found
    rw [absent]
    exact .none

/-- Keys are bound one after the other, and those that have been bound are among all keys. -/
theorem used_lt (tabulates : store.Tabulates room keys entries table)
    (few : keys.dedup.length < Table.largestSize) : table.used < Table.largestSize := by
  have stored : table.entries.map Prod.fst ⊆ keys.dedup.map Bytes.ofString := by
    intro bytes listed
    obtain ⟨entry, member, rfl⟩ := List.mem_map.mp listed
    obtain ⟨key, isKey, same⟩ := tabulates.known entry member
    exact List.mem_map.mpr ⟨key, List.mem_dedup.mpr isKey, same.symm⟩
  have fewer := (tabulates.filling.valid.nodup_keys.subperm stored).length_le
  rw [List.length_map, List.length_map, tabulates.filling.valid.length_eq_used] at fewer
  exact fewer.trans_lt few

theorem of_untouched (tabulates : before.Tabulates room keys entries table)
    (untouched : Untouched held before after) (within : table.values ⊆ held) :
    after.Tabulates room keys entries table where
  filling := tabulates.filling
  known := tabulates.known
  bindings key := by
    have bound := tabulates.bindings key
    cases found : table.find? (Bytes.ofString key) with
    | none =>
        rw [found] at bound
        generalize entries.reverse.lookup key = last at bound
        cases bound
        exact .none
    | some ref =>
        rw [found] at bound
        generalize entries.reverse.lookup key = last at bound
        cases bound with
        | some depicts =>
            have member : ref ∈ table.values :=
              List.mem_map_of_mem (tabulates.filling.valid.find?_eq_some_iff.mp found)
            exact .some (depicts.of_untouched untouched (within member))

/-- One more key is bound. -/
theorem insert {result : Table Ref} (tabulates : store.Tabulates room keys entries table)
    (filling : result.Filling) (isKey : key ∈ keys) (depicts : store.Depicts room object ref)
    (perm : (((table.find? (Bytes.ofString key)).map (Bytes.ofString key, ·)).toList ++
      result.entries).Perm ((Bytes.ofString key, ref) :: table.entries)) :
    store.Tabulates room keys (entries ++ [(key, object)]) result where
  filling := filling
  known entry member := by
    have present := perm.mem_iff.mp (List.mem_append_right _ member)
    rcases List.mem_cons.mp present with rfl | earlier
    · exact ⟨key, isKey, rfl⟩
    · exact tabulates.known entry earlier
  bindings other := by
    rw [List.reverse_append, List.reverse_singleton, List.singleton_append, List.lookup_cons,
      tabulates.filling.valid.find?_insert filling.valid rfl perm]
    by_cases same : other = key
    · subst same
      simpa using Option.Rel.some depicts
    · have different : Bytes.ofString key ≠ Bytes.ofString other :=
        fun equal => same (Bytes.ofString_injective equal).symm
      rw [beq_false_of_ne same, if_neg different]
      exact tabulates.bindings other

/-- A dictionary with the table is shown as the entries. -/
theorem depicts (tabulates : store.Tabulates room keys entries table)
    (found : store.payload? ref = some (.dict table))
    (apart : ¬ store.LeadsTo table.values ref) :
    store.Depicts (room + 1) (.dict entries) ref := by
  have valid := tabulates.filling.valid
  have each : ∀ entry ∈ table.entries, ∃ pair : String × Object,
      entry.1 = Bytes.ofString pair.1 ∧ store.Shows room entry.2 pair.2 ∧
        ∃ last, entries.reverse.lookup pair.1 = some last ∧ last.Same pair.2 := by
    rintro ⟨bytes, value⟩ member
    obtain ⟨key, -, rfl⟩ := tabulates.known _ member
    have bound := tabulates.bindings key
    rw [valid.find?_eq_some_iff.mpr member] at bound
    generalize last : entries.reverse.lookup key = result at bound
    cases bound with
    | some depicts =>
        obtain ⟨shown, shows_, same⟩ := depicts
        exact ⟨(key, shown), rfl, shows_, _, last, same⟩
  choose! pairOf named shows_ lasts using each
  have keys_eq : table.entries.map Prod.fst =
      ((table.entries.map pairOf).map Prod.fst).map Bytes.ofString := by
    rw [List.map_map, List.map_map]
    exact List.map_congr_left named
  have distinct : ((table.entries.map pairOf).map Prod.fst).Nodup := by
    have nodup := valid.nodup_keys
    rw [keys_eq] at nodup
    exact nodup.of_map _
  refine ⟨.dict (table.entries.map pairOf), .dict found apart ?_, .dict distinct fun key => ?_⟩
  · rw [List.forall₂_map_right_iff, List.forall₂_same]
    intro entry member
    exact ⟨by rw [named entry member, Bytes.toText_ofString], shows_ entry member⟩
  · have bound := tabulates.bindings key
    cases value : table.find? (Bytes.ofString key) with
    | none =>
        rw [value] at bound
        generalize entries.reverse.lookup key = last at bound
        cases bound
        have absent : (table.entries.map pairOf).lookup key = none := by
          refine Option.eq_none_iff_forall_ne_some.mpr fun shown seen => ?_
          obtain ⟨entry, member, same⟩ :=
            List.mem_map.mp ((mem_iff_lookup_eq_some distinct).mpr seen)
          have stored : (Bytes.ofString key, entry.2) ∈ table.entries := by
            have isKey : entry.1 = Bytes.ofString key := by rw [named entry member, same]
            rw [← isKey]
            exact member
          rw [valid.find?_eq_some_iff.mpr stored] at value
          cases value
        rw [absent]
        exact .none
    | some ref =>
        have member := valid.find?_eq_some_iff.mp value
        have isKey : (pairOf (Bytes.ofString key, ref)).1 = key :=
          Bytes.ofString_injective (named _ member).symm
        obtain ⟨last, seen, same⟩ := lasts _ member
        have shown : (table.entries.map pairOf).lookup key =
            some (pairOf (Bytes.ofString key, ref)).2 := by
          rw [← mem_iff_lookup_eq_some distinct]
          exact List.mem_map.mpr ⟨_, member, Prod.ext isKey rfl⟩
        rw [isKey] at seen
        rw [seen, shown]
        exact .some same

end Tabulates

/-- A key is bound in a table that waits for the rest of its entries. -/
theorem inputEntry_builds (tabulates : store.Tabulates room keys entries table)
    (few : keys.dedup.length < Table.largestSize)
    (searchable : ∀ key ∈ keys, Table.Searchable (Bytes.ofString key)) (isKey : key ∈ keys)
    (exact : store.Exact (ref :: (table.values ++ held)))
    (depicts : store.Depicts room object ref) :
    ∃ result after, inputEntry table key ref store = .ok result after ∧
      after.Exact (result.values ++ held) ∧ Untouched held store after ∧
      after.Tabulates room keys (entries ++ [(key, object)]) result := by
  have stored : ∀ entry ∈ table.entries, Table.Searchable entry.1 := by
    intro entry member
    obtain ⟨known, isKnown, same⟩ := tabulates.known entry member
    rw [same]
    exact searchable known isKnown
  obtain ⟨result, inserted, filling, perm⟩ :=
    tabulates.filling.insert (tabulates.used_lt few) stored (searchable key isKey) ref
  have values := Table.values_perm_of_insert perm
  have owed : store.Exact
      ((table.find? (Bytes.ofString key)).toList ++ (result.values ++ held)) := by
    refine exact.perm ?_
    rw [← List.append_assoc]
    exact values.symm.append_right held
  obtain ⟨after, drained, left, remains⟩ := drain_exact _ store owed
  have untouched := Untouched.of_remains left remains
  have ran : (tableInsert (Bytes.ofString key) ref table : StoreM Unlimited _) store =
      .ok (result, .ok ()) after := by
    unfold tableInsert
    rw [inserted]
    exact bind_ok drained
  refine ⟨result, after, ?_, left, untouched.mono (List.subset_append_right _ _), ?_⟩
  · have entered : (StoreM.asInput .raised (tableInsert (Bytes.ofString key) ref table) :
        Input Unlimited _) store = .ok (result, .ok ()) after := by
      unfold StoreM.asInput
      rw [ran]
    unfold inputEntry
    exact bind_ok entered
  · exact (tabulates.insert filling isKey depicts perm).of_untouched untouched
      (List.subset_append_left _ _)

theorem ofEntry_builds {entry : String × Object} (buildable : Buildable room entry.2)
    (tabulates : store.Tabulates room keys entries table)
    (few : keys.dedup.length < Table.largestSize)
    (searchable : ∀ key ∈ keys, Table.Searchable (Bytes.ofString key)) (isKey : entry.1 ∈ keys)
    (hosts : store.Hosts (table.values ++ held)) :
    ∃ result after, ofEntry entry table store = .ok result after ∧
      after.Exact (result.values ++ held) ∧ Untouched held store after ∧
      after.Tabulates room keys (entries ++ [entry]) result := by
  obtain ⟨ref, middle, ran, built⟩ := buildable hosts
  have waiting := tabulates.of_untouched built.untouched (List.subset_append_left _ _)
  obtain ⟨result, after, entered, left, untouched, whole⟩ :=
    inputEntry_builds waiting few searchable isKey built.exact built.depicts
  refine ⟨result, after, ?_, left, ?_, whole⟩
  · unfold ofEntry
    rw [bind_ok (attempt_ok ran)]
    exact entered
  · exact (built.untouched.mono (List.subset_append_right _ _)).trans untouched

theorem ofEntries_builds {rest : List (String × Object)}
    (buildable : ∀ entry ∈ rest, Buildable room entry.2)
    (tabulates : store.Tabulates room keys entries table)
    (few : keys.dedup.length < Table.largestSize)
    (searchable : ∀ key ∈ keys, Table.Searchable (Bytes.ofString key))
    (within : rest.map Prod.fst ⊆ keys) (hosts : store.Hosts (table.values ++ held))
    (host : .noneObject ∈ held) :
    ∃ result after, ofEntries rest table store = .ok result after ∧
      after.Exact (result.values ++ held) ∧ Untouched held store after ∧
      after.Tabulates room keys (entries ++ rest) result := by
  induction rest generalizing store table entries with
  | nil =>
      unfold ofEntries
      refine ⟨table, store, rfl, hosts.exact, .refl _ _, ?_⟩
      rwa [List.append_nil]
  | cons entry rest ih =>
      rw [List.map_cons, List.cons_subset] at within
      obtain ⟨middle, between, entered, exact, untouched, tabulates'⟩ :=
        ofEntry_builds (buildable entry List.mem_cons_self) tabulates few searchable within.1 hosts
      have hosts' : between.Hosts (middle.values ++ held) :=
        ⟨exact, List.mem_append_right _ host, by
          rw [untouched.payload?_eq (.refl host), hosts.none_payload]⟩
      obtain ⟨result, after, ran, left, later, whole⟩ :=
        ih (fun other member => buildable other (List.mem_cons_of_mem _ member)) tabulates'
          within.2 hosts'
      refine ⟨result, after, ?_, left, untouched.trans later, ?_⟩
      · unfold ofEntries
        rw [bind_ok entered]
        exact ran
      · rwa [List.append_assoc, List.singleton_append] at whole

/-! ## Data of every form -/

/-- What was made of parts was made from where the parts were made. -/
theorem Built.rebase {middle : Store Unlimited} (untouched : Untouched held before middle)
    (built : Built held room object middle ref after) : Built held room object before ref after :=
  ⟨built.exact, untouched.trans built.untouched, built.depicts⟩

theorem buildable_none (room : Nat) : Buildable room .none := by
  intro store held hosts
  obtain ⟨after, acquired, exact, remains, same⟩ := acquire_exact hosts.exact hosts.none_payload
  have ran : ofObject .none store = .ok .noneObject after := by
    unfold ofObject StoreM.asInput
    rw [acquired]
  have found : after.payload? .noneObject = some .none := by rw [same, hosts.none_payload]
  exact ⟨.noneObject, after, ran, exact,
    (Untouched.of_remains exact remains).mono (List.subset_cons_self _ _),
    .none, .leaf found rfl rfl room, .none⟩

/-- A list or a tuple is made of its items. -/
theorem built_sequence {items : List Object} {pack : Array Ref → Payload}
    {wrap : List Object → Object} (owned : ∀ refs, (pack refs).children = refs.toList)
    (buildable : ∀ item ∈ items, Buildable room item)
    (shows_ : ∀ (placed : Store Unlimited) ref refs shown,
      placed.payload? ref = some (pack refs) → ¬ placed.LeadsTo refs.toList ref →
      List.Forall₂ (placed.Shows room) refs.toList shown → placed.Shows (room + 1) ref (wrap shown))
    (same : ∀ shown, List.Forall₂ Object.Same items shown → (wrap items).Same (wrap shown))
    (hosts : store.Hosts held) :
    ∃ ref after, (do inputObject (pack (← ofItems items #[])) : Input Unlimited Ref) store =
      .ok ref after ∧ Built held (room + 1) (wrap items) store ref after := by
  have empty : store.Hosts ((#[] : Array Ref).toList ++ held) := hosts
  obtain ⟨result, middle, refs, collected, listed, exact, untouched, each⟩ :=
    ofItems_builds buildable empty
  obtain rfl : result.toList = refs := listed
  have owing : middle.Exact ((pack result).children ++ held) := by rwa [owned]
  obtain ⟨ref, after, ran, built⟩ : ∃ ref after, (inputObject (pack result) :
      Input Unlimited Ref) middle = .ok ref after ∧
        Built held (room + 1) (wrap items) middle ref after := by
    refine built_place owing fun ref placed found apart kept => ?_
    rw [owned] at apart kept
    obtain ⟨shown, here, alike⟩ :=
      exists_shown (depicts_of_untouched each kept (List.Subset.refl _))
    exact ⟨wrap shown, shows_ placed ref result shown found apart here, same shown alike⟩
  exact ⟨ref, after, (bind_ok collected).trans ran, built.rebase untouched⟩

theorem built_dict (buildable : ∀ entry ∈ entries, Buildable room entry.2)
    (few : (entries.map Prod.fst).dedup.length < Table.largestSize)
    (searchable : ∀ key ∈ entries.map Prod.fst, Table.Searchable (Bytes.ofString key))
    (hosts : store.Hosts held) :
    ∃ ref after, (do inputObject (.dict (← ofEntries entries .empty)) : Input Unlimited Ref) store =
      .ok ref after ∧ Built held (room + 1) (.dict entries) store ref after := by
  have empty : store.Hosts ((Table.empty : Table Ref).values ++ held) := hosts
  obtain ⟨table, middle, filled, exact, untouched, whole⟩ :=
    ofEntries_builds buildable (.empty store room _) few searchable (List.Subset.refl _) empty
      hosts.none_held
  have owing : middle.Exact ((Payload.dict table).children ++ held) := exact
  obtain ⟨ref, after, ran, built⟩ : ∃ ref after, (inputObject (.dict table) :
      Input Unlimited Ref) middle = .ok ref after ∧
        Built held (room + 1) (.dict entries) middle ref after :=
    built_place owing fun ref placed found apart kept =>
      (whole.of_untouched kept (List.Subset.refl _)).depicts found apart
  exact ⟨ref, after, (bind_ok filled).trans ran, built.rebase untouched⟩

/-- Objects can be made for all plain data. -/
theorem buildable_of_plain {depth : Nat} (plain : object.Plain depth) :
    Buildable (maxDepth + 1 - depth) object := by
  have deeper {depth : Nat} (shallow : depth ≤ maxDepth) :
      maxDepth + 1 - depth = maxDepth + 1 - (depth + 1) + 1 := by omega
  induction plain with
  | none => exact buildable_none _
  | int value =>
      intro store held hosts
      unfold ofObject
      exact built_leaf hosts rfl rfl (.int value) fun _ => rfl
  | float value =>
      intro store held hosts
      unfold ofObject
      exact built_leaf hosts rfl rfl (.float value) fun _ => rfl
  | string text =>
      intro store held hosts
      unfold ofObject
      refine built_leaf hosts rfl rfl (.string text) fun _ => ?_
      rw [showLeaf, Bytes.toText_ofString]
  | list shallow _ ih =>
      intro store held hosts
      rw [deeper shallow]
      unfold ofObject
      exact built_sequence (fun _ => rfl) ih
        (fun _ _ _ _ found apart each => .list found apart each) (fun _ => .list) hosts
  | tuple shallow _ ih =>
      intro store held hosts
      rw [deeper shallow]
      unfold ofObject
      exact built_sequence (fun _ => rfl) ih
        (fun _ _ _ _ found apart each => .tuple found apart each) (fun _ => .tuple) hosts
  | dict shallow few searchable _ ih =>
      intro store held hosts
      rw [deeper shallow]
      unfold ofObject
      exact built_dict ih few searchable hosts

/-- Plain data can be put into a store in which counts are exact, and is shown as the same. -/
theorem Hosts.round_trip (hosts : store.Hosts held) (plain : object.Plain 0) :
    ∃ ref after shown, ofObject object store = .ok ref after ∧ Untouched held store after ∧
      after.toObject ref = .ok shown ∧ object.Same shown := by
  obtain ⟨ref, after, ran, built⟩ := buildable_of_plain plain hosts
  obtain ⟨shown, shows_, same⟩ := built.depicts
  exact ⟨ref, after, shown, ran, built.untouched, shows_.toObject, same⟩

end Store

end StackMachine

/-!
# Stacks

A stack is a list of items, topmost first, that knows its height.  The height is
that of the list by construction, so what a stack is rests on its items alone:
stacks with the same items are the same (`Stack.ext_items`), and each operation
is described by what it does to them.
-/

namespace StackMachine

/-- Items one above the other, topmost first. -/
structure Stack (α : Type) where
  items : List α
  height : Nat
  height_eq : height = items.length

namespace Stack

variable {α : Type}

theorem ext_items {first second : Stack α} (same : first.items = second.items) :
    first = second := by
  obtain ⟨items, height, height_eq⟩ := first
  obtain ⟨others, level, level_eq⟩ := second
  subst same height_eq level_eq
  rfl

/-- The stack without items. -/
def empty : Stack α :=
  ⟨[], 0, rfl⟩

@[simp] theorem items_empty : (empty : Stack α).items = [] :=
  rfl

/-- Put an item on top. -/
def push (stack : Stack α) (item : α) : Stack α :=
  ⟨item :: stack.items, stack.height + 1, by rw [stack.height_eq, List.length_cons]⟩

@[simp] theorem items_push (stack : Stack α) (item : α) :
    (stack.push item).items = item :: stack.items :=
  rfl

/-- Put items on top, the first of them uppermost. -/
def pushAll (stack : Stack α) (items : List α) : Stack α :=
  ⟨items ++ stack.items, items.length + stack.height,
    by rw [stack.height_eq, List.length_append]⟩

@[simp] theorem items_pushAll (stack : Stack α) (items : List α) :
    (stack.pushAll items).items = items ++ stack.items :=
  rfl

/-- Take away the `count` topmost items. -/
def drop (stack : Stack α) (count : Nat) : Stack α :=
  ⟨stack.items.drop count, stack.height - count, by rw [stack.height_eq, List.length_drop]⟩

@[simp] theorem items_drop (stack : Stack α) (count : Nat) :
    (stack.drop count).items = stack.items.drop count :=
  rfl

/-- The topmost item. -/
def top? (stack : Stack α) : Option α :=
  stack.items.head?

/-- Is there no item? -/
def isEmpty (stack : Stack α) : Bool :=
  stack.items.isEmpty

end Stack

end StackMachine

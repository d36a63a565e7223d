/-!
# Heaps

A heap is a list in which no item comes before its parent, where the parent of the item at `i` is
at `(i - 1) / 2`. The item that comes first is found at the head.

A new item is put at the end and **rises** while it comes before its parent. When the head is taken
the last item fills its place, but not by sinking until it fits: the hole at the head **sinks** to a
leaf, the lesser child moving up at each step, and from there the item rises. Where `before` orders
the items this is no matter. Where it does not, as with deadlines that are no numbers, it decides
what the list looks like, and which item is its head.

The functions below take a number of steps that bounds their loop; each step of a rise at least
halves the place, and each step of a sink at least doubles it.
-/

namespace Pubsub

namespace Heap

variable {α : Type} (before : α → α → Bool)

/-- The place of the parent. -/
def parent (i : Nat) : Nat := (i - 1) / 2

/-- The heap when the item `x` has risen from the hole at `i`, in at most so many steps. -/
def rise (x : α) : Nat → Nat → List α → List α
  | 0, i, heap => heap.set i x
  | steps + 1, i, heap =>
    if i = 0 then heap.set i x
    else match heap[parent i]? with
      | some above =>
        if before x above then rise x steps (parent i) (heap.set i above) else heap.set i x
      | none => heap.set i x

/-- The hole at `i` when it has sunk to a leaf, in at most so many steps, and the heap around it. -/
def sink : Nat → Nat → List α → Nat × List α
  | 0, i, heap => (i, heap)
  | steps + 1, i, heap =>
    match heap[2 * i + 1]?, heap[2 * i + 2]? with
    | none, _ => (i, heap)
    | some left, none => sink steps (2 * i + 1) (heap.set i left)
    | some left, some right =>
      if before left right then sink steps (2 * i + 1) (heap.set i left)
      else sink steps (2 * i + 2) (heap.set i right)

/-- The heap with one more item. -/
def push (heap : List α) (x : α) : List α := rise before x heap.length heap.length (heap ++ [x])

/-- The head of the heap, and the heap without it. -/
def pop? : List α → Option (α × List α)
  | [] => none
  | head :: rest =>
    match rest.getLast? with
    | none => some (head, [])
    | some last =>
      let (leaf, heap) := sink before rest.length 0 (last :: rest.dropLast)
      some (head, rise before last leaf leaf heap)

end Heap

end Pubsub

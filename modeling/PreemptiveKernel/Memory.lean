/-
  What the kernel keeps in its heap.

  There are the records of the tasks, their stacks, and rows that grow.  A row has room for a
  number of things.  When it is full, it moves to a block with twice the room, and the old block
  goes back to the heap only after that, so both have to be there at the same time.  Rows never
  shrink.

  A stack may be refused: where there is no room for it the memory stays as it is, and it is the
  allocator that says no.  For everything else there has to be room: the answer is then the number
  of bytes that could not be had.
-/
import PreemptiveKernel.Effect
import PreemptiveKernel.Heap
import PreemptiveKernel.Stack

namespace PreemptiveKernel

/-- The bytes that one thing in a row takes. -/
def Row.itemBytes : Row → Nat
  | alarms => 24
  | ready _ => 8
  | inbox _ => 32

/-- The room of a row. -/
structure Room where
  /-- The number of things that there is room for. -/
  items : Nat
  /-- Where it lies; means nothing if there is none. -/
  address : Nat
  deriving DecidableEq, Repr

/-- The heap, and the room that the rows have got from it. -/
structure Memory where
  /-- The free memory. -/
  heap : Heap
  /-- The rooms of the rows that have held something, the latest of each row first. -/
  rooms : List (Row × Room)
  deriving DecidableEq, Repr

namespace Memory

/-- The bytes of the record of a task. -/
def recordBytes : Nat := 784

/-- The bytes of the task table, which is set up with the first task.  It has room for eleven,
    and the kernel image has four. -/
def tableBytes : Nat := 192

/-- The room that a row gets with the first thing in it. -/
def firstItems : Nat := 4

/-- A heap of which nothing is in use. -/
def ofHeap (heap : Heap) : Memory := ⟨heap, []⟩

/-- The room of a row. -/
def room (m : Memory) (row : Row) : Room :=
  ((m.rooms.find? fun p => p.1 = row).map Prod.snd).getD ⟨0, 0⟩

/-- Takes a block that is never given back. -/
def take (m : Memory) (bytes : Nat) : Except Nat Memory :=
  match m.heap.take? bytes with
  | none => .error bytes
  | some (_, heap) => .ok { m with heap := heap }

/-- Sees to it that a row has room for so many things. -/
def grow (m : Memory) (row : Row) (count : Nat) : Except Nat Memory :=
  let old := m.room row
  if count ≤ old.items then .ok m
  else
    let items := max firstItems (2 * old.items)
    match m.heap.take? (items * row.itemBytes) with
    | none => .error (items * row.itemBytes)
    | some (address, heap) =>
      .ok
        { heap :=
            if old.items = 0 then heap else heap.give old.address (old.items * row.itemBytes)
          rooms := (row, ⟨items, address⟩) :: m.rooms }

/-- Finds the room that is needed. -/
def provide (m : Memory) : Need → Except Nat Memory
  | .task id => do
    let m ← m.take recordBytes
    if id = ⟨1⟩ then m.take tableBytes else return m
  | .stack bytes =>
    match m.take bytes with
    | .ok after => return after
    | .error _ => return m
  | .row row count => m.grow row count

/-- Finds the room for one need after the other. -/
def provideAll (m : Memory) : List Need → Except Nat Memory
  | [] => .ok m
  | what :: rest => do
    let m ← m.provide what
    m.provideAll rest

/-- Stacks as far as there is memory for them. -/
def allocator (m : Memory) : StackAllocator := fun bytes =>
  if (m.heap.take? bytes).isSome then StackAllocator.heap bytes
  else .error (.allocationFailure bytes)

/-- Stacks for a request that asks for one.  What it needs before it asks does not depend on the
    answer, so it can be found out with an allocator that has nothing. -/
def stacksFor {α : Type} (m : Memory) (request : StackAllocator → Run Effect α) :
    StackAllocator :=
  match m.provideAll
      ((Effect.needs (request .exhausted).trace).takeWhile fun need => !need.isStack) with
  | .ok m => m.allocator
  | .error _ => .exhausted

end Memory

end PreemptiveKernel

/-
  The heap.

  Free memory is kept in blocks.  A block of order `k` has `1 <<< k` bytes and begins at a
  multiple of its size.  Who asks for memory gets a block of the least order that is large
  enough.  If none of that order is free, one of the next order is taken and halved: the lower
  half is used, the upper one stays free.  A block that comes back is joined with the other half
  of the block it was cut from, if that one is free, and so on upwards.

  Of the free blocks of one order, the one that became free last is used first.  Where a block
  lies decides which others it can be joined with, so blocks are known by their addresses.
-/
import PreemptiveKernel.Word.Checked

namespace PreemptiveKernel

/-- The free memory of a heap. -/
structure Heap where
  /-- The addresses of the free blocks of each order, the one that is used first at the head. -/
  free : Vector (List Nat) 32
  deriving DecidableEq, Repr

namespace Heap

/-! ## Blocks -/

/-- The number of orders. -/
def orders : Nat := 32

/-- The order of a word: no block is smaller. -/
def wordOrder : Nat := 3

/-- The size of a block. -/
def blockBytes (order : Nat) : Nat :=
  1 <<< order

theorem blockBytes_pos (order : Nat) : 0 < blockBytes order := by
  rw [blockBytes, Nat.one_shiftLeft]
  exact Nat.two_pow_pos order

/-- No memory. -/
def empty : Heap := ⟨Vector.replicate 32 []⟩

/-- The free blocks of an order. -/
def blocks (h : Heap) (order : Nat) : List Nat :=
  h.free[order]?.getD []

/-- Replaces the free blocks of an order. -/
def setBlocks (h : Heap) (order : Nat) (addresses : List Nat) : Heap :=
  ⟨h.free.setIfInBounds order addresses⟩

/-- A block becomes free. -/
def keep (h : Heap) (address order : Nat) : Heap :=
  h.setBlocks order (address :: h.blocks order)

/-- The least order whose blocks have so many bytes; `none` if there is no such order. -/
def orderFor (bytes : Nat) : Option Nat :=
  (List.range orders).find? fun k => wordOrder ≤ k && bytes ≤ blockBytes k

/-! ## Taking and giving back -/

/-- Takes a block of an order; `levels` orders, this one included, may be looked at. -/
def takeFrom (h : Heap) (order : Nat) : Nat → Option (Nat × Heap)
  | 0 => none
  | levels + 1 =>
    match h.blocks order with
    | address :: rest => some (address, h.setBlocks order rest)
    | [] =>
      match h.takeFrom (order + 1) levels with
      | none => none
      | some (address, h) => some (address, h.keep (address + blockBytes order) order)

/-- Takes a block of at least so many bytes. -/
def take? (h : Heap) (bytes : Nat) : Option (Nat × Heap) :=
  match orderFor bytes with
  | none => none
  | some order => h.takeFrom order (orders - order)

/-- Gives a block back and joins it with its other half as long as that is free; `levels`
    orders, this one included, may be looked at. -/
def giveFrom (h : Heap) (address order : Nat) : Nat → Heap
  | 0 => h.keep address order
  | levels + 1 =>
    let half := address ^^^ blockBytes order
    if half ∈ h.blocks order then
      (h.setBlocks order ((h.blocks order).erase half)).giveFrom (min address half) (order + 1)
        levels
    else h.keep address order

/-- Gives a block back that was taken for so many bytes. -/
def give (h : Heap) (address bytes : Nat) : Heap :=
  match orderFor bytes with
  | none => h
  | some order => h.giveFrom address order (orders - order - 1)

/-! ## The first blocks -/

/-- The order of the largest block that begins at an address and has at most so many bytes. -/
def largestOrder (address bytes : Nat) : Nat :=
  ((List.range orders).reverse.find? fun k =>
    address % blockBytes k == 0 && blockBytes k ≤ bytes).getD 0

/-- Cuts memory into blocks from the front on, each as large as can be.  The search looks a
    word ahead, which has to be an address, and finds no largest block at address zero. -/
def cut (h : Heap) (address finish : Nat) : Except Stop Heap :=
  if Word.bound ≤ address + blockBytes wordOrder then .error .addOverflow
  else if address + blockBytes wordOrder ≤ finish then
    if address = 0 then .error .addOverflow
    else
      let order := largestOrder address (finish - address)
      cut (h.keep address order) (address + blockBytes order) finish
  else .ok h
termination_by finish - address
decreasing_by
  have := blockBytes_pos (largestOrder address (finish - address))
  have := blockBytes_pos wordOrder
  omega

/-- The heap of a piece of memory.  Only whole words of it are used. -/
def ofRegion (start bytes : Nat) : Except Stop Heap := do
  let finish ← Word.add start bytes
  let ahead ← Word.add start (blockBytes wordOrder)
  let first := (ahead - 1) / blockBytes wordOrder * blockBytes wordOrder
  let last := finish / blockBytes wordOrder * blockBytes wordOrder
  if last < first then .error .heapBackwards
  else empty.cut first last

end Heap

example : (Heap.empty.keep 4096 12).take? 1000 =
    some (4096, (Heap.empty.keep 6144 11).keep 5120 10) := by decide

example : ((Heap.empty.keep 6144 11).keep 5120 10).give 4096 1000 =
    Heap.empty.keep 4096 12 := by decide

end PreemptiveKernel

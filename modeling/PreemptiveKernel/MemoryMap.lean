/-
  The search for the heap's memory.

  The loader reports the memory of the machine as a list of entries, and where in the
  address space all of it can be seen.  The heap gets the first of the largest usable
  entries: from its first page boundary on, and no more than is wanted.  If either report
  is missing, or nothing is usable, there is no heap.
-/
import PreemptiveKernel.Effect
import PreemptiveKernel.Word.Checked

namespace PreemptiveKernel.MemoryMap

/-- The size of a page. -/
def pageBytes : Nat := 4096

/-- A piece of physical memory. -/
structure Entry where
  /-- Where it begins. -/
  base : Nat
  /-- How many bytes it has. -/
  length : Nat
  /-- What it is good for; zero is memory that anybody may use. -/
  kind : Nat
  deriving DecidableEq, Repr

/-- The entry is free to be used. -/
def Entry.usable (e : Entry) : Bool :=
  e.kind == 0

/-- A piece of the address space. -/
structure Region where
  /-- Where it begins. -/
  start : Nat
  /-- How many bytes it has. -/
  bytes : Nat
  deriving DecidableEq, Repr

/-- What is known after some entries have been looked at. -/
structure Survey where
  /-- The usable bytes so far. -/
  usable : Nat
  /-- The first of the largest usable entries so far. -/
  best : Option Entry
  deriving DecidableEq, Repr

/-- The better of two entries: the later one only if it is larger. -/
def better (best : Option Entry) (e : Entry) : Entry :=
  match best with
  | none => e
  | some b => if b.length < e.length then e else b

/-- Looks at the entries one after the other.  Those that are not usable are passed over. -/
def survey : List Entry → Survey → Run Effect Survey
  | [], known => return known
  | e :: rest, known =>
    if e.usable then do
      let finish ← Word.add e.base e.length
      Effect.note .debug Source.memoryMap s!"pmm: usable {Word.hex e.base}..{Word.hex finish}"
      let usable ← Word.add known.usable e.length
      survey rest ⟨usable, some (better known.best e)⟩
    else survey rest known

/-- The part of an entry that the heap gets: from its first page boundary on, at most `want`
    bytes, at the address where the memory is seen.  The search for the boundary looks a
    whole page ahead, and that has to be an address too. -/
def carve (e : Entry) (offset want : Nat) : Except Stop Region := do
  let _ ← Word.add e.base pageBytes
  let start := Word.roundUp e.base pageBytes
  let finish ← Word.add e.base e.length
  let address ← Word.add start offset
  return ⟨address, min (finish - start) want⟩

/-- Finds memory for a heap of at most `want` bytes. -/
def heapRegion (offset : Option Nat) (entries : Option (List Entry)) (want : Nat) :
    Run Effect (Option Region) :=
  match offset, entries with
  | some offset, some entries => do
    let known ← survey entries ⟨0, none⟩
    Effect.note .info Source.memoryMap s!"pmm: {known.usable / (1024 * 1024)} MiB usable"
    match known.best with
    | none => return none
    | some e => return some (← carve e offset want)
  | _, _ => return none

end PreemptiveKernel.MemoryMap

/-
  The first run of a task, on stacks of every size.

  The stack pointer of a first run is one word below the last multiple of sixteen on the stack.  On
  a stack that begins at a multiple of sixteen this is its last word, or the word before it if the
  number of words is odd (`firstSlot`).  So two words are enough whatever their number
  (`firstStackPointer_zeroed`), and nothing else of the stack is ever written.

  With fewer than two words the pointer would lie in front of the stack.  One of the two differences
  that are formed on the way to the slot falls below zero then (`slot_of_cramped`), and since both
  come before the task is given anything, the task that is left behind is the one that was there
  before.

  The main result (`prepared_on_every_stack`) puts the image of the stack (`FirstImage`) and the
  registers (`FirstRegisters`) together.  What the task had before does not appear in either.
-/
import PreemptiveKernel.Task
import PreemptiveKernel.Proofs.Ends

namespace PreemptiveKernel.Task

open Run

variable {base words : Nat} {t : Task} {allocate : StackAllocator}

/-! ## The stack pointer -/

/-- As many words as cover so many bytes. -/
def wordsFor (bytes : Nat) : Nat :=
  (bytes + 7) / 8

/-- The index of the word that a first run returns through. -/
def firstSlot (words : Nat) : Nat :=
  if words % 2 = 0 then words - 1 else words - 2

/-- **Two words are enough**, and the pointer is at the slot. -/
theorem firstStackPointer_zeroed (aligned : 16 ∣ base) (roomy : 2 ≤ words)
    (placed : base + words * 8 < Word.bound) :
    firstStackPointer (.zeroed base words) = .ok (base + firstSlot words * 8) := by
  obtain ⟨k, rfl⟩ := aligned
  have slot : (16 * k + words * 8) / 16 * 16 = 16 * k + firstSlot words * 8 + 8 := by
    unfold firstSlot
    split
    · omega
    · omega
  show (do let top ← Word.add (16 * k) (words * 8); Word.sub (top / 16 * 16) 8) = _
  rw [Word.add_of_lt placed]
  show Word.sub ((16 * k + words * 8) / 16 * 16) 8 = _
  rw [slot, Word.sub_of_le (Nat.le_add_left 8 _), Nat.add_sub_cancel]

/-- A stack of fewer than two words ends before the second word behind the last multiple of
    sixteen in front of it. -/
theorem lastSixteen_le (aligned : 16 ∣ base ∨ words = 0) (cramped : words < 2) :
    (base + words * 8) / 16 * 16 ≤ base := by
  rcases aligned with ⟨k, rfl⟩ | rfl
  · omega
  · omega

/-! ## The image -/

/-- **The image of a first run**: of the `words` words from `base` on only the one that the stack
    pointer points at is not zero, and it is the last or the last but one. -/
structure FirstImage (base words rsp : Nat) (stack : Stack) : Prop where
  /-- The stack lies where the allocator has put it. -/
  place : stack.base = base ∧ stack.words = words
  /-- A routine finds the stack as it is right after a call. -/
  aligned : rsp % 16 = 8
  /-- The pointer is on the stack. -/
  above : base ≤ rsp
  /-- And so is all of the word that it points at. -/
  below : rsp + 8 ≤ stack.top
  /-- At most one word of the stack lies behind that one. -/
  close : stack.top - rsp ≤ 16
  /-- The word that the pointer points at is one of the words of the stack. -/
  slot : rsp = base + firstSlot words * 8 ∧ firstSlot words < words
  /-- It holds the trap. -/
  trap : stack.word (firstSlot words) = .returnTrap
  /-- All others are zero. -/
  rest : ∀ i, i ≠ firstSlot words → stack.word i = .number 0

theorem firstImage (aligned : 16 ∣ base) (roomy : 2 ≤ words) :
    FirstImage base words (base + firstSlot words * 8)
      ((Stack.zeroed base words).write (firstSlot words) .returnTrap) := by
  obtain ⟨k, rfl⟩ := aligned
  have parity : firstSlot words % 2 = 1 ∧ firstSlot words + 1 ≤ words ∧
      words ≤ firstSlot words + 2 := by
    unfold firstSlot
    split
    · omega
    · omega
  have top : ((Stack.zeroed (16 * k) words).write (firstSlot words) .returnTrap).top =
      16 * k + words * 8 := rfl
  refine ⟨⟨rfl, rfl⟩, by omega, by omega, by omega, by omega, ⟨rfl, by omega⟩, ?_, fun i hi => ?_⟩
  · rw [Stack.word_write, if_pos rfl]
  · rw [Stack.word_write, if_neg (Ne.symm hi)]
    rfl

/-- **The registers of a first run.**  They do not depend on what the task had before. -/
structure FirstRegisters (id : TaskId) (entry : EntryPoint) (data : Int64) (cr3 : UInt64)
    (rsp : Nat) (c : Context) : Prop where
  /-- The task begins with its routine. -/
  rip : c.rip = some entry
  /-- The first argument is the identifier. -/
  rdi : c.rdi = id.val.toUInt64
  /-- The second argument is the data, a negative number as its complement. -/
  rsi : (c.rsi.toNat : Int) = data.toInt % (Word.bound : Nat)
  /-- The page tables are those that the processor had when the task was prepared. -/
  cr3 : c.cr3 = cr3
  /-- Interrupts are let through. -/
  rflags : c.rflags = 0x202
  /-- Code and stack are in the kernel's segments. -/
  segments : c.cs = Selector.kernelCode.toUInt64 ∧ c.ss = Selector.kernelData.toUInt64
  /-- The stack pointer. -/
  pointer : c.rsp = rsp
  /-- The x87 control word, as it is read back. -/
  fcw : c.fcw = 0x037F
  /-- The SSE control word, as it is read back. -/
  mxcsr : c.mxcsr = 0x1F80
  /-- All other registers are zero. -/
  others : ∀ r ∈ [c.fs, c.gs, c.rax, c.rbx, c.rcx, c.rdx, c.rbp, c.r8, c.r9, c.r10, c.r11, c.r12,
    c.r13, c.r14, c.r15], r = 0
  /-- Outside the control words the floating point area is zero. -/
  area : ∀ i : Fin 512, i.val ∉ [0, 1, 24, 25, 26, 27] → c.fxsave.get i = 0

theorem firstRegisters (id : TaskId) (entry : EntryPoint) (data : Int64) (cr3 : UInt64)
    (rsp : Nat) :
    FirstRegisters id entry data cr3 rsp (firstContext id entry data cr3 rsp) where
  rip := rfl
  rdi := rfl
  rsi := by
    have word := data.toBitVec.isLt
    show (data.toBitVec.toNat : Int) = data.toBitVec.toInt % 0x1_0000_0000_0000_0000
    rw [BitVec.toInt_eq_toNat_cond]
    split
    · omega
    · omega
  cr3 := rfl
  rflags := rfl
  segments := ⟨rfl, rfl⟩
  pointer := rfl
  fcw := by
    show ((Context.zeroed.setFcw initialFcw).setMxcsr initialMxcsr).fcw = _
    decide +kernel
  mxcsr := by
    show ((Context.zeroed.setFcw initialFcw).setMxcsr initialMxcsr).mxcsr = _
    decide +kernel
  others := by
    intro r hr
    have all : ∀ r ∈ List.replicate 15 (0 : UInt64), r = 0 :=
      fun r hr => (List.mem_replicate.mp hr).2
    exact all r hr
  area := by
    intro i outside
    simp only [List.mem_cons, List.not_mem_nil, or_false, not_or] at outside
    obtain ⟨h0, h1, h24, h25, h26, h27⟩ := outside
    -- each of the bytes of the control words is written elsewhere
    have elsewhere : ∀ (v : Vector UInt8 512) (k : Nat) (hk : k < 512) (b : UInt8), i.val ≠ k →
        (v.set k b hk).get i = v.get i :=
      fun v k hk b hne => Vector.getElem_set_ne hk i.isLt (Ne.symm hne)
    show ((Context.zeroed.setFcw initialFcw).setMxcsr initialMxcsr).fxsave.get i = 0
    unfold Context.setMxcsr Context.setFcw
    rw [elsewhere _ 27 _ _ h27, elsewhere _ 26 _ _ h26, elsewhere _ 25 _ _ h25,
      elsewhere _ 24 _ _ h24, elsewhere _ 1 _ _ h1, elsewhere _ 0 _ _ h0]
    exact Vector.getElem_replicate i.isLt

/-! ## Preparing -/

/-- A task on a stack of two words or more is given its registers and the slot. -/
theorem preparation_of_roomy (entry : EntryPoint) (data : Int64) (cr3 : UInt64)
    (given : allocate t.stackBytes = .ok (.zeroed base words))
    (aligned : 16 ∣ base) (roomy : 2 ≤ words) (placed : base + words * 8 < Word.bound) :
    (preparation entry data allocate cr3).on t =
      ⟨[.need (.stack t.stackBytes), .log ⟨.debug, Source.task, s!"task {t.id} context:"⟩],
        .ok (.ok (.ok ()),
          { t with
            context := firstContext t.id entry data cr3 (base + firstSlot words * 8)
            stack := some ((Stack.zeroed base words).write (firstSlot words) .returnTrap) })⟩ := by
  have slot : Word.sub (base + firstSlot words * 8) (Stack.zeroed base words).base =
      .ok (firstSlot words * 8) := by
    show Word.sub (base + firstSlot words * 8) base = _
    rw [Word.sub_of_le (Nat.le_add_right _ _), Nat.add_sub_cancel_left]
  rw [preparation_of_done given (firstStackPointer_zeroed aligned roomy placed) slot,
    Nat.mul_div_cancel _ (by decide)]

/-- **With less there is no room**: one of the two differences falls below zero. -/
theorem slot_of_cramped (aligned : 16 ∣ base ∨ words = 0) (cramped : words < 2)
    (placed : base + words * 8 < Word.bound) :
    (do Word.sub (← firstStackPointer (.zeroed base words)) (Stack.zeroed base words).base) =
      .error .subOverflow := by
  have behind := lastSixteen_le aligned cramped
  have pointer : firstStackPointer (.zeroed base words) =
      Word.sub ((base + words * 8) / 16 * 16) 8 := by
    show (do let top ← Word.add base (words * 8); Word.sub (top / 16 * 16) 8) = _
    rw [Word.add_of_lt placed]
    rfl
  rw [pointer]
  generalize (base + words * 8) / 16 * 16 = last at behind
  by_cases room : 8 ≤ last
  · -- the pointer is an address, but it lies in front of the stack
    have front : last - 8 < base := by omega
    rw [Word.sub_of_le room]
    exact Word.sub_of_lt front
  · rw [Word.sub_of_lt (Nat.lt_of_not_le room)]
    rfl

/-- **The first run is prepared on every stack that has room for it.**  The allocator gives zeroed
    words at `base`, as many as cover the `given` bytes, whatever it was asked for.

    1. With two words or more the task gets the image of the stack and the registers of a first
       run, whatever it had before, and with them the page tables that the processor has now; its
       level, its place among the ready tasks and its messages are what they were.
    2. With fewer the difference of two addresses falls below zero.  Nothing but the request for
       the stack has been seen then, and the task that is left behind is `t`.
    3. An allocator that refuses is asked, its refusal is handed on, and the task is still `t`. -/
theorem prepared_on_every_stack (t : Task) (entry : EntryPoint) (data : Int64) (cr3 : UInt64)
    {allocate : StackAllocator} {base given : Nat}
    (answer : allocate t.stackBytes = .ok (.zeroed base (wordsFor given)))
    (aligned : 16 ∣ base ∨ wordsFor given = 0)
    (placed : base + wordsFor given * 8 < Word.bound) :
    (2 ≤ wordsFor given →
      ∃ p stack rsp, (t.prepare entry data allocate cr3).outcome = .ok (.ok (), p) ∧
        ((preparation entry data allocate cr3).on t).outcome = .ok (.ok (.ok ()), p) ∧
        p.stack = some stack ∧ FirstImage base (wordsFor given) rsp stack ∧
        FirstRegisters t.id entry data cr3 rsp p.context ∧
        p.id = t.id ∧ p.level = t.level ∧ p.running = t.running ∧ p.inbox = t.inbox ∧
        p.stackBytes = t.stackBytes) ∧
    (wordsFor given < 2 →
      t.prepare entry data allocate cr3 =
        ⟨[.need (.stack t.stackBytes)], .error .subOverflow⟩ ∧
      (preparation entry data allocate cr3).on t =
        ⟨[.need (.stack t.stackBytes)], .ok (.error .subOverflow, t)⟩) ∧
    ∀ (refusing : StackAllocator) (error : KernelError),
      refusing t.stackBytes = .error error →
        t.prepare entry data refusing cr3 =
          ⟨[.need (.stack t.stackBytes)], .ok (.error error, t)⟩ := by
  refine ⟨fun roomy => ?_, fun cramped => ?_, fun refusing error refusal => ?_⟩
  · have aligned : 16 ∣ base := aligned.resolve_right (by omega)
    have worked := preparation_of_roomy entry data cr3 answer aligned roomy placed
    exact ⟨_, _, _, congrArg Run.outcome (prepare_of_answer worked), congrArg Run.outcome worked,
      rfl, firstImage aligned roomy, firstRegisters _ _ _ _ _, rfl, rfl, rfl, rfl, rfl⟩
  · have stopped : (preparation entry data allocate cr3).on t =
        ⟨[.need (.stack t.stackBytes)], .ok (.error .subOverflow, t)⟩ :=
      preparation_of_stop answer (slot_of_cramped aligned cramped placed)
    exact ⟨prepare_of_stop stopped, stopped⟩
  · exact prepare_of_answer (preparation_of_refusal refusal)

/-- A task that has run before, with mail and at the highest level, is given 17 bytes instead of
    4096: three words, so that the last one is lost to the boundary and the slot is the one in the
    middle.  It gets the page tables at `0x1000`.  Given 8 bytes it is not prepared, and neither is
    it without memory; then it still has its mail and the registers that it had. -/
theorem prepared_on_every_stack_of_three_words : ∃ t p stack rsp,
    t = { create ⟨7⟩ 4096 with
      level := 3, running := true, inbox := ⟨[.layerFinish 5]⟩
      context := { Context.zeroed with rax := 1, rsp := 99, rip := some .idle } } ∧
    (t.prepare (.routine 2) (-9) (.fixed 17) 0x1000).outcome = .ok (.ok (), p) ∧
    p.stack = some stack ∧
    FirstImage StackAllocator.heapBase 3 rsp stack ∧ firstSlot 3 = 1 ∧
    FirstRegisters ⟨7⟩ (.routine 2) (-9) 0x1000 rsp p.context ∧ p.context.cr3 = 0x1000 ∧
    p.inbox = t.inbox ∧
    (preparation (.routine 2) (-9) (.fixed 8) 0x1000).on t =
      ⟨[.need (.stack 4096)], .ok (.error .subOverflow, t)⟩ ∧
    t.prepare (.routine 2) (-9) .exhausted 0x1000 =
      ⟨[.need (.stack 4096)], .ok (.error (.allocationFailure 4096), t)⟩ := by
  obtain ⟨t, ht⟩ : ∃ t, t = { create ⟨7⟩ 4096 with
      level := 3, running := true, inbox := ⟨[.layerFinish 5]⟩
      context := { Context.zeroed with rax := 1, rsp := 99, rip := some .idle } } := ⟨_, rfl⟩
  have aligned : 16 ∣ StackAllocator.heapBase := by decide
  have id : t.id = ⟨7⟩ := by rw [ht]; rfl
  have bytes : t.stackBytes = 4096 := by rw [ht]; rfl
  obtain ⟨roomy, -, refused⟩ := prepared_on_every_stack t (.routine 2) (-9) 0x1000
    (show StackAllocator.fixed 17 t.stackBytes =
      .ok (.zeroed StackAllocator.heapBase (wordsFor 17)) from rfl)
    (.inl aligned) (by decide)
  obtain ⟨p, stack, rsp, prepared, -, image, first, registers, same, -, -, mail, -⟩ :=
    roomy (by decide)
  rw [id] at registers
  obtain ⟨-, cramped, -⟩ := prepared_on_every_stack t (.routine 2) (-9) 0x1000
    (show StackAllocator.fixed 8 t.stackBytes =
      .ok (.zeroed StackAllocator.heapBase (wordsFor 8)) from rfl)
    (.inl aligned) (by decide)
  have stopped := (cramped (by decide)).2
  have empty := refused .exhausted (.allocationFailure t.stackBytes) rfl
  rw [bytes] at stopped empty
  exact ⟨t, p, stack, rsp, ht, prepared, image, first, rfl, registers, registers.cr3, mail, stopped,
    empty⟩

end PreemptiveKernel.Task

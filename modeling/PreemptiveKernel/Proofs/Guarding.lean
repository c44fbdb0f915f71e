/-
  What a computation on the machine keeps to.

  `Ensures` is a postcondition for computations on the machine.  Beside the value and the machine
  afterwards it speaks of two things that leave no mark on the machine.

  1. **What is seen on the way.**  Every observation has to be `Guarded`: whoever holds a lock, uses
     the shared state, acknowledges an interrupt or passes the processor on does so with interrupts
     masked, and the processor is passed on only when both locks are free.

  2. **The marks.**  Uses of the shared state, acknowledgements and changes of task are kept in the
     order in which they happen, so that the postcondition can say how many there were and which
     came first.

  Sequences are proved by their parts (`Ensures.bind`), and so are masked work (`ensures_masked`)
  and what is done with a lock held (`ensures_withLock`).  What log records and the search for room
  do is said once (`ensures_carry`): they change nothing but the serial line and the memory, and
  nothing but these two can make them stop.
-/
import PreemptiveKernel.Kernel.Shared
import PreemptiveKernel.Proofs.Ends
import PreemptiveKernel.Proofs.SerialLine

namespace PreemptiveKernel

/-! ## What may be seen -/

/-- **Guarded**: nothing that needs interrupts to be masked is done while they are not. -/
structure Observation.Guarded (o : Observation) : Prop where
  /-- A lock is held under the mask only. -/
  alone : o.schedulerHeld = true ∨ o.clockHeld = true → o.interrupts = false
  /-- The shared scheduler is used under the mask and with its lock held. -/
  scheduler : o.event = .schedulerUsed → o.interrupts = false ∧ o.schedulerHeld = true
  /-- The shared clock is used under the mask and with its lock held. -/
  clock : o.event = .clockUsed → o.interrupts = false ∧ o.clockHeld = true
  /-- Interrupts are acknowledged under the mask. -/
  acknowledged : o.event = .acknowledged → o.interrupts = false
  /-- The processor is passed on under the mask and with both locks free. -/
  switched : ∀ change, o.event = .switched change →
    o.interrupts = false ∧ o.schedulerHeld = false ∧ o.clockHeld = false

/-- Uses of the shared state, acknowledgements and changes of task. -/
def Event.isMark : Event → Bool
  | .schedulerUsed => true
  | .clockUsed => true
  | .acknowledged => true
  | .switched _ => true
  | _ => false

/-- The uses of the shared state, the acknowledgements and the changes of task that were seen, in
    order. -/
def marks (t : List Observation) : List Event :=
  (t.map Observation.event).filter Event.isMark

theorem marks_append (xs ys : List Observation) : marks (xs ++ ys) = marks xs ++ marks ys := by
  rw [marks, List.map_append, List.filter_append]
  rfl

namespace Machine

variable {m m₁ m₂ : Machine} {s : Stop}

/-- Interrupts are masked or both locks are free. -/
def Calm (m : Machine) : Prop :=
  m.schedulerHeld = true ∨ m.clockHeld = true → m.interrupts = false

theorem calm_of_masked (off : m.interrupts = false) : m.Calm := fun _ => off

/-- What is no mark may be seen at any calm moment. -/
theorem Calm.guarded (calm : m.Calm) {e : Event} (plain : e.isMark = false) :
    Observation.Guarded ⟨e, m.interrupts, m.schedulerHeld, m.clockHeld⟩ where
  alone := calm
  scheduler h := by
    obtain rfl : e = .schedulerUsed := h
    cases plain
  clock h := by
    obtain rfl : e = .clockUsed := h
    cases plain
  acknowledged h := by
    obtain rfl : e = .acknowledged := h
    cases plain
  switched change h := by
    obtain rfl : e = .switched change := h
    cases plain

/-- At most the answers of the serial line and the memory have been used up. -/
structure Spent (m m' : Machine) : Prop where
  scheduler : m'.scheduler = m.scheduler
  clock : m'.clock = m.clock
  interrupts : m'.interrupts = m.interrupts
  cr3 : m'.cr3 = m.cr3
  logger : m'.logger = m.logger
  keyboard : m'.keyboard = m.keyboard
  line : m'.uart.locked = m.uart.locked
  limited : m'.memory.isSome = m.memory.isSome

theorem Spent.refl (m : Machine) : m.Spent m := ⟨rfl, rfl, rfl, rfl, rfl, rfl, rfl, rfl⟩

theorem Spent.trans (h : m.Spent m₁) (h' : m₁.Spent m₂) : m.Spent m₂ where
  scheduler := h'.scheduler.trans h.scheduler
  clock := h'.clock.trans h.clock
  interrupts := h'.interrupts.trans h.interrupts
  cr3 := h'.cr3.trans h.cr3
  logger := h'.logger.trans h.logger
  keyboard := h'.keyboard.trans h.keyboard
  line := h'.line.trans h.line
  limited := h'.limited.trans h.limited

theorem Spent.calm (h : m.Spent m₁) (calm : m.Calm) : m₁.Calm := by
  unfold Calm schedulerHeld clockHeld at calm ⊢
  rw [h.scheduler, h.clock, h.interrupts]
  exact calm

/-- The machine stands in the way of writing to the log or of finding room: there is a limit to
    the memory, or somebody is in the middle of printing. -/
def Blocks (m : Machine) (s : Stop) : Prop :=
  (∃ bytes, s = .outOfMemory bytes) ∧ m.memory.isSome = true ∨
    s = .lockNeverReleased ∧ m.uart.locked = true

theorem Spent.blocks (h : m.Spent m₁) (blocked : m₁.Blocks s) : m.Blocks s := by
  rw [Blocks, h.limited, h.line] at blocked
  exact blocked

/-- A machine without limits to its memory on which nobody prints blocks nothing. -/
theorem not_blocks (unlimited : m.memory = none) (free : m.uart.locked = false) :
    ¬ m.Blocks s := by
  rintro (⟨-, limited⟩ | ⟨-, locked⟩)
  · rw [unlimited] at limited
    cases limited
  · rw [free] at locked
    cases locked

end Machine

namespace Kernel

variable {α β ω : Type} {m : Machine} {admitted admitted' : Stop → Prop}

/-! ## The logic -/

/-- On the machine `m` the computation lets be seen only what is guarded.  It stops as `admitted`
    says, or its marks, its value and the machine afterwards satisfy `post`. -/
structure Ensures (x : Kernel α) (m : Machine) (admitted : Stop → Prop)
    (post : List Event → α → Machine → Prop) : Prop where
  guarded : ∀ o ∈ (x m).trace, o.Guarded
  ends : (x m).Ends admitted fun p => post (marks (x m).trace) p.1 p.2

variable {post post' : List Event → α → Machine → Prop}

theorem Ensures.mono {x : Kernel α} (h : Ensures x m admitted post)
    (hs : ∀ s, admitted s → admitted' s) (hp : ∀ ks a m', post ks a m' → post' ks a m') :
    Ensures x m admitted' post' :=
  ⟨h.guarded, h.ends.mono hs fun p => hp _ p.1 p.2⟩

theorem ensures_pure {a : α} (h : post [] a m) : Ensures (pure a : Kernel α) m admitted post :=
  ⟨fun _ ho => (by cases ho), h⟩

theorem ensures_stop {s : Stop} (h : admitted s) : Ensures (stop s : Kernel α) m admitted post :=
  ⟨fun _ ho => (by cases ho), h⟩

theorem ensures_get {post : List Event → Machine → Machine → Prop} (h : post [] m m) :
    Ensures get m admitted post :=
  ⟨fun _ ho => (by cases ho), h⟩

theorem ensures_modify {f : Machine → Machine} {post : List Event → Unit → Machine → Prop}
    (h : post [] () (f m)) : Ensures (modify f) m admitted post :=
  ⟨fun _ ho => (by cases ho), h⟩

theorem ensures_observe {e : Event} {post : List Event → Unit → Machine → Prop}
    (guarded : Observation.Guarded ⟨e, m.interrupts, m.schedulerHeld, m.clockHeld⟩)
    (h : post (marks [⟨e, m.interrupts, m.schedulerHeld, m.clockHeld⟩]) () m) :
    Ensures (observe e) m admitted post :=
  ⟨fun _ ho => List.mem_singleton.mp ho ▸ guarded, h⟩

/-- **Sequences are proved by their parts.** -/
theorem Ensures.bind {x : Kernel α} {f : α → Kernel β} {Q : List Event → α → Machine → Prop}
    {post : List Event → β → Machine → Prop} (hx : Ensures x m admitted Q)
    (hf : ∀ ks a m₁, Q ks a m₁ →
      Ensures (f a) m₁ admitted fun later b m₂ => post (ks ++ later) b m₂) :
    Ensures (x >>= f) m admitted post := by
  obtain ⟨guarded, ends⟩ := hx
  cases h : (x m).outcome with
  | error s =>
    have stopped : admitted s := by rwa [Run.Ends, h] at ends
    have whole : (x >>= f) m = ⟨(x m).trace, .error s⟩ := Run.bind_of_error h _
    exact ⟨by rwa [whole], by rw [whole]; exact stopped⟩
  | ok p =>
    obtain ⟨later, last⟩ := hf _ p.1 p.2 (ends.of_ok h)
    have whole : (x >>= f) m =
        ⟨(x m).trace ++ (f p.1 p.2).trace, (f p.1 p.2).outcome⟩ := Run.bind_of_ok h _
    refine ⟨fun o ho => ?_, ?_⟩
    · rw [whole] at ho
      rcases List.mem_append.mp ho with before | after
      · exact guarded o before
      · exact later o after
    · rw [whole, marks_append]
      exact last

/-- A first part that leaves no mark. -/
theorem Ensures.bind_unmarked {x : Kernel α} {f : α → Kernel β} {Q : α → Machine → Prop}
    {post : List Event → β → Machine → Prop}
    (hx : Ensures x m admitted fun ks a m₁ => ks = [] ∧ Q a m₁)
    (hf : ∀ a m₁, Q a m₁ → Ensures (f a) m₁ admitted post) :
    Ensures (x >>= f) m admitted post :=
  hx.bind fun ks a m₁ h => by
    obtain ⟨rfl, h⟩ := h
    exact hf a m₁ h

/-- Masked work is done with the flag off, and the flag is turned on at its end if it was on
    before. -/
theorem ensures_masked {x : Kernel α}
    (h : Ensures x { m with interrupts := false } admitted fun ks a m₁ =>
      post ks a { m₁ with interrupts := m.interrupts || m₁.interrupts }) :
    Ensures (masked x) m admitted post := by
  have run : masked x m = (fun p : α × Machine =>
      (p.1, { p.2 with interrupts := m.interrupts || p.2.interrupts })) <$>
        x { m with interrupts := false } := (masked_apply x m).trans (bind_pure_comp _ _)
  refine ⟨fun o ho => h.guarded o ?_, ?_⟩
  · rwa [run, Run.trace_map] at ho
  · rw [run, Run.trace_map]
    exact Run.ends_map h.ends fun _ ha => ha

/-! ## The shared state -/

variable {σ : Type}

/-- A lock that is free is taken. -/
theorem ensures_acquire {lock : Lock σ} {v : σ} {post : List Event → σ → Machine → Prop}
    (free : lock.find m = some ⟨v, false⟩) (h : post [] v (lock.store (some ⟨v, true⟩) m)) :
    Ensures (acquire lock) m admitted post := by
  constructor
  · rw [acquire_of_free free]
    exact fun _ ho => (by cases ho)
  · rw [acquire_of_free free]
    exact h

/-- What is done with a lock held: the lock is taken under the mask, that it is used can be seen,
    the work is done, and the lock is free again. -/
theorem ensures_withLock (lock : Lock σ) {v : σ} {f : σ → Kernel (α × σ)} (mark : lock.used.isMark = true)
    (free : lock.find { m with interrupts := false } = some ⟨v, false⟩)
    (guarded : Observation.Guarded ⟨lock.used,
      (lock.store (some ⟨v, true⟩) { m with interrupts := false }).interrupts,
      (lock.store (some ⟨v, true⟩) { m with interrupts := false }).schedulerHeld,
      (lock.store (some ⟨v, true⟩) { m with interrupts := false }).clockHeld⟩)
    (h : Ensures (f v) (lock.store (some ⟨v, true⟩) { m with interrupts := false }) admitted
      fun ks p m₁ => post (lock.used :: ks) p.1 { lock.store (some ⟨p.2, false⟩) m₁ with
        interrupts := m.interrupts || (lock.store (some ⟨p.2, false⟩) m₁).interrupts }) :
    Ensures (withLock lock f) m admitted post := by
  refine ensures_masked ?_
  refine Ensures.bind_unmarked (Q := fun w m₁ => w = v ∧
      m₁ = lock.store (some ⟨v, true⟩) { m with interrupts := false })
    (ensures_acquire free ⟨rfl, rfl, rfl⟩) fun w m₁ taken => ?_
  obtain ⟨rfl, rfl⟩ := taken
  refine Ensures.bind (Q := fun ks _ m₁ => ks = [lock.used] ∧
      m₁ = lock.store (some ⟨w, true⟩) { m with interrupts := false })
    (ensures_observe guarded ⟨List.filter_cons_of_pos mark, rfl⟩) fun ks _ m₂ seen => ?_
  obtain ⟨rfl, rfl⟩ := seen
  refine h.bind fun ks p m₃ done => ?_
  refine Ensures.bind_unmarked (ensures_modify ⟨rfl, rfl⟩) fun _ m₄ (left : m₄ = _) => ?_
  rw [left]
  refine ensures_pure ?_
  rw [List.append_nil]
  exact done

/-- The shared scheduler, found free, is used under the mask and left free. -/
theorem ensures_withScheduler {f : Scheduler → Kernel (α × Scheduler)} {s : Scheduler}
    (free : m.scheduler = some ⟨s, false⟩)
    (h : Ensures (f s) { m with interrupts := false, scheduler := some ⟨s, true⟩ } admitted
      fun ks p m₁ => post (.schedulerUsed :: ks) p.1 { m₁ with
        scheduler := some ⟨p.2, false⟩, interrupts := m.interrupts || m₁.interrupts }) :
    Ensures (withScheduler f) m admitted post :=
  ensures_withLock .scheduler rfl free
    ⟨fun _ => rfl, fun _ => ⟨rfl, rfl⟩, nofun, nofun, nofun⟩ h

/-- The shared clock, found free, is used under the mask and left free. -/
theorem ensures_withClock {f : Clock → Kernel (α × Clock)} {c : Clock}
    (free : m.clock = some ⟨c, false⟩)
    (h : Ensures (f c) { m with interrupts := false, clock := some ⟨c, true⟩ } admitted
      fun ks p m₁ => post (.clockUsed :: ks) p.1 { m₁ with
        clock := some ⟨p.2, false⟩, interrupts := m.interrupts || m₁.interrupts }) :
    Ensures (withClock f) m admitted post :=
  ensures_withLock .clock rfl free
    ⟨fun _ => rfl, nofun, fun _ => ⟨rfl, rfl⟩, nofun, nofun⟩ h

/-! ## The log, memory and acknowledgements -/

/-- What only uses up the serial line and the memory, and leaves no mark. -/
def Spends (x : Kernel α) (m : Machine) : Prop :=
  Ensures x m m.Blocks fun ks _ m' => ks = [] ∧ m.Spent m'

theorem spends_pure (a : α) : Spends (pure a : Kernel α) m := ensures_pure ⟨rfl, .refl m⟩

theorem ensures_access (accesses : List PortAccess) (calm : m.Calm) :
    Ensures (access accesses) m admitted fun ks _ m' => ks = [] ∧ m' = m := by
  unfold access
  induction accesses with
  | nil => exact ensures_pure ⟨rfl, rfl⟩
  | cons a rest ih =>
    refine Ensures.bind_unmarked (Q := fun _ m₁ => m₁ = m) ?_ fun _ m₁ same => ?_
    · exact ensures_observe (calm.guarded rfl) ⟨rfl, rfl⟩
    · rw [same]
      exact ih

/-- What may stop and sees nothing. -/
theorem ensures_except {x : Except Stop α} (stopped : ∀ s, x = .error s → admitted s)
    (done : ∀ a, x = .ok a → post [] a m) :
    Ensures (liftM x : Kernel α) m admitted post := by
  cases x with
  | error s => exact ⟨fun _ ho => (by cases ho), stopped s rfl⟩
  | ok a => exact ⟨fun _ ho => (by cases ho), done a rfl⟩

/-- A run that is carried over: its observations are acted on, and then it ends as it ended. -/
theorem ensures_replay {act : ω → Kernel Unit} {run : Run ω α}
    {Q : List Event → Unit → Machine → Prop}
    (acts : Ensures (run.trace.forM act) m admitted Q)
    (stopped : ∀ s, run.outcome = .error s → admitted s)
    (done : ∀ a, run.outcome = .ok a → ∀ ks m₁, Q ks () m₁ → post ks a m₁) :
    Ensures (replay act run) m admitted post := by
  refine acts.bind fun ks _ m₁ between => ?_
  refine ensures_except stopped fun a value => ?_
  rw [List.append_nil]
  exact done a value ks m₁ between

/-- Printing leaves the lock of the line as it is, and stops only if it is held. -/
theorem ends_uart_print (u : Uart) (pieces : List String) :
    (u.print pieces).Ends (fun s => s = .lockNeverReleased ∧ u.locked = true)
      fun u' => u'.locked = u.locked := by
  cases hlocked : u.locked with
  | true =>
    unfold Uart.print
    rw [if_pos hlocked]
    exact ⟨rfl, rfl⟩
  | false =>
    obtain ⟨u', delivered⟩ := Uart.delivers_print u hlocked pieces
    exact Run.ends_of_ok delivered.done (delivered.locked.trans hlocked)

theorem spends_print (pieces : List String) : Spends (print pieces) m := by
  refine ensures_masked ?_
  refine Ensures.bind_unmarked (Q := fun a m₁ => a = _ ∧ m₁ = _) (ensures_get ⟨rfl, rfl, rfl⟩)
    fun _ _ here => ?_
  obtain ⟨rfl, rfl⟩ := here
  have printed := ends_uart_print m.uart pieces
  have off : Machine.Calm { m with interrupts := false } := Machine.calm_of_masked rfl
  refine Ensures.bind_unmarked
    (Q := fun u m₁ => u.locked = m.uart.locked ∧ m₁ = { m with interrupts := false })
    (ensures_replay (ensures_access _ off) (fun s stopped => ?_) fun u value ks m₁ same => ?_)
    fun u m₁ between => ?_
  · rw [Run.Ends, stopped] at printed
    exact .inr printed
  · exact ⟨same.1, printed.of_ok value, same.2⟩
  · obtain ⟨line, rfl⟩ := between
    exact ensures_modify ⟨rfl, rfl, rfl, Bool.or_false _, rfl, rfl, rfl, line, rfl⟩

theorem spends_log (record : Record) (calm : m.Calm) : Spends (log record) m := by
  refine Ensures.bind_unmarked (Q := fun a m₁ => a = m ∧ m₁ = m) (ensures_get ⟨rfl, rfl, rfl⟩)
    fun _ _ here => ?_
  obtain ⟨rfl, rfl⟩ := here
  dsimp only
  split
  · split
    · exact ensures_observe (calm.guarded rfl) ⟨rfl, .refl _⟩
    · exact spends_print _
    · exact spends_pure ()
    · exact spends_pure ()
  · exact spends_pure ()

theorem spends_note (severity : Severity) (source text : String) (calm : m.Calm) :
    Spends (note severity source text) m :=
  spends_log _ calm

theorem spends_provide (what : Need) : Spends (provide what) m := by
  refine Ensures.bind_unmarked (Q := fun a m₁ => a = m ∧ m₁ = m) (ensures_get ⟨rfl, rfl, rfl⟩)
    fun _ _ here => ?_
  obtain ⟨rfl, rfl⟩ := here
  split
  · exact spends_pure ()
  · rename_i memory limited
    split
    · exact ensures_modify ⟨rfl, rfl, rfl, rfl, rfl, rfl, rfl, rfl, by rw [limited]; rfl⟩
    · exact ensures_stop (.inl ⟨⟨_, rfl⟩, by rw [limited]; rfl⟩)

/-- What acknowledging has to be: it leaves the machine alone and its marks are `ms`. -/
def Acknowledges (ack : Kernel Unit) (ms : List Event) : Prop :=
  ∀ m : Machine, m.interrupts = false →
    Ensures ack m Stop.Never fun ks _ m' => ks = ms ∧ m' = m

/-- Where nothing is acknowledged to, no mark is left. -/
theorem acknowledges_nothing : Acknowledges (pure ()) [] :=
  fun _ _ => ensures_pure ⟨rfl, rfl⟩

/-- The marks that a list of effects leaves, if each acknowledgement leaves `ms`. -/
def marked (ms : List Event) (effects : List Effect) : List Event :=
  (List.replicate (Effect.acknowledgements effects) ms).flatten

theorem marked_cons (ms : List Event) (o : Effect) (rest : List Effect) :
    marked ms (o :: rest) = marked ms [o] ++ marked ms rest := by
  have added : Effect.acknowledgements (o :: rest) =
      Effect.acknowledgements [o] + Effect.acknowledgements rest :=
    @List.count_append _ _ _ [o] rest
  rw [marked, marked, marked, added, ← List.flatten_append, List.replicate_append_replicate]

/-- If each effect is acted on so that it spends only, and leaves the marks it should, then so
    does a list of them. -/
theorem ensures_forM {act : Effect → Kernel Unit} (ms : List Event)
    (acts : ∀ o (m : Machine), m.interrupts = false →
      Ensures (act o) m m.Blocks fun ks _ m' => ks = marked ms [o] ∧ m.Spent m') :
    ∀ (os : List Effect) (m : Machine), m.interrupts = false →
      Ensures (os.forM act) m m.Blocks fun ks _ m' => ks = marked ms os ∧ m.Spent m' := by
  intro os
  induction os with
  | nil => exact fun m _ => ensures_pure ⟨rfl, .refl m⟩
  | cons o rest ih =>
    intro m off
    refine (acts o m off).bind fun ks _ m₁ acted => ?_
    obtain ⟨rfl, spent⟩ := acted
    refine (ih m₁ (spent.interrupts.trans off)).mono (fun _ => spent.blocks) fun later _ m₂ h => ?_
    exact ⟨by rw [h.1, marked_cons ms o rest], spent.trans h.2⟩

/-- **What a run of the scheduler, the clock or the interrupt code lets be seen** uses up the
    serial line and the memory only, and its marks are its acknowledgements. -/
theorem ensures_carry {ack : Kernel Unit} {ms : List Event} (hack : Acknowledges ack ms)
    (run : Run Effect α) (off : m.interrupts = false) :
    Ensures (carry ack run) m (fun s => run.outcome = .error s ∨ m.Blocks s) fun ks a m' =>
      run.outcome = .ok a ∧ ks = marked ms run.trace ∧ m.Spent m' := by
  refine ensures_replay ((ensures_forM ms (fun o m off => ?_) run.trace m off).mono
    (fun _ => .inr) fun _ _ _ h => h) (fun s stopped => .inl stopped)
    fun a value ks m₁ done => ⟨value, done⟩
  cases o with
  | log record => exact spends_log record (Machine.calm_of_masked off)
  | need what => exact spends_provide what
  | acknowledge =>
    refine (hack m off).mono (fun _ never => never.elim) fun ks _ m' acked => ?_
    obtain ⟨rfl, rfl⟩ := acked
    exact ⟨(List.append_nil ks).symm, .refl _⟩

end Kernel

end PreemptiveKernel

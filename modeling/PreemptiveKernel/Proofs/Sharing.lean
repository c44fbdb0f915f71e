/-
  The shared operations are the operations of a scheduler and a clock of one's own.

  `Operation` lists what the kernel offers to its tasks and to the interrupts, `Operation.perform`
  does it on the shared scheduler and the shared clock, and `Operation.own` is what it comes to for
  somebody who has a scheduler and a clock to himself.  The main result
  (`Operation.shared_as_own`) is that the first is the second under a mask:

  1. the answer and the states afterwards are the same;
  2. on the way only guarded things are seen, so the flag is off whenever the shared state is used,
     an interrupt is acknowledged or the processor is passed on;
  3. the operation uses what it has to, once (`Operation.uses`), an interrupt is acknowledged once,
     and the processor is passed on exactly if the operation asks for it, after the acknowledgement
     and with both locks free;
  4. the flag is what it was, and both locks are free again.

  The operations differ in how they reach the shared state, and there are only four ways: through
  the scheduler, through the scheduler with a change of task, through the clock, and through both.
  Each way is `Faithful` once and for all (`faithful_useScheduler` and its companions), and what is
  written to the log afterwards keeps it so (`Faithful.followed`).
-/
import PreemptiveKernel.Dispatcher
import PreemptiveKernel.Proofs.Guarding

namespace PreemptiveKernel

/-! ## How often an interrupt is acknowledged -/

namespace Effect

variable {α β : Type} {n : Nat}

/-- A run that comes to a value has acknowledged the interrupt so many times. -/
def Acks (n : Nat) (x : Run Effect α) : Prop :=
  ∀ a, x.outcome = .ok a → acknowledgements x.trace = n

theorem acks_pure (a : α) : Acks 0 (pure a : Run Effect α) := fun _ _ => rfl

theorem acks_except (x : Except Stop α) : Acks 0 (Run.ofExcept x : Run Effect α) := fun _ _ => rfl

theorem acks_note (severity : Severity) (source text : String) :
    Acks 0 (note severity source text) := fun _ _ => rfl

theorem acks_ask (what : Need) : Acks 0 (ask what) := fun _ _ => rfl

/-- What acknowledges nothing may come first. -/
theorem Acks.bind {x : Run Effect α} {f : α → Run Effect β} (hx : Acks 0 x)
    (hf : ∀ a, Acks n (f a)) : Acks n (x >>= f) := by
  intro b h
  obtain ⟨a, ha, hb⟩ := Run.outcome_bind_eq_ok_iff.mp h
  rw [Run.bind_of_ok ha]
  show acknowledgements (x.trace ++ (f a).trace) = n
  rw [acknowledgements, List.count_append]
  exact (congr (congrArg HAdd.hAdd (hx a ha)) (hf a b hb)).trans (Nat.zero_add n)

/-- The acknowledgement, and nothing of the kind after it. -/
theorem acks_ack_bind {f : Unit → Run Effect β} (hf : Acks 0 (f ())) : Acks 1 (ack >>= f) := by
  intro b h
  obtain ⟨u, -, hb⟩ := Run.outcome_bind_eq_ok_iff.mp h
  show acknowledgements (.acknowledge :: (f ()).trace) = 1
  rw [acknowledgements, List.count_cons_self]
  exact congrArg (· + 1) (hf b hb)

end Effect

open Effect

/-- Waking a task acknowledges nothing. -/
theorem Scheduler.acks_wakeTask (s : Scheduler) (id : TaskId) : Acks 0 (s.wakeTask id none) := by
  unfold wakeTask
  split
  · exact acks_pure _
  · split
    · exact acks_pure _
    · exact (acks_ask _).bind fun _ => (acks_note _ _ _).bind fun _ => acks_pure _

theorem Scheduler.acks_send (s : Scheduler) (id : TaskId) (m : Message) :
    Acks 0 (s.send id m) := by
  unfold send
  split
  · exact acks_pure _
  · exact (acks_ask _).bind fun _ => acks_wakeTask _ _

theorem Scheduler.acks_switchTask (s : Scheduler) : Acks 0 s.switchTask :=
  (acks_except _).bind fun _ => (acks_except _).bind fun _ => acks_pure _

theorem Clock.acks_deliver (receiver : TaskId) (timeouts : List Timeout) (s : Scheduler) :
    Acks 0 (deliver receiver timeouts s) := by
  induction timeouts generalizing s with
  | nil => exact acks_pure _
  | cons t rest ih =>
    refine (s.acks_send _ _).bind fun sent => ?_
    dsimp only
    split
    · exact (acks_pure ()).bind fun _ => ih _
    · exact (acks_note _ _ _).bind fun _ => ih _

theorem Clock.acks_tick (c : Clock) (s : Scheduler) : Acks 0 (c.tick s) := by
  refine (acks_except _).bind fun now => (acks_deliver _ _ _).bind fun s => ?_
  dsimp only
  split
  · exact (acks_except _).bind fun _ => acks_pure _
  · exact acks_pure _

/-- **A timer interrupt is acknowledged once**, whether or not the quantum has ended. -/
theorem Interrupt.acks_onTimer (c : Clock) (s : Scheduler) : Acks 1 (onTimer c s) := by
  refine (c.acks_tick s).bind fun p => acks_ack_bind ?_
  dsimp only
  split
  · refine (Scheduler.acks_switchTask _).bind fun q => ?_
    split
    · exact (acks_note _ _ _).bind fun _ => acks_pure _
    · exact (acks_pure ()).bind fun _ => acks_pure _
  · exact acks_pure _

/-- **A device interrupt is acknowledged once**, even if its message cannot be delivered. -/
theorem Interrupt.acks_onDevice (s : Scheduler) (receiver : TaskId) (device : Device) :
    Acks 1 (onDevice s receiver device) := by
  refine (s.acks_send _ _).bind fun p => ?_
  dsimp only
  split
  · exact acks_ack_bind (acks_pure _)
  · exact (acks_note _ _ _).bind fun _ => acks_ack_bind (acks_pure _)

/-! ## The operations -/

namespace Kernel

/-- What the kernel offers to its tasks, and what the interrupts do. -/
inductive Operation
  /-- The turn of the current task ends. -/
  | switchTask
  /-- A task is put to sleep. -/
  | sleep (id : TaskId)
  /-- The current task is put to sleep. -/
  | sleepCurrent
  /-- A task is made ready. -/
  | wakeup (id : TaskId) (level : Option Nat)
  /-- A task gets another level. -/
  | changeLevel (id : TaskId) (level : Nat)
  /-- A task is created that is ready to begin. -/
  | newTask (entry : EntryPoint) (data : Int64) (level : Nat)
  /-- The current task is asked for. -/
  | currentTask
  /-- A message is sent. -/
  | send (id : TaskId) (m : Message)
  /-- The current task takes its oldest message, if there is one. -/
  | receive
  /-- One round of waiting for a message. -/
  | waitStep
  /-- A timeout is set. -/
  | addTimer (due : Nat) (value : Int32)
  /-- The end of the quantum is set. -/
  | armQuantum
  /-- The number of ticks is asked for. -/
  | currentTick
  /-- The timer interrupts.  It is acknowledged by these writes to ports. -/
  | timerInterrupt (commands : List (UInt16 × UInt8))
  /-- A device interrupts.  It is acknowledged by these writes to ports. -/
  | deviceInterrupt (device : Device) (commands : List (UInt16 × UInt8))

/-- Acknowledging an interrupt: that it happens can be seen, and so can the writes. -/
def acknowledge (commands : List (UInt16 × UInt8)) : Kernel Unit := do
  observe .acknowledged
  access (PortAccess.writes commands)

namespace Operation

/-- The type of what an operation answers. -/
@[reducible] def Result : Operation → Type
  | switchTask => Unit
  | sleep _ => Answer Unit
  | sleepCurrent => Unit
  | wakeup _ _ => Answer Unit
  | changeLevel _ _ => Answer Unit
  | newTask _ _ _ => Answer TaskId
  | currentTask => TaskId
  | send _ _ => Answer Unit
  | receive => Option Message
  | waitStep => Option Message
  | addTimer _ _ => Unit
  | armQuantum => Unit
  | currentTick => Nat
  | timerInterrupt _ => Unit
  | deviceInterrupt _ _ => Unit

/-- Does the operation on the shared scheduler and the shared clock. -/
def perform : (op : Operation) → Kernel op.Result
  | switchTask => Kernel.switchTask
  | sleep id => Kernel.sleep id
  | sleepCurrent => Kernel.sleepCurrent
  | wakeup id level => Kernel.wakeup id level
  | changeLevel id level => Kernel.changeLevel id level
  | newTask entry data level => Kernel.newTask entry data level
  | currentTask => Kernel.currentTaskId
  | send id m => Kernel.send id m
  | receive => Kernel.receive
  | waitStep => Kernel.waitStep
  | addTimer due value => Kernel.addTimer due value
  | armQuantum => Kernel.armQuantum
  | currentTick => Kernel.currentTick
  | timerInterrupt commands => Kernel.timerInterrupt (acknowledge commands)
  | deviceInterrupt device commands => Kernel.deviceInterrupt device (acknowledge commands)

/-- Does the operation for somebody who has the scheduler and the clock to himself: gives the
    answer, the change of task that is to be carried out, and the two afterwards.  A new task gets
    its stack from `allocate`, and its page tables are rooted at `cr3`. -/
def own (allocate : StackAllocator) (cr3 : UInt64) (d : Dispatcher) :
    (op : Operation) → Run Effect (op.Result × Option Handoff × Dispatcher)
  | switchTask => do
    let (change, s) ← d.scheduler.switchTask
    return ((), change, d.withScheduler s)
  | sleep id => do
    match ← d.scheduler.sleep id with
    | (.ok change, s) => return (.ok (), change, d.withScheduler s)
    | (.error e, s) => return (.error e, none, d.withScheduler s)
  | sleepCurrent => do
    let id ← d.scheduler.currentId
    match ← d.scheduler.sleep id with
    | (.ok change, s) => return ((), change, d.withScheduler s)
    | (.error _, s) => return ((), none, d.withScheduler s)
  | wakeup id level => do
    let (answer, s) ← d.scheduler.wakeup id level
    return (answer, none, d.withScheduler s)
  | changeLevel id level => do
    let (answer, s) ← d.scheduler.changeLevel id level
    return (answer, none, d.withScheduler s)
  | newTask entry data level => do
    let (answer, s) ← d.scheduler.spawn entry data level allocate cr3
    return (answer, none, d.withScheduler s)
  | currentTask => do
    let id ← d.scheduler.currentId
    return (id, none, d)
  | send id m => do
    let (answer, s) ← d.scheduler.send id m
    return (answer, none, d.withScheduler s)
  | receive => do
    let (m, s) ← d.scheduler.receiveCurrent
    return (m, none, d.withScheduler s)
  | waitStep => do
    let (m, change, s) ← d.scheduler.waitStep
    return (m, change, d.withScheduler s)
  | addTimer due value => do
    let c ← d.clock.addTimer due value
    return ((), none, { d with clock := c })
  | armQuantum => do
    let c ← d.clock.arm
    return ((), none, { d with clock := c })
  | currentTick => return (d.clock.now, none, d)
  | timerInterrupt _ => do
    let (change, c, s) ← Interrupt.onTimer d.clock d.scheduler
    return ((), change, ⟨s, c⟩)
  | deviceInterrupt device _ => do
    let s ← Interrupt.onDevice d.scheduler d.scheduler.config.receiver device
    return ((), none, d.withScheduler s)

/-- Where a new task gets its stack from on the machine. -/
def allocator (m : Machine) (d : Dispatcher) : Operation → StackAllocator
  | newTask entry data level =>
    m.stacksFor fun allocate => d.scheduler.spawn entry data level allocate m.cr3
  | _ => .heap

/-- What an operation uses of the shared state, in order: the scheduler, or the clock, or the clock
    and under its lock the scheduler. -/
def uses : Operation → List Event
  | addTimer _ _ | armQuantum | currentTick => [.clockUsed]
  | timerInterrupt _ => [.clockUsed, .schedulerUsed]
  | _ => [.schedulerUsed]

/-- The acknowledgements of an operation: one for an interrupt. -/
def acknowledgements : Operation → List Event
  | timerInterrupt _ => [.acknowledged]
  | deviceInterrupt _ _ => [.acknowledged]
  | _ => []

end Operation

/-! ## The ways to the shared state -/

/-- The machine shares this scheduler and this clock, and nobody holds their locks. -/
structure Shares (m : Machine) (d : Dispatcher) : Prop where
  scheduler : m.scheduler = some ⟨d.scheduler, false⟩
  clock : m.clock = some ⟨d.clock, false⟩

/-- The machine `m` has come to share `d`.  Beside that at most the answers of the serial line and
    the memory have been used up. -/
structure Became (m : Machine) (d : Dispatcher) (m' : Machine) : Prop extends Shares m' d where
  interrupts : m'.interrupts = m.interrupts
  cr3 : m'.cr3 = m.cr3
  logger : m'.logger = m.logger
  keyboard : m'.keyboard = m.keyboard
  line : m'.uart.locked = m.uart.locked
  limited : m'.memory.isSome = m.memory.isSome

variable {α β : Type} {m m₁ m₂ : Machine} {d d' : Dispatcher}

/-- A machine that shares the two and has done nothing else yet. -/
def sharing (d : Dispatcher) : Machine :=
  { Machine.initial .absent with
    scheduler := some ⟨d.scheduler, false⟩, clock := some ⟨d.clock, false⟩ }

theorem shares_sharing (d : Dispatcher) : Shares (sharing d) d := ⟨rfl, rfl⟩

theorem Shares.free (h : Shares m d) : m.schedulerHeld = false ∧ m.clockHeld = false := by
  unfold Machine.schedulerHeld Machine.clockHeld
  rw [h.scheduler, h.clock]
  exact ⟨rfl, rfl⟩

theorem Shares.calm (h : Shares m d) : m.Calm := by
  rintro (held | held)
  · rw [h.free.1] at held
    cases held
  · rw [h.free.2] at held
    cases held

theorem Became.spent (h : Became m d m₁) (later : m₁.Spent m₂) : Became m d m₂ where
  scheduler := later.scheduler.trans h.scheduler
  clock := later.clock.trans h.clock
  interrupts := later.interrupts.trans h.interrupts
  cr3 := later.cr3.trans h.cr3
  logger := later.logger.trans h.logger
  keyboard := later.keyboard.trans h.keyboard
  line := later.line.trans h.line
  limited := later.limited.trans h.limited

theorem Became.blocks {s : Stop} (h : Became m d m₁) (blocked : m₁.Blocks s) : m.Blocks s := by
  rw [Machine.Blocks, h.limited, h.line] at blocked
  exact blocked

/-- **Faithful**: on a machine that shares `d` the computation comes to what `own` comes to, and
    shares afterwards what `own` leaves behind.  Its marks are `before`, the uses and the
    acknowledgements, and then the change of task that `own` asks for.  It stops only where `own`
    does, or where the machine blocks. -/
def Faithful (x : Kernel α) (m : Machine) (before : List Event)
    (own : Run Effect (α × Option Handoff × Dispatcher)) : Prop :=
  Ensures x m (fun s => own.outcome = .error s ∨ m.Blocks s) fun ks a m' =>
    ∃ change d', own.outcome = .ok (a, change, d') ∧ Became m d' m' ∧
      ks = before ++ (change.map Event.switched).toList

/-- Only how `own` ends matters. -/
theorem Faithful.congr {x : Kernel α} {before : List Event}
    {own own' : Run Effect (α × Option Handoff × Dispatcher)} (h : Faithful x m before own)
    (same : own.outcome = own'.outcome) : Faithful x m before own' := by
  unfold Faithful at h ⊢
  rw [← same]
  exact h

/-- Where the first of two runs stops the whole stops. -/
theorem stops_bind {β : Type} {x : Run Effect α} {f : α → Run Effect β} {s : Stop} {P : Prop}
    (h : x.outcome = .error s ∨ P) : (x >>= f).outcome = .error s ∨ P := by
  refine h.imp_left fun stopped => ?_
  rw [Run.outcome_bind, stopped]
  rfl

/-- The scheduler is used, and what is done with it comes to what `r` comes to. -/
theorem faithful_withScheduler (shares : Shares m d) {k : List Event}
    {f : Scheduler → Kernel (α × Scheduler)} {r : Run Effect (α × Scheduler)}
    (h : Ensures (f d.scheduler)
      { m with interrupts := false, scheduler := some ⟨d.scheduler, true⟩ }
      (fun s => r.outcome = .error s ∨ m.Blocks s) fun ks p m₁ =>
        r.outcome = .ok p ∧ ks = k ∧
          Machine.Spent { m with interrupts := false, scheduler := some ⟨d.scheduler, true⟩ } m₁) :
    Faithful (withScheduler f) m (.schedulerUsed :: k) (do
      let (a, s) ← r
      return (a, none, d.withScheduler s)) := by
  refine ensures_withScheduler shares.scheduler (h.mono (fun s => stops_bind) fun ks p m₁ => ?_)
  rintro ⟨value, rfl, spent⟩
  refine ⟨none, d.withScheduler p.2, ?_, ?_, (List.append_nil _).symm⟩
  · rw [Run.outcome_bind, value]
    rfl
  · exact
      { scheduler := rfl
        clock := spent.clock.trans shares.clock
        interrupts := by rw [spent.interrupts, Bool.or_false]
        cr3 := spent.cr3
        logger := spent.logger
        keyboard := spent.keyboard
        line := spent.line
        limited := spent.limited }

/-- Nothing is marked by what acknowledges nothing. -/
theorem ensures_carry_unmarked (run : Run Effect α) (off : m.interrupts = false) :
    Ensures (carry (pure ()) run) m (fun s => run.outcome = .error s ∨ m.Blocks s)
      fun ks a m' => run.outcome = .ok a ∧ ks = [] ∧ m.Spent m' :=
  (ensures_carry acknowledges_nothing run off).mono (fun _ h => h) fun _ _ _ h =>
    ⟨h.1, h.2.1.trans List.flatten_replicate_nil, h.2.2⟩

/-- The scheduler is used for one of its operations. -/
theorem faithful_useScheduler (shares : Shares m d)
    (f : Scheduler → Run Effect (α × Scheduler)) :
    Faithful (useScheduler f) m [.schedulerUsed] (do
      let (a, s) ← f d.scheduler
      return (a, none, d.withScheduler s)) :=
  faithful_withScheduler shares (ensures_carry_unmarked (f d.scheduler) rfl)

/-- The clock is used for one of its operations. -/
theorem faithful_useClock (shares : Shares m d) (f : Clock → Run Effect (α × Clock)) :
    Faithful (useClock f) m [.clockUsed] (do
      let (a, c) ← f d.clock
      return (a, none, { d with clock := c })) := by
  refine ensures_withClock shares.clock ?_
  refine (ensures_carry_unmarked (f d.clock) rfl).mono (fun s => stops_bind) fun ks p m₁ => ?_
  rintro ⟨value, rfl, spent⟩
  refine ⟨none, { d with clock := p.2 }, ?_, ?_, rfl⟩
  · rw [Run.outcome_bind, value]
    rfl
  · exact
      { scheduler := spent.scheduler.trans shares.scheduler
        clock := rfl
        interrupts := by rw [spent.interrupts, Bool.or_false]
        cr3 := spent.cr3
        logger := spent.logger
        keyboard := spent.keyboard
        line := spent.line
        limited := spent.limited }

/-- The end of masked work gives the flag back. -/
theorem Became.unmasked (h : Became { m with interrupts := false } d m₁) :
    Became m d { m₁ with interrupts := m.interrupts || m₁.interrupts } where
  scheduler := h.scheduler
  clock := h.clock
  interrupts := by rw [h.interrupts, Bool.or_false]
  cr3 := h.cr3
  logger := h.logger
  keyboard := h.keyboard
  line := h.line
  limited := h.limited

/-- Masking keeps a computation faithful. -/
theorem Faithful.masked {x : Kernel α} {before : List Event}
    {own : Run Effect (α × Option Handoff × Dispatcher)}
    (h : Faithful x { m with interrupts := false } before own) : Faithful (masked x) m before own :=
  ensures_masked (Ensures.mono h (fun _ h => h) fun _ _ _ h => by
    obtain ⟨change, d', value, became, marked⟩ := h
    exact ⟨change, d', value, became.unmasked, marked⟩)

/-- The processor is passed on under the mask and with free locks. -/
theorem ensures_passOn {admitted : Stop → Prop} (change : Option Handoff) (shares : Shares m d)
    (off : m.interrupts = false) :
    Ensures (passOn change) m admitted fun ks _ m' =>
      ks = (change.map Event.switched).toList ∧ m' = m := by
  cases change with
  | none => exact ensures_pure ⟨rfl, rfl⟩
  | some change =>
    refine ensures_observe ?_ ⟨rfl, rfl⟩
    exact ⟨shares.calm, nofun, nofun, nofun, fun _ _ => ⟨off, shares.free⟩⟩

/-- The scheduler is used for an operation that may change the current task. -/
theorem faithful_switchWith (shares : Shares m d)
    (f : Scheduler → Run Effect (α × Option Handoff × Scheduler)) :
    Faithful (switchWith f) m [.schedulerUsed] (do
      let (a, change, s) ← f d.scheduler
      return (a, change, d.withScheduler s)) := by
  have masked : Shares { m with interrupts := false } d := ⟨shares.scheduler, shares.clock⟩
  refine ensures_masked ?_
  refine Ensures.bind (Q := fun ks p m₁ => ∃ d', (do
      let (a, change, s) ← f d.scheduler
      return (a, change, d.withScheduler s) : Run Effect (α × Option Handoff × Dispatcher)).outcome
        = .ok (p.1, p.2, d') ∧ Became { m with interrupts := false } d' m₁ ∧ ks = [.schedulerUsed])
    ((faithful_useScheduler masked _).mono ?_ ?_) fun ks p m₁ used => ?_
  · -- where the whole stops the operation has stopped
    rintro s (stopped | blocked)
    · refine .inl ?_
      rw [Run.outcome_bind] at stopped ⊢
      cases value : (f d.scheduler).outcome with
      | ok a => rw [Run.outcome_bind, value] at stopped; cases stopped
      | error s' => rw [Run.outcome_bind, value] at stopped; cases stopped; rfl
    · exact .inr blocked
  · rintro ks p m₁ ⟨_, d', used, became, quiet⟩
    obtain ⟨⟨p', s⟩, paired, rest⟩ := Run.outcome_bind_eq_ok_iff.mp used
    obtain ⟨⟨a, change, s'⟩, value, pair⟩ := Run.outcome_bind_eq_ok_iff.mp paired
    cases pair
    cases rest
    refine ⟨d.withScheduler s, ?_, became, quiet⟩
    rw [Run.outcome_bind, value]
    rfl
  · obtain ⟨d', value, became, rfl⟩ := used
    refine (ensures_passOn p.2 became.toShares became.interrupts).bind fun ks _ m₂ passed => ?_
    obtain ⟨rfl, rfl⟩ := passed
    refine ensures_pure ⟨p.2, d', value, became.unmasked, ?_⟩
    rw [List.append_nil]

/-- Writing to the log afterwards, and handing the answer on, keeps a computation faithful. -/
theorem Faithful.followed {x : Kernel α} {f : α → Kernel α} {before : List Event}
    {own : Run Effect (α × Option Handoff × Dispatcher)} (hx : Faithful x m before own)
    (hf : ∀ a (m₁ : Machine), m₁.Calm →
      Ensures (f a) m₁ m₁.Blocks fun ks b m₂ => ks = [] ∧ b = a ∧ m₁.Spent m₂) :
    Faithful (x >>= f) m before own := by
  refine Ensures.bind hx fun ks a m₁ done => ?_
  obtain ⟨change, d', value, became, rfl⟩ := done
  refine (hf a m₁ became.calm).mono (fun s blocked => .inr (became.blocks blocked)) ?_
  rintro later b m₂ ⟨rfl, rfl, spent⟩
  exact ⟨change, d', value, became.spent spent, List.append_nil _⟩

theorem spends_warnIfRefused {γ : Type} (text : KernelError → String) (answer : Answer γ)
    (calm : m.Calm) : Spends (warnIfRefused text answer) m := by
  cases answer with
  | ok a => exact spends_pure ()
  | error e => exact spends_note _ _ _ calm

/-- A refusal is written to the log and handed on. -/
theorem ensures_warned {γ : Type} (text : KernelError → String) (answer : Answer γ)
    (calm : m.Calm) :
    Ensures (do warnIfRefused text answer; return answer) m m.Blocks
      fun ks b m' => ks = [] ∧ b = answer ∧ m.Spent m' :=
  Ensures.bind_unmarked (spends_warnIfRefused text answer calm) fun _ _ spent =>
    ensures_pure ⟨rfl, rfl, spent⟩

theorem acknowledges_acknowledge (commands : List (UInt16 × UInt8)) :
    Acknowledges (acknowledge commands) [.acknowledged] := by
  intro m off
  have calm := Machine.calm_of_masked off
  refine Ensures.bind (Q := fun ks _ m₁ => ks = [.acknowledged] ∧ m₁ = m)
    (ensures_observe ⟨calm, nofun, nofun, fun _ => off, nofun⟩ ⟨rfl, rfl⟩)
    fun ks _ m₁ seen => ?_
  obtain ⟨rfl, rfl⟩ := seen
  exact (ensures_access _ calm).mono (fun _ h => h) fun ks _ m₂ done => by
    rw [done.1]
    exact ⟨rfl, done.2⟩

/-- What a run that acknowledges once does when it is carried over. -/
theorem ensures_carry_once {run : Run Effect α} (once : Acks 1 run)
    (commands : List (UInt16 × UInt8)) (off : m.interrupts = false) :
    Ensures (carry (acknowledge commands) run) m
      (fun s => run.outcome = .error s ∨ m.Blocks s) fun ks a m' =>
        run.outcome = .ok a ∧ ks = [.acknowledged] ∧ m.Spent m' := by
  refine (ensures_carry (acknowledges_acknowledge commands) run off).mono (fun _ h => h) ?_
  rintro ks a m' ⟨value, rfl, spent⟩
  exact ⟨value, by rw [marked, once a value]; rfl, spent⟩

/-- **A timer interrupt** uses both, is acknowledged, and then passes the processor on. -/
theorem faithful_timerInterrupt (shares : Shares m d) (commands : List (UInt16 × UInt8)) :
    Faithful (timerInterrupt (acknowledge commands)) m [.clockUsed, .schedulerUsed, .acknowledged]
      (do
      let (change, c, s) ← Interrupt.onTimer d.clock d.scheduler
      return ((), change, ⟨s, c⟩)) := by
  refine ensures_masked ?_
  refine Ensures.bind (Q := fun ks change m₁ => ∃ c s,
      (Interrupt.onTimer d.clock d.scheduler).outcome = .ok (change, c, s) ∧
        Became { m with interrupts := false } ⟨s, c⟩ m₁ ∧
          ks = [.clockUsed, .schedulerUsed, .acknowledged])
    ?_ fun ks change m₁ served => ?_
  · refine ensures_withClock shares.clock (ensures_withScheduler shares.scheduler ?_)
    have carried := ensures_carry_once (Interrupt.acks_onTimer d.clock d.scheduler) commands
      (m := { m with
        interrupts := false
        clock := some ⟨d.clock, true⟩
        scheduler := some ⟨d.scheduler, true⟩ }) rfl
    refine Ensures.bind (carried.mono (fun s => stops_bind) fun _ _ _ h => h)
      fun ks p m₁ (done : _ ∧ _ ∧ _) => ?_
    obtain ⟨change, c, s⟩ := p
    obtain ⟨value, rfl, spent⟩ := done
    refine ensures_pure ⟨c, s, value, ?_, rfl⟩
    exact
      { scheduler := rfl
        clock := rfl
        interrupts := spent.interrupts
        cr3 := spent.cr3
        logger := spent.logger
        keyboard := spent.keyboard
        line := spent.line
        limited := spent.limited }
  · obtain ⟨c, s, value, became, rfl⟩ := served
    refine (ensures_passOn change became.toShares became.interrupts).mono (fun _ h => h) ?_
    rintro later u m₂ ⟨rfl, rfl⟩
    refine ⟨change, ⟨s, c⟩, ?_, became.unmasked, rfl⟩
    rw [Run.outcome_bind, value]
    rfl

/-- **A device interrupt** uses the scheduler and is acknowledged. -/
theorem faithful_deviceInterrupt (shares : Shares m d) (device : Device)
    (commands : List (UInt16 × UInt8)) :
    Faithful (deviceInterrupt device (acknowledge commands)) m [.schedulerUsed, .acknowledged] (do
      let s ← Interrupt.onDevice d.scheduler d.scheduler.config.receiver device
      return ((), none, d.withScheduler s)) := by
  have masked : Shares { m with interrupts := false } d := ⟨shares.scheduler, shares.clock⟩
  have used := faithful_withScheduler masked (k := [.acknowledged]) (f := fun s => do
      let s ← carry (acknowledge commands) (Interrupt.onDevice s s.config.receiver device)
      return ((), s))
    (r := do
      let s ← Interrupt.onDevice d.scheduler d.scheduler.config.receiver device
      return ((), s)) ?_
  · refine Faithful.masked (used.congr ?_)
    rcases Interrupt.onDevice d.scheduler d.scheduler.config.receiver device with
      ⟨trace, stop | s⟩ <;> rfl
  · refine Ensures.bind ((ensures_carry_once (Interrupt.acks_onDevice _ _ _) commands rfl).mono
      (fun s => stops_bind) fun _ _ _ h => h) fun ks s m₁ done => ?_
    obtain ⟨value, rfl, spent⟩ := done
    refine ensures_pure ⟨?_, rfl, spent⟩
    rw [Run.outcome_bind, value]
    rfl

/-! ## The main result -/

namespace Operation

/-- Every operation is faithful. -/
theorem faithful (op : Operation) (shares : Shares m d) :
    Faithful op.perform m (op.uses ++ op.acknowledgements)
      (op.own (op.allocator m d) m.cr3 d) := by
  cases op with
  | switchTask =>
    have used := faithful_switchWith shares fun s => do
      let (change, s) ← s.switchTask
      return ((), change, s)
    refine used.congr ?_
    dsimp only [own]
    rcases d.scheduler.switchTask with ⟨trace, stop | ⟨change, s⟩⟩ <;> rfl
  | sleep id =>
    have used := faithful_switchWith (α := Answer Unit) shares fun s => do
      match ← s.sleep id with
      | (.ok change, s) => return (.ok (), change, s)
      | (.error e, s) => return (.error e, none, s)
    refine Faithful.followed (used.congr ?_) fun answer m₁ => ensures_warned _ answer
    dsimp only [own]
    rcases d.scheduler.sleep id with ⟨trace, stop | ⟨e | change, s⟩⟩ <;> rfl
  | sleepCurrent =>
    have used := faithful_switchWith shares fun s => do
      let id ← s.currentId
      match ← s.sleep id with
      | (.ok change, s) => return ((), change, s)
      | (.error _, s) => return ((), none, s)
    refine used.congr ?_
    dsimp only [own]
    rcases d.scheduler.currentId with stop | id
    · rfl
    · rw [show (liftM (Except.ok id : Except Stop TaskId) : Run Effect TaskId) = pure id from rfl,
        pure_bind, pure_bind]
      rcases d.scheduler.sleep id with ⟨trace, stop | ⟨e | change, s⟩⟩ <;> rfl
  | wakeup id level =>
    have used := faithful_useScheduler shares fun s => s.wakeup id level
    exact used.followed fun answer m₁ => ensures_warned _ answer
  | changeLevel id level =>
    have used := faithful_useScheduler shares fun s => s.changeLevel id level
    exact used.followed fun answer m₁ => ensures_warned _ answer
  | newTask entry data level =>
    -- the stack comes from where the machine stands when the lock is held
    have used := faithful_withScheduler shares (f := fun s => do
        let m ← get
        let spawn := fun allocator => s.spawn entry data level allocator m.cr3
        carry (pure ()) (spawn (m.stacksFor spawn)))
      (Ensures.bind_unmarked
        (Q := fun m₁ m₂ => m₁ = { m with
          interrupts := false, scheduler := some ⟨d.scheduler, true⟩ } ∧ m₂ = m₁)
        (ensures_get ⟨rfl, rfl, rfl⟩) fun m₁ m₂ here => by
          obtain ⟨rfl, rfl⟩ := here
          exact ensures_carry_unmarked _ rfl)
    refine used.followed fun answer m₁ calm => ?_
    refine Ensures.bind_unmarked (spends_warnIfRefused _ answer calm) fun _ m₂ warned => ?_
    cases answer with
    | error e => exact ensures_pure ⟨rfl, rfl, warned⟩
    | ok id =>
      have noted := spends_note .info Source.sharedScheduler
        s!"sched: task {id} started at level {level}" (warned.calm calm)
      exact Ensures.bind_unmarked (Ensures.mono noted (fun _ => warned.blocks) fun _ _ _ h => h)
        fun _ m₃ spent => ensures_pure ⟨rfl, rfl, warned.trans spent⟩
  | currentTask =>
    have used := faithful_useScheduler shares fun s => do
      let id ← s.currentId
      return (id, s)
    refine used.congr ?_
    dsimp only [own]
    rcases d.scheduler.currentId with stop | id <;> rfl
  | send id message =>
    have used := faithful_useScheduler shares fun s => s.send id message
    exact used.followed fun answer m₁ => ensures_warned _ answer
  | receive =>
    have used := faithful_useScheduler shares fun s => do
      let (m, s) ← s.receiveCurrent
      return (m, s)
    refine used.congr ?_
    dsimp only [own]
    rcases d.scheduler.receiveCurrent with stop | ⟨message, s⟩ <;> rfl
  | waitStep => exact faithful_switchWith shares fun s => s.waitStep
  | addTimer due value =>
    have used := faithful_useClock shares fun c => do
      let c ← c.addTimer due value
      Effect.ask (.row .alarms c.alarms.length)
      return ((), c)
    refine used.congr ?_
    dsimp only [own]
    rcases d.clock.addTimer due value with stop | c <;> rfl
  | armQuantum =>
    have used := faithful_useClock shares fun c => do
      let c ← c.arm
      Effect.ask (.row .alarms c.alarms.length)
      return ((), c)
    refine used.congr ?_
    dsimp only [own]
    rcases d.clock.arm with ⟨trace, stop | c⟩ <;> rfl
  | currentTick => exact faithful_useClock shares fun c => return (c.now, c)
  | timerInterrupt commands => exact faithful_timerInterrupt shares commands
  | deviceInterrupt device commands => exact faithful_deviceInterrupt shares device commands

/-- **The shared operations are the manager's operations under a mask.**  On a machine that shares
    the scheduler and the clock `d`, whatever they are and whether or not interrupts are masked,

    1. only guarded things are seen;
    2. an operation that comes to an answer comes to the one, and leaves the scheduler and the
       clock, that it comes to for `d` alone; both locks are free and the flag is what it was; and
       it has used the scheduler or the clock or both, then an interrupt has been acknowledged once,
       and then the processor has been passed on, if it has;
    3. it stops only where the operation for `d` alone stops, or for want of room or of the serial
       line;
    4. and where neither can be wanting, the operation stops and answers exactly as for `d`
       alone. -/
theorem shared_as_own (op : Operation) {m : Machine} {d : Dispatcher} (shares : Shares m d) :
    (∀ o ∈ (op.perform m).trace, o.Guarded) ∧
    (∀ a m', (op.perform m).outcome = .ok (a, m') →
      ∃ change d', (op.own (op.allocator m d) m.cr3 d).outcome = .ok (a, change, d') ∧
        Shares m' d' ∧ m'.interrupts = m.interrupts ∧
        marks (op.perform m).trace =
          op.uses ++ op.acknowledgements ++ (change.map Event.switched).toList) ∧
    (∀ stop, (op.perform m).outcome = .error stop →
      (op.own (op.allocator m d) m.cr3 d).outcome = .error stop ∨ m.Blocks stop) ∧
    (m.memory = none → m.uart.locked = false →
      (op.perform m).outcome.map Prod.fst =
        (op.own (op.allocator m d) m.cr3 d).outcome.map Prod.fst) := by
  obtain ⟨guarded, ends⟩ := op.faithful shares
  have answers : ∀ a m', (op.perform m).outcome = .ok (a, m') →
      ∃ change d', (op.own (op.allocator m d) m.cr3 d).outcome = .ok (a, change, d') ∧
        Became m d' m' ∧ marks (op.perform m).trace =
          op.uses ++ op.acknowledgements ++ (change.map Event.switched).toList :=
    fun a m' done => ends.of_ok done
  have stops : ∀ stop, (op.perform m).outcome = .error stop →
      (op.own (op.allocator m d) m.cr3 d).outcome = .error stop ∨ m.Blocks stop := by
    intro stop stopped
    rwa [Run.Ends, stopped] at ends
  refine ⟨guarded, fun a m' done => ?_, stops, fun unlimited free => ?_⟩
  · obtain ⟨change, d', value, became, marked⟩ := answers a m' done
    exact ⟨change, d', value, became.toShares, became.interrupts, marked⟩
  · rcases done : (op.perform m).outcome with stop | ⟨a, m'⟩
    · rw [(stops stop done).resolve_right (Machine.not_blocks unlimited free)]
      rfl
    · obtain ⟨change, d', value, -⟩ := answers a m' done
      rw [value]
      rfl

/-- A timer interrupt at the end of a quantum, with interrupts let through: the clock and the
    scheduler are used, it is acknowledged, then the processor passes from the main task to another
    one, and interrupts are let through again. -/
theorem shared_as_own_at_quantum_end : ∃ m d m', Shares m d ∧ m.interrupts = true ∧
    ((timerInterrupt [(0x20, 0x20)]).perform m).outcome = .ok ((), m') ∧ m'.interrupts = true ∧
    marks ((timerInterrupt [(0x20, 0x20)]).perform m).trace =
      [.clockUsed, .schedulerUsed, .acknowledged, .switched ⟨⟨1⟩, ⟨3⟩⟩] := by
  obtain ⟨s, responses, d, -, -, expired⟩ : ∃ s responses d,
      (Scheduler.create .standard .heap).outcome = .ok (.ok s) ∧
      (Dispatcher.performAll ⟨s, .create .standard⟩
        [.spawn .idle 0 3 .heap, .arm, .timerInterrupt]).outcome = .ok (responses, d) ∧
      ((timerInterrupt [(0x20, 0x20)]).own .heap addressSpace d).Ends Stop.Never
        fun p => p.2.1 = some ⟨⟨1⟩, ⟨3⟩⟩ :=
    ⟨_, _, _, rfl, rfl, by decide +kernel⟩
  obtain ⟨⟨u, change, d'⟩, value, handed⟩ := Run.ends_never_iff.mp expired
  obtain ⟨m, shares, on, unlimited, free⟩ : ∃ m : Machine, Shares m d ∧ m.interrupts = true ∧
      m.memory = none ∧ m.uart.locked = false :=
    ⟨sharing d, shares_sharing d, rfl, rfl, rfl⟩
  have value : (own (allocator m d (timerInterrupt [(0x20, 0x20)])) m.cr3 d _).outcome =
    .ok (u, change, d') := value
  obtain ⟨-, answers, -, same⟩ := shared_as_own (timerInterrupt [(0x20, 0x20)]) shares
  have answered := same unlimited free
  rw [value] at answered
  cases done : ((timerInterrupt [(0x20, 0x20)]).perform m).outcome with
  | error stop => rw [done] at answered; cases answered
  | ok p =>
    obtain ⟨change', d'', value', -, flag, marked⟩ := answers p.1 p.2 done
    cases value.symm.trans value'
    have handed : change = some ⟨⟨1⟩, ⟨3⟩⟩ := handed
    rw [handed] at marked
    exact ⟨m, d, p.2, shares, on, done, flag.trans on, marked⟩

end Operation

end Kernel

end PreemptiveKernel

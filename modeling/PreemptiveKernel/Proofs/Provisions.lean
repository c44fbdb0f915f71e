/-
  What a run needs so that nothing stops it.

  An operation of a sound scheduler stops for want of machine words only.  So a run goes through
  if three things last: the numbers for tasks, the numbers for alarms, and the ticks.  A fourth
  thing is asked of the allocators: that a stack which they hand out holds two words and lies in
  memory.  `Dispatcher.Provides` says that all of it lasts for a list of requests.

  The stock shrinks by at most one with every request that draws on it (`Provides.rest`), because
  a request enrolls at most one task and adds at most one alarm.  So a run is served request by
  request, by induction, with the stock as the measure (`performAll_of_provides`).

  With the stock exhausted, arithmetic is still all that can stop a run.  The queues never
  contradict the task table and the current level is never without a current task, whatever is
  asked, in whatever order, of whichever task (`never_contradicts`).
-/
import PreemptiveKernel.Proofs.Alarms
import PreemptiveKernel.Proofs.ReadyQueues

namespace PreemptiveKernel

open Run Scheduler

/-! ## Stacks -/

/-- A task can begin on the stack: it starts at a word boundary, holds at least two words, and
    lies in memory with its end. -/
structure Stack.Usable (stack : Stack) : Prop where
  aligned : stack.base % 8 = 0
  roomy : 2 ≤ stack.words
  placed : stack.base + stack.bytes < Word.bound

/-- The stacks that the allocator hands out can be begun on.  It may refuse as it likes. -/
def StackAllocator.Fit (allocate : StackAllocator) : Prop :=
  ∀ bytes stack, allocate bytes = .ok stack → stack.Usable

/-- **Two words are enough**: wherever the stack starts, rounding down to a multiple of sixteen
    and stepping back by one word stays on it. -/
theorem Task.firstStackPointer_of_usable {stack : Stack} (h : stack.Usable) :
    ∃ rsp, Task.firstStackPointer stack = .ok rsp ∧ stack.base ≤ rsp ∧
      rsp < stack.base + stack.bytes := by
  obtain ⟨aligned, roomy, placed⟩ := h
  have hbytes : stack.bytes = stack.words * 8 := rfl
  -- the end is a multiple of eight, so that rounding takes eight from it or nothing
  have hround : stack.base + stack.bytes ≤ (stack.base + stack.bytes) / 16 * 16 + 8 := by omega
  have hbelow : (stack.base + stack.bytes) / 16 * 16 ≤ stack.base + stack.bytes := by omega
  have hroom : stack.base + 16 ≤ stack.base + stack.bytes := by omega
  have hstep : 8 ≤ (stack.base + stack.bytes) / 16 * 16 := by omega
  refine ⟨(stack.base + stack.bytes) / 16 * 16 - 8, ?_, by omega, by omega⟩
  unfold Task.firstStackPointer
  rw [Word.add_of_lt placed]
  exact Word.sub_of_le hstep

/-- A task is prepared or the allocator refuses. -/
theorem Task.prepare_answers (t : Task) (entry : EntryPoint) (data : Int64)
    {allocate : StackAllocator} (fit : allocate.Fit) (cr3 : UInt64) :
    (t.prepare entry data allocate cr3).Ends Stop.Never fun _ => True := by
  refine (t.prepare_ends_of_slot entry data allocate cr3 fun stack given => ?_).imp
    fun _ _ => trivial
  obtain ⟨rsp, hrsp, hbase, -⟩ := Task.firstStackPointer_of_usable (fit _ _ given)
  rw [ofExcept_bind]
  refine ends_bind_of_ok (a := rsp) hrsp ?_
  exact ends_of_ok (Word.sub_of_le hbase) trivial

namespace Scheduler

variable {s : Scheduler}

theorem newTask_answers (number : s.latest + 1 < Word.bound) :
    s.newTask.Ends Stop.Never fun _ => True := by
  unfold newTask
  refine ends_bind_of_ok (a := _) (Word.add_of_lt number) ?_
  exact ends_bind_of_ok (a := ()) rfl (ends_pure trivial)

theorem prepareTask_answers (s : Scheduler) (id : TaskId) (entry : EntryPoint) (data : Int64)
    {allocate : StackAllocator} (fit : allocate.Fit) (cr3 : UInt64) :
    (s.prepareTask id entry data allocate cr3).Ends Stop.Never fun _ => True := by
  unfold prepareTask
  cases s.tasks.get? id with
  | none => exact ends_pure trivial
  | some t => exact ends_bind (t.prepare_answers entry data fit cr3) fun _ _ => ends_pure trivial

theorem spawn_answers (hs : s.Sound) (entry : EntryPoint) (data : Int64) (n : Nat)
    {allocate : StackAllocator} (fit : allocate.Fit) (cr3 : UInt64)
    (number : s.latest + 1 < Word.bound) :
    (s.spawn entry data n allocate cr3).Ends Stop.Never fun p =>
      SpawnOutcome s entry data n allocate cr3 p.1 p.2 :=
  spawn_ends_of_prepare hs entry data n allocate cr3 (ends_of_ok (Word.add_of_lt number) rfl)
    (Task.prepare_answers _ entry data fit cr3)

end Scheduler

/-! ## The stock -/

/-- The allocator that comes with a request. -/
def Request.allocator? : Request → Option StackAllocator
  | .prepare _ _ _ allocate _ | .spawn _ _ _ allocate _ => some allocate
  | _ => none

/-- The request may take the next number for a task. -/
def Request.enrolls : Request → Bool
  | .newTask | .spawn .. => true
  | _ => false

/-- The request may add an alarm. -/
def Request.schedules : Request → Bool
  | .addTimer .. | .arm | .tick | .timerInterrupt => true
  | _ => false

/-- **The dispatcher has what the requests need**, if each of them takes what it may take. -/
structure Dispatcher.Provides (d : Dispatcher) (requests : List Request) : Prop where
  /-- The stacks that are handed out can be begun on. -/
  allocators : ∀ r ∈ requests, ∀ allocate ∈ r.allocator?, allocate.Fit
  /-- There are numbers for the tasks. -/
  numbers : ∀ r ∈ requests, r.enrolls = true →
    d.scheduler.latest + requests.countP Request.enrolls < Word.bound
  /-- There are numbers for the alarms. -/
  places : ∀ r ∈ requests, r.schedules = true →
    d.clock.nextSeq + requests.countP Request.schedules < Word.bound
  /-- The last tick of all is further away than the end of the next quantum. -/
  ticks : ∀ r ∈ requests, r.schedules = true →
    d.clock.now + requests.countP Request.ticks + d.clock.config.quantum < Word.bound

namespace Clock

variable {c : Clock} {s : Scheduler}

/-- An alarm can be added as long as there are numbers. -/
theorem push_answers (due : Nat) (kind : AlarmKind) (place : c.nextSeq + 1 < Word.bound) :
    c.push due kind = .ok (c.put due kind) := by
  unfold push
  rw [Word.add_of_lt place]
  rfl

theorem setQuantum_answers (place : c.nextSeq + 1 < Word.bound)
    (time : c.now + c.config.quantum < Word.bound) : c.setQuantum = .ok c.marked := by
  unfold setQuantum
  rw [Word.add_of_lt time]
  exact push_answers (c := { c with armed := true }) _ _ place

/-- There is room for the end of a quantum that begins at tick `now`. -/
def MarkFits (c : Clock) (now : Nat) : Prop :=
  now + c.config.quantum < Word.bound ∧ c.nextSeq + 1 < Word.bound

/-- The sums fit that the clock makes when this is asked. -/
def Room (c : Clock) : Request → Prop
  | .addTimer .. => c.nextSeq + 1 < Word.bound
  | .arm => c.armed = false → c.MarkFits c.now
  | .tick | .timerInterrupt =>
    c.now + 1 < Word.bound ∧ (c.expires = true → c.MarkFits (c.now + 1))
  | _ => True

theorem push_answers_iff (due : Nat) (kind : AlarmKind) :
    (∃ c', c.push due kind = .ok c') ↔ c.nextSeq + 1 < Word.bound := by
  constructor
  · rintro ⟨c', done⟩
    rcases hadd : Word.add c.nextSeq 1 with stop | next
    · unfold push at done
      rw [hadd] at done
      nomatch done
    · exact (Word.add_eq_ok_iff.mp hadd).1
  · exact fun place => ⟨_, push_answers due kind place⟩

theorem setQuantum_answers_iff : (∃ c', c.setQuantum = .ok c') ↔ c.MarkFits c.now := by
  constructor
  · rintro ⟨c', done⟩
    unfold setQuantum at done
    rcases hadd : Word.add c.now c.config.quantum with stop | due
    · rw [hadd] at done
      nomatch done
    · rw [hadd] at done
      exact ⟨(Word.add_eq_ok_iff.mp hadd).1,
        (push_answers_iff (c := { c with armed := true }) due .quantum).mp ⟨c', done⟩⟩
  · exact fun h => ⟨_, setQuantum_answers h.2 h.1⟩

theorem arm_answers_iff : (∃ c', c.arm.outcome = .ok c') ↔ c.Room .arm := by
  unfold arm Room
  cases harmed : c.armed with
  | true => exact ⟨fun _ => nofun, fun _ => ⟨c, rfl⟩⟩
  | false =>
    rw [if_neg Bool.false_ne_true]
    exact setQuantum_answers_iff.trans ⟨fun h _ => h, fun h => h rfl⟩

theorem tick_answers_iff : (∃ p, (c.tick s).outcome = .ok p) ↔ c.Room .tick := by
  have hserved : (serve (c.now + 1) c.alarms).expired = c.expires := rfl
  constructor
  · rintro ⟨p, done⟩
    unfold tick at done
    obtain ⟨now, hnow, hrest⟩ := outcome_bind_eq_ok_iff.mp done
    obtain ⟨room, rfl⟩ := Word.add_eq_ok_iff.mp hnow
    obtain ⟨s₁, -, hlast⟩ := outcome_bind_eq_ok_iff.mp hrest
    refine ⟨room, fun ended => ?_⟩
    rw [hserved, ended] at hlast
    obtain ⟨c₁, hset, -⟩ := outcome_bind_eq_ok_iff.mp hlast
    exact setQuantum_answers_iff (c := c.ticked).mp ⟨c₁, hset⟩
  · rintro ⟨room, mark⟩
    have hends : (c.tick s).Ends Stop.Never fun _ => True := by
      unfold tick
      refine ends_bind_of_ok (a := c.now + 1) (Word.add_of_lt room) ?_
      refine ends_bind (c.deliver_carried s) fun s₁ _ => ?_
      dsimp only
      rw [hserved]
      cases hended : c.expires with
      | true =>
        obtain ⟨c₁, hset⟩ := setQuantum_answers_iff (c := c.ticked).mpr (mark hended)
        exact ends_bind_of_ok hset (ends_pure trivial)
      | false => exact ends_pure trivial
    obtain ⟨p, done, -⟩ := ends_never_iff.mp hends
    exact ⟨p, done⟩

theorem arm_answers (place : c.nextSeq + 1 < Word.bound)
    (time : c.now + c.config.quantum < Word.bound) :
    c.arm.Ends Stop.Never fun _ => True := by
  obtain ⟨c', done⟩ := arm_answers_iff.mpr fun _ => ⟨time, place⟩
  exact ends_of_ok done trivial

/-- A tick passes if there is room for it and for the quantum that may begin at it. -/
theorem tick_answers (s : Scheduler) (place : c.nextSeq + 1 < Word.bound)
    (time : c.now + 1 + c.config.quantum < Word.bound) :
    (c.tick s).Ends Stop.Never fun _ => True := by
  have room : c.now + 1 < Word.bound := by omega
  obtain ⟨p, done⟩ := tick_answers_iff.mpr ⟨room, fun _ => ⟨time, place⟩⟩
  exact ends_of_ok done trivial

end Clock

theorem Interrupt.onTimer_answers {c : Clock} {s : Scheduler} (hs : s.Sound)
    (place : c.nextSeq + 1 < Word.bound) (time : c.now + 1 + c.config.quantum < Word.bound) :
    (Interrupt.onTimer c s).Ends Stop.Never fun _ => True := by
  obtain ⟨p, hp, -⟩ := ends_never_iff.mp (Clock.tick_answers s place time)
  have htick := Ends.of_answer (c.tick_carried s) ⟨p, hp⟩
  unfold Interrupt.onTimer
  refine ends_bind htick ?_
  rintro ⟨expired, c₁, s₁⟩ ⟨-, acts, delivered, -⟩
  refine ends_bind_of_ok (a := ()) rfl ?_
  dsimp only
  split
  · refine ends_bind (switchTask_ends (delivered.sound hs)) ?_
    rintro ⟨change, s₂⟩ -
    cases change with
    | none => exact ends_pure trivial
    | some h => exact ends_bind_of_ok (a := ()) rfl (ends_pure trivial)
  · exact ends_pure trivial

/-! ## One request -/

/-- The part of `Provides` that speaks of the next request. -/
theorem Dispatcher.Provides.head {d : Dispatcher} {r : Request} {rest : List Request}
    (h : d.Provides (r :: rest)) :
    (∀ allocate ∈ r.allocator?, allocate.Fit) ∧
    (r.enrolls = true → d.scheduler.latest + 1 < Word.bound) ∧
    (r.schedules = true → d.clock.nextSeq + 1 < Word.bound ∧
      d.clock.now + r.ticks.toNat + d.clock.config.quantum < Word.bound) := by
  have hr : r ∈ r :: rest := List.mem_cons_self
  refine ⟨h.allocators r hr, fun enrolls => ?_, fun schedules => ⟨?_, ?_⟩⟩
  · have hnumbers := h.numbers r hr enrolls
    rw [List.countP_cons_of_pos enrolls] at hnumbers
    omega
  · have hplaces := h.places r hr schedules
    rw [List.countP_cons_of_pos schedules] at hplaces
    omega
  · have hticks := h.ticks r hr schedules
    cases hr : r.ticks with
    | true =>
      rw [List.countP_cons_of_pos hr] at hticks
      rw [Bool.toNat_true]
      omega
    | false =>
      rw [Bool.toNat_false]
      omega

/-- **What has been provided for is answered.** -/
theorem Dispatcher.perform_answers {d : Dispatcher} {r : Request} {rest : List Request}
    (hs : d.scheduler.Sound) (h : d.Provides (r :: rest)) :
    (d.perform r).Ends Stop.Never fun _ => True := by
  obtain ⟨fit, number, room⟩ := h.head
  cases r with
  | newTask => exact ends_bind (newTask_answers (number rfl)) fun p _ => ends_pure trivial
  | prepare id entry data allocate cr3 =>
    exact ends_bind (prepareTask_answers _ id entry data (fit allocate rfl) cr3)
      fun p _ => ends_pure trivial
  | spawn entry data level allocate cr3 =>
    exact ends_bind (spawn_answers hs entry data level (fit allocate rfl) cr3 (number rfl))
      fun p _ => ends_pure trivial
  | sleep id => exact ends_bind (sleep_ends hs id) fun p _ => ends_pure trivial
  | wakeup id level => exact ends_bind (wakeup_ends hs id level) fun p _ => ends_pure trivial
  | changeLevel id level =>
    exact ends_bind (changeLevel_ends hs id level) fun p _ => ends_pure trivial
  | switch => exact ends_bind (switchTask_ends hs) fun p _ => ends_pure trivial
  | send id m => exact ends_bind (send_ends d.scheduler id m) fun p _ => ends_pure trivial
  | receive id => exact ends_pure trivial
  | receiveCurrent =>
    obtain ⟨id, taken, head, current⟩ := hs.exists_current
    obtain ⟨t, known, -⟩ := hs.current_known current
    exact ends_bind_of_ok (a := _) (receiveCurrent_of_current current known) (ends_pure trivial)
  | drain id => exact ends_pure trivial
  | wait => exact ends_bind (waitStep_ends hs) fun p _ => ends_pure trivial
  | addTimer due value =>
    obtain ⟨place, -⟩ := room rfl
    exact ends_bind_of_ok (a := _) (Clock.push_answers due _ place) (ends_pure trivial)
  | arm =>
    obtain ⟨place, time⟩ := room rfl
    exact ends_bind (Clock.arm_answers place time) fun c _ => ends_pure trivial
  | tick =>
    obtain ⟨place, time⟩ := room rfl
    exact ends_bind (Clock.tick_answers _ place time) fun p _ => ends_pure trivial
  | timerInterrupt =>
    obtain ⟨place, time⟩ := room rfl
    exact ends_bind (Interrupt.onTimer_answers hs place time) fun p _ => ends_pure trivial
  | deviceInterrupt receiver device =>
    exact ends_bind (Interrupt.onDevice_carried _ receiver device) fun p _ => ends_pure trivial

/-! ## The stock shrinks slowly -/

/-- A new task joins the table. -/
def Scheduler.Act.enrolls : Act → Bool
  | .enroll _ => true
  | _ => false

theorem Scheduler.Steps.latest_eq {s s' : Scheduler} {acts : List Act} (h : Steps s acts s') :
    s'.latest = s.latest + acts.countP Act.enrolls := by
  induction h with
  | nil => rfl
  | @cons s s₁ s₂ a rest first later ih =>
    have hfirst : s₁.latest = s.latest + a.enrolls.toNat := by
      cases first with
      | _ => simp [Act.enrolls, pushBack, setLevel, setRunning]
    rw [ih, hfirst, List.countP_cons, Nat.add_assoc, Nat.add_comm a.enrolls.toNat]
    cases a.enrolls with
    | true => rfl
    | false => rfl

/-- Deliveries enroll nobody. -/
theorem Scheduler.Carried.enrolls {s : Scheduler} {letters : List Letter} {acts : List Act}
    (h : Carried s letters acts) : acts.countP Act.enrolls = 0 := by
  rw [List.countP_eq_zero]
  intro a ha
  obtain ⟨x, -, rfl | ⟨l, rfl⟩⟩ := h.of_mem ha
  · exact Bool.false_ne_true
  · exact Bool.false_ne_true

/-- A request enrolls one task at most. -/
theorem Enacted.enrolls {d : Dispatcher} {r : Request} {response : Response} {acts : List Act}
    (h : Enacted d r response acts) : acts.countP Act.enrolls ≤ r.enrolls.toNat := by
  cases h with
  | moved asked act =>
    rcases act with rfl | rfl | rfl
    · exact Nat.zero_le _
    · exact Nat.zero_le _
    · exact Nat.zero_le _
  | sent carried => exact Nat.le_of_eq carried.enrolls
  | notified carried => exact Nat.le_of_eq carried.enrolls
  | ticked carried => exact Nat.le_of_eq carried.enrolls
  | interrupted running carried => exact Nat.le_of_eq carried.enrolls
  | preempted ended carried =>
    rw [List.countP_append, carried.enrolls]
    exact Nat.zero_le _
  | refused | unmoved => exact Nat.zero_le _
  | _ => exact Nat.le_refl _

theorem Clock.after_bounds (c : Clock) (r : Request) :
    (c.after r).config = c.config ∧ (c.after r).now = c.now + r.ticks.toNat ∧
    (c.after r).nextSeq ≤ c.nextSeq + r.schedules.toNat := by
  cases r with
  | arm =>
    show c.wound.config = _ ∧ c.wound.now = _ ∧ c.wound.nextSeq ≤ _
    unfold wound
    split
    · exact ⟨rfl, rfl, Nat.le_succ _⟩
    · exact ⟨rfl, rfl, Nat.le_refl _⟩
  | tick | timerInterrupt =>
    show c.passed.config = _ ∧ c.passed.now = _ ∧ c.passed.nextSeq ≤ _
    unfold passed
    split
    · exact ⟨rfl, rfl, Nat.le_refl _⟩
    · exact ⟨rfl, rfl, Nat.le_succ _⟩
  | _ => exact ⟨rfl, rfl, Nat.le_refl _⟩

/-- **One request draws on the stock once.**  What the rest of the run needs is still there when
    the first request has been answered. -/
theorem Dispatcher.Provides.rest {d d' : Dispatcher} {r : Request} {rest : List Request}
    {response : Response} (h : d.Provides (r :: rest)) (hs : d.scheduler.Sound)
    (done : (d.perform r).outcome = .ok (response, d')) : d'.Provides rest := by
  obtain ⟨acts, steps, enacted⟩ := (Dispatcher.perform_enacts hs r).of_ok done
  have hlatest : d'.scheduler.latest = d.scheduler.latest + acts.countP Act.enrolls :=
    steps.latest_eq
  have henrolls := enacted.enrolls
  obtain ⟨hconfig, hnow, hseq⟩ := Clock.after_bounds d.clock r
  rw [← Dispatcher.clock_eq done] at hconfig hnow hseq
  have hcount : ∀ p : Request → Bool, (r :: rest).countP p = rest.countP p + (p r).toNat := by
    intro p
    rw [List.countP_cons]
    cases p r with
    | true => rfl
    | false => rfl
  refine ⟨fun x hx => h.allocators x (List.mem_cons_of_mem _ hx), fun x hx hx' => ?_,
    fun x hx hx' => ?_, fun x hx hx' => ?_⟩
  · have hnumbers := h.numbers x (List.mem_cons_of_mem _ hx) hx'
    rw [hcount] at hnumbers
    omega
  · have hplaces := h.places x (List.mem_cons_of_mem _ hx) hx'
    rw [hcount] at hplaces
    omega
  · have hticks := h.ticks x (List.mem_cons_of_mem _ hx) hx'
    rw [hcount] at hticks
    rw [hnow, hconfig]
    omega

/-! ## Runs -/

/-- **A run that has been provided for goes through.** -/
theorem Dispatcher.performAll_answers {d : Dispatcher} {requests : List Request}
    (hs : d.scheduler.Sound) (h : d.Provides requests) :
    (d.performAll requests).Ends Stop.Never fun _ => True := by
  induction requests generalizing d with
  | nil => exact ends_pure trivial
  | cons r rest ih =>
    refine ends_bind (Dispatcher.perform_answers hs h).with_outcome ?_
    rintro ⟨response, d₁⟩ ⟨done, -⟩
    -- the state is sound again and the stock lasts for the others
    have hsound : d₁.scheduler.Sound := ((Dispatcher.perform_ends hs d.clock r).of_ok done).sound hs
    exact ends_map (ih hsound (h.rest hs done)) fun p _ => trivial

namespace Scheduler

variable {s : Scheduler} {log : List (Request × Response)}

/-- **A history goes on** with any run, unless machine words run out. -/
theorem History.performAll_ends (h : History log s) (c : Clock) (requests : List Request) :
    (Dispatcher.performAll ⟨s, c⟩ requests).Ends Stop.IsOverflow fun p =>
      ∃ log', History (log ++ log') p.2.scheduler := by
  induction requests generalizing log s c with
  | nil =>
    refine ends_pure ⟨[], ?_⟩
    rw [List.append_nil]
    exact h
  | cons r rest ih =>
    refine ends_bind (h.perform_ends c r) ?_
    rintro ⟨response, d₁⟩ ⟨-, later⟩
    refine ends_map (ih later d₁.clock) ?_
    rintro p ⟨log', hlog⟩
    rw [List.append_assoc] at hlog
    exact ⟨_, hlog⟩

/-! ## No contradictions -/

/-- **The scheduler does not contradict itself.** -/
structure Coherent (s : Scheduler) : Prop where
  /-- There is a current task, and it is a ready task of the current level. -/
  current : ∃ id t, s.currentId = .ok id ∧ s.tasks.get? id = some t ∧ s.currentTask = .ok t ∧
    t.running = true ∧ t.level = s.currentLevel
  /-- It is found at the head of the queue with the number of the current level. -/
  headed : ∃ id rest, s.currentId = .ok id ∧
    s.queue? s.currentLevel.val = some (id :: rest)
  /-- There is a queue with the number of the level of every task, and it holds the task if
      that is ready. -/
  placed : ∀ id t, s.tasks.get? id = some t →
    ∃ q, s.queue? t.level.val = some q ∧ (id ∈ q ↔ t.running = true)

theorem queue?_of_level (s : Scheduler) (l : Level) : s.queue? l.val = some (s.queue l) := by
  unfold queue? queue
  rw [Vector.getElem?_eq_getElem l.isLt]
  rfl

theorem currentTask_of_known {id : TaskId} {t : Task} (current : s.currentId = .ok id)
    (known : s.tasks.get? id = some t) : s.currentTask = .ok t := by
  unfold currentTask
  rw [current]
  exact queuedTask_of_known known

theorem Sound.coherent (h : s.Sound) : s.Coherent where
  current := by
    obtain ⟨id, rest, head, current⟩ := h.exists_current
    obtain ⟨t, known, ready, level⟩ := h.current_known current
    exact ⟨id, t, current, known, currentTask_of_known current known, ready, level⟩
  headed := by
    obtain ⟨id, rest, head, current⟩ := h.exists_current
    refine ⟨id, rest, current, ?_⟩
    rw [queue?_of_level, head]
  placed := by
    intro id t known
    refine ⟨s.queue t.level, queue?_of_level s t.level, fun hin => ?_, h.mem_queue known⟩
    obtain ⟨u, hu, ready, -⟩ := h.of_mem_queue hin
    obtain rfl := Option.some.inj (hu.symm.trans known)
    exact ready

/-- **The scheduler never contradicts itself**, whatever has been asked of it since it was set
    up: there is a current task, it is known and ready at the current level, and every task is
    where its level says.  Whatever is asked next, in whatever order and at whatever clock,
    nothing but the arithmetic on machine words can stop it, and this can not as long as numbers,
    ticks and stacks last.  A level that does not exist gets no further than its name. -/
theorem never_contradicts (h : History log s) :
    s.Coherent ∧
    (∀ c requests, (Dispatcher.performAll ⟨s, c⟩ requests).Ends Stop.IsOverflow
      fun p => p.2.scheduler.Coherent) ∧
    (∀ c requests, (Dispatcher.mk s c).Provides requests →
      ∃ p, (Dispatcher.performAll ⟨s, c⟩ requests).outcome = .ok p ∧ p.2.scheduler.Coherent) ∧
    ∀ c r n, r.level? = some n → 4 ≤ n →
      (Dispatcher.perform ⟨s, c⟩ r).outcome = .ok (.refused (.invalidLevel n), ⟨s, c⟩) := by
  have hruns : ∀ c requests, (Dispatcher.performAll ⟨s, c⟩ requests).Ends Stop.IsOverflow
      fun p => p.2.scheduler.Coherent := by
    intro c requests
    refine (h.performAll_ends c requests).imp ?_
    rintro p ⟨log', later⟩
    exact later.sound.coherent
  refine ⟨h.sound.coherent, hruns, fun c requests provided => ?_, fun c r n => ?_⟩
  · obtain ⟨p, hp, -⟩ := ends_never_iff.mp (Dispatcher.performAll_answers h.sound provided)
    exact ⟨p, hp, (hruns c requests).of_ok hp⟩
  · exact Dispatcher.perform_of_invalidLevel ⟨s, c⟩

/-- The idle task is told to sleep, a task is woken that does not exist, the main task is moved
    to a level that does not exist and then falls asleep at the lowest.  After that a task is
    spawned above all others, and a timer interrupt comes. -/
theorem never_contradicts_of_misuse : ∃ s, History
    [(.sleep ⟨2⟩, .change none), (.wakeup ⟨9⟩ (some 1), .refused (.noSuchTask ⟨9⟩)),
      (.changeLevel ⟨1⟩ 7, .refused (.invalidLevel 7)), (.changeLevel ⟨1⟩ 0, .done),
      (.sleep ⟨1⟩, .change (some ⟨⟨1⟩, ⟨2⟩⟩))] s ∧ s.Coherent ∧
    ∃ p, (Dispatcher.performAll ⟨s, .create .standard⟩
      [.spawn .terminal 0 3 (.fixed 16), .timerInterrupt]).outcome = .ok p ∧
      p.2.scheduler.Coherent := by
  have created : (create .standard .heap).outcome = .ok (.ok _) := rfl
  have h := (History.created created).performAll
    (show (Dispatcher.performAll ⟨_, .create .standard⟩
      [.sleep ⟨2⟩, .wakeup ⟨9⟩ (some 1), .changeLevel ⟨1⟩ 7, .changeLevel ⟨1⟩ 0,
        .sleep ⟨1⟩]).outcome = .ok (_, _) from rfl)
  have fit : (StackAllocator.fixed 16).Fit := by
    rintro bytes stack hstack
    obtain rfl : Stack.zeroed StackAllocator.heapBase 2 = stack := Except.ok.inj hstack
    exact ⟨by decide, by decide, by decide⟩
  obtain ⟨coherent, -, answered, -⟩ := never_contradicts h
  refine ⟨_, h, coherent, answered _ _ ⟨?_, ?_, ?_, ?_⟩⟩
  · intro r hr allocate hallocate
    rcases List.mem_cons.mp hr with rfl | hlast
    · obtain rfl := Option.some.inj hallocate
      exact fit
    · obtain rfl := List.mem_singleton.mp hlast
      nomatch hallocate
  · exact fun _ _ _ => (by decide : 2 + 1 < Word.bound)
  · exact fun _ _ _ => (by decide : 1 + 1 < Word.bound)
  · exact fun _ _ _ => (by decide : 0 + 1 + 2 < Word.bound)

end Scheduler

end PreemptiveKernel

/-
  The main task and the terminal in company.

  Beside the two loops other tasks run, and a console goes on in their company (`Console.Goes`): an
  interrupt comes, one of the two makes a call, another task has the kernel do something for it, or
  something happens that is neither the scheduler's nor the clock's.  The others may do whatever
  the kernel offers, at any time, but for taking messages: that is done by the task whose messages
  they are, so not while the main task or the terminal is current.

  What comes of a deed is told in two ways.

  1. **By its request.**  Whatever is done to the scheduler and the clock is one request or none
     (`Asked`), so the laws of requests are laws of deeds (`Went`): what one of the two takes was
     at the front of its inbox, what is sent to it is at the end, and the clock moves as the
     request says.

  2. **By the loops**, which stay what they are (`Console.Together`): each has only calls of its
     own program to make.

  A property of runs is proved for every deed (`Ensemble.carries`), and neither the machine nor the
  log nor the serial line has to be looked at again.  Iterations of the two programs, as the kernel
  runs them, are parts of such runs (`Ensemble.takesIn`).
-/
import PreemptiveKernel.Proofs.Alarms
import PreemptiveKernel.Proofs.Console
import PreemptiveKernel.Proofs.Mail
import PreemptiveKernel.Proofs.Sharing

namespace PreemptiveKernel

open Run Scheduler

/-! ## One request or none -/

/-- Nothing has been asked of the dispatcher, or one request, and `mail` was handed out. -/
inductive Asked (d : Dispatcher) : Option Request → List Message → Dispatcher → Prop
  /-- Nothing has been asked. -/
  | nothing : Asked d none [] d
  /-- This has been asked. -/
  | request {r : Request} {response : Response} {d' : Dispatcher}
      (done : (d.perform r).outcome = .ok (response, d')) : Asked d (some r) response.mail d'

namespace Asked

variable {d d' : Dispatcher} {r : Option Request} {ms : List Message}

theorem sound (h : Asked d r ms d') (hs : d.scheduler.Sound) : d'.scheduler.Sound := by
  cases h with
  | nothing => exact hs
  | request done => exact (Episode.performed ⟨_, _, _, _, done⟩ hs).sound hs

theorem known (h : Asked d r ms d') (hs : d.scheduler.Sound) {id : TaskId}
    (known : (d.scheduler.tasks.get? id).isSome) : (d'.scheduler.tasks.get? id).isSome := by
  cases h with
  | nothing => exact known
  | request done => exact Episode.known_kept ⟨_, _, _, _, done⟩ hs known

/-- **The law of inboxes**: what is handed out was at the front of its reader's inbox, and what is
    sent is at the end of the receivers'. -/
theorem mail (h : Asked d r ms d') (hs : d.scheduler.Sound) {id : TaskId}
    (known : (d.scheduler.tasks.get? id).isSome) :
    (if r.bind (·.reader d.scheduler) = some id then ms else []) ++ d'.scheduler.mail id =
      d.scheduler.mail id ++ lettersTo id ((r.map d.letters).getD []) := by
  cases h with
  | nothing => exact (List.append_nil _).symm
  | request done =>
    have law := Episode.mail ⟨_, _, _, _, done⟩ hs id
    rw [Episode.sentTo, lettersTo_accepted_of_known _ known] at law
    exact law

/-- **The law of the clock**: it moves as the request says. -/
theorem clock (h : Asked d r ms d') : d'.clock = (r.map d.clock.after).getD d.clock := by
  cases h with
  | nothing => rfl
  | request done => exact Dispatcher.clock_eq done

/-- What a request does is a run, and then the response. -/
theorem of_run {α : Type} {r : Request} {run : Run Effect α}
    {f : α → Run Effect (Response × Dispatcher)} {a : α} (response : Response)
    (performs : d.perform r = run >>= f) (done : run.outcome = .ok a)
    (responds : (f a).outcome = .ok (response, d')) : Asked d (some r) response.mail d' := by
  refine .request ?_
  rw [performs, outcome_bind, done]
  exact responds

/-- A request that may be refused hands nothing out. -/
theorem of_answer {α : Type} {r : Request} {run : Run Effect (Answer α × Scheduler)}
    {answer : Answer α} {s : Scheduler} (f : α → Response)
    (performs : d.perform r =
      run >>= fun (answer, s) => pure (Response.ofAnswer f answer, d.withScheduler s))
    (done : run.outcome = .ok (answer, s)) (silent : ∀ a, (f a).mail = []) :
    Asked d (some r) [] (d.withScheduler s) := by
  have asked := of_run (Response.ofAnswer f answer) performs done rfl
  have nothing : (Response.ofAnswer f answer).mail = [] := by
    cases answer with
    | ok a => exact silent a
    | error e => rfl
  rwa [nothing] at asked

end Asked

namespace Kernel

variable {m m' : Machine} {t : List Observation} {d d' : Dispatcher}

/-! ## What operations and calls ask -/

/-- What an operation asks of the dispatcher. -/
def Operation.request (allocate : StackAllocator) (cr3 : UInt64) (d : Dispatcher) :
    Operation → Option Request
  | switchTask => some .switch
  | sleep id => some (.sleep id)
  | sleepCurrent => d.scheduler.currentId.toOption.map .sleep
  | wakeup id level => some (.wakeup id level)
  | changeLevel id level => some (.changeLevel id level)
  | newTask entry data level => some (.spawn entry data level allocate cr3)
  | currentTask => none
  | send id message => some (.send id message)
  | receive => some .receiveCurrent
  | waitStep => some .wait
  | addTimer due value => some (.addTimer due value)
  | armQuantum => some .arm
  | currentTick => none
  | timerInterrupt _ => some .timerInterrupt
  | deviceInterrupt device _ => some (.deviceInterrupt d.scheduler.config.receiver device)

/-- The messages that an operation has handed out with its answer. -/
def Operation.handed : (op : Operation) → op.Result → List Message
  | receive, m => m.toList
  | waitStep, m => m.toList
  | _, _ => []

/-- A sleep that has been answered is the request for it. -/
theorem asked_sleep {id : TaskId} {answer : Answer (Option Handoff)} {s : Scheduler}
    (slept : (d.scheduler.sleep id).outcome = .ok (answer, s)) :
    Asked d (some (.sleep id)) [] (d.withScheduler s) :=
  .of_answer .change rfl slept fun _ => rfl

/-- **What an operation does is what its request does.** -/
theorem Operation.asked {op : Operation} {allocate : StackAllocator} {cr3 : UInt64}
    {a : op.Result} {change : Option Handoff}
    (h : (op.own allocate cr3 d).outcome = .ok (a, change, d')) :
    Asked d (op.request allocate cr3 d) (op.handed a) d' := by
  cases op with
  | currentTick =>
    cases h
    exact .nothing
  | currentTask =>
    obtain ⟨id, -, hpure⟩ := outcome_bind_eq_ok_iff.mp h
    cases hpure
    exact .nothing
  | sleep id =>
    obtain ⟨⟨answer, s⟩, slept, hpure⟩ := outcome_bind_eq_ok_iff.mp h
    cases answer with
    | ok change => cases hpure; exact asked_sleep slept
    | error e => cases hpure; exact asked_sleep slept
  | sleepCurrent =>
    obtain ⟨id, current, hslept⟩ := outcome_bind_eq_ok_iff.mp h
    have current : d.scheduler.currentId = .ok id := current
    obtain ⟨⟨answer, s⟩, slept, hpure⟩ := outcome_bind_eq_ok_iff.mp hslept
    have asks : request allocate cr3 d .sleepCurrent = some (.sleep id) := by
      rw [request, current]
      rfl
    rw [asks]
    cases answer with
    | ok change => cases hpure; exact asked_sleep slept
    | error e => cases hpure; exact asked_sleep slept
  | newTask entry data level =>
    obtain ⟨⟨answer, s⟩, done, hpure⟩ := outcome_bind_eq_ok_iff.mp h
    cases hpure
    exact .of_answer .task rfl done fun _ => rfl
  | wakeup | changeLevel | send =>
    obtain ⟨⟨answer, s⟩, done, hpure⟩ := outcome_bind_eq_ok_iff.mp h
    cases hpure
    exact .of_answer (fun _ => .done) rfl done fun _ => rfl
  | switchTask =>
    obtain ⟨⟨change, s⟩, done, hpure⟩ := outcome_bind_eq_ok_iff.mp h
    cases hpure
    exact .of_run (.change change) rfl done rfl
  | receive =>
    obtain ⟨⟨m, s⟩, done, hpure⟩ := outcome_bind_eq_ok_iff.mp h
    cases hpure
    exact .of_run (.message a) rfl done rfl
  | waitStep =>
    obtain ⟨⟨m, change, s⟩, done, hpure⟩ := outcome_bind_eq_ok_iff.mp h
    cases hpure
    exact .of_run (.waited a change) rfl done rfl
  | timerInterrupt =>
    obtain ⟨⟨change, c, s⟩, done, hpure⟩ := outcome_bind_eq_ok_iff.mp h
    cases hpure
    exact .of_run (.change change) rfl done rfl
  | addTimer | armQuantum | deviceInterrupt =>
    obtain ⟨state, done, hpure⟩ := outcome_bind_eq_ok_iff.mp h
    cases hpure
    exact .of_run .done rfl done rfl

/-- Where a new task gets its stack and its page tables from shows in nothing that is sent. -/
theorem Operation.letters_request (op : Operation) (allocate allocate' : StackAllocator)
    (cr3 cr3' : UInt64) :
    (op.request allocate cr3 d).map d.letters = (op.request allocate' cr3' d).map d.letters := by
  cases op with
  | _ => rfl

/-- Nor does the clock learn of it. -/
theorem Operation.clock_request (op : Operation) (allocate allocate' : StackAllocator)
    (cr3 cr3' : UInt64) (c : Clock) :
    (op.request allocate cr3 d).map c.after = (op.request allocate' cr3' d).map c.after := by
  cases op with
  | _ => rfl

/-- **An operation on the shared state**, as a request. -/
theorem Operation.comes (op : Operation) {a : op.Result} (shares : Shares m d)
    (h : Comes op.perform m t a m') :
    ∃ d', Shares m' d' ∧ Asked d (op.request (op.allocator m d) m.cr3 d) (op.handed a) d' := by
  have done : (op.perform m).outcome = .ok (a, m') := congrArg Run.outcome h
  obtain ⟨change, d', value, became, -⟩ := (op.faithful shares).2.of_ok done
  exact ⟨d', became.toShares, Operation.asked value⟩

/-- What a call asks of the dispatcher. -/
def Call.request : Call → Option Request
  | rearm timeout => some (.addTimer (timeout + blinkTicks) cursorTimer)
  | send id m => some (.send id m)
  | note _ _ => none
  | echo _ => none

theorem Call.letters_request (call : Call) :
    (call.request.map d.letters).getD [] = call.letters := by
  cases call with
  | _ => rfl

/-- What leaves the scheduler and the clock alone leaves them shared. -/
theorem Shares.kept (h : Shares m d) (scheduler : m'.scheduler = m.scheduler)
    (clock : m'.clock = m.clock) : Shares m' d :=
  ⟨scheduler.trans h.scheduler, clock.trans h.clock⟩

/-- **A call on the shared state**, as a request. -/
theorem Call.asked {call : Call} {u : Unit} (shares : Shares m d)
    (h : Comes call.perform m t u m') : ∃ d', Shares m' d' ∧ Asked d call.request [] d' := by
  cases call with
  | rearm timeout =>
    obtain ⟨t₁, due, m₁, t₂, hdue, hadd, rfl⟩ := Comes.of_bind h
    obtain ⟨sum, rfl, rfl⟩ := Comes.of_except (x := Word.add timeout blinkTicks) hdue
    obtain rfl := (Word.add_eq_ok_iff.mp sum).2
    exact Operation.comes (.addTimer (timeout + blinkTicks) cursorTimer) shares hadd
  | send id message =>
    obtain ⟨t₁, answer, m₁, t₂, hsend, hpure, rfl⟩ := Comes.of_bind h
    obtain ⟨rfl, -, rfl⟩ := Comes.of_pure hpure
    exact Operation.comes (.send id message) shares hsend
  | note severity text =>
    have beside := (aside_note _ _ _).beside h
    exact ⟨d, shares.kept beside.scheduler beside.clock, .nothing⟩
  | echo byte =>
    have beside := h.of_print.1
    exact ⟨d, shares.kept beside.scheduler beside.clock, .nothing⟩

/-- What an interrupt asks of the dispatcher. -/
def askedBy (d : Dispatcher) : Interrupt → Option Request
  | .timer => some .timerInterrupt
  | .keyboard => some (.deviceInterrupt d.scheduler.config.receiver .keyboard)
  | .spurious => none

/-- **An interrupt on the shared state**, as a request. -/
theorem asked_of_take {i : Interrupt} {u : Unit} (shares : Shares m d)
    (h : Comes (Boot.take i) m t u m') : ∃ d', Shares m' d' ∧ Asked d (askedBy d i) [] d' := by
  obtain ⟨m₁, hhandle, rfl⟩ := h.of_take
  cases i with
  | timer =>
    obtain ⟨s, s', c, c', change, done, moved, hclock, hclock'⟩ :=
      Comes.of_timerInterrupt (aside_acknowledge _) hhandle
    obtain rfl := moved.eq_of_free shares.scheduler
    have same : some (Locked.mk c false) = some (Locked.mk d.clock false) :=
      hclock.symm.trans shares.clock
    cases same
    exact ⟨⟨s', c'⟩, ⟨moved.left, hclock'⟩, .of_run (.change change) rfl done rfl⟩
  | keyboard =>
    obtain ⟨s, s', done, moved, hclock⟩ :=
      Comes.of_deviceInterrupt (aside_acknowledge _) hhandle
    obtain rfl := moved.eq_of_free shares.scheduler
    exact ⟨d.withScheduler s', ⟨moved.left, hclock.trans shares.clock⟩,
      .of_run .done rfl done rfl⟩
  | spurious =>
    obtain ⟨-, -, rfl⟩ := Comes.of_pure (a := ()) hhandle
    exact ⟨d, ⟨shares.scheduler, shares.clock⟩, .nothing⟩

/-- Only who sends has a message sent. -/
theorem Operation.eq_send {op : Operation} {allocate : StackAllocator} {cr3 : UInt64}
    {id : TaskId} {message : Message}
    (h : op.request allocate cr3 d = some (.send id message)) :
    op = .send id message := by
  cases op with
  | sleepCurrent =>
    obtain ⟨x, -, hx⟩ := Option.map_eq_some_iff.mp h
    cases hx
  | send => cases h; rfl
  | _ => cases h

/-- Only who sets a timer has one set. -/
theorem Operation.eq_addTimer {op : Operation} {allocate : StackAllocator} {cr3 : UInt64}
    {due : Nat} {value : Int32} (h : op.request allocate cr3 d = some (.addTimer due value)) :
    op = .addTimer due value := by
  cases op with
  | sleepCurrent =>
    obtain ⟨x, -, hx⟩ := Option.map_eq_some_iff.mp h
    cases hx
  | addTimer => cases h; rfl
  | _ => cases h

/-- An operation by which the current task takes a message. -/
def Operation.takes : Operation → Bool
  | receive | waitStep => true
  | _ => false

/-- Only an operation that takes hands messages out. -/
theorem Operation.handed_eq_nil {op : Operation} (h : op.takes = false) (a : op.Result) :
    op.handed a = [] := by
  cases op with
  | receive | waitStep => cases h
  | _ => rfl

/-- What an operation takes, it takes for the current task. -/
theorem Operation.reader_request {op : Operation} (allocate : StackAllocator) (cr3 : UInt64)
    (h : op.takes = true) :
    (op.request allocate cr3 d).bind (·.reader d.scheduler) = d.scheduler.currentId.toOption := by
  cases op with
  | receive | waitStep => rfl
  | _ => cases h

end Kernel

open Kernel

/-! ## Strokes -/

/-- What is done, and by whom. -/
inductive Deed
  /-- Something that is neither the scheduler's nor the clock's: bytes come from the keyboard, or
      another task prints or writes to the log. -/
  | elsewhere
  /-- The processor takes an interrupt. -/
  | interrupt (i : Interrupt)
  /-- Another task has the kernel do something. -/
  | other (op : Operation)
  /-- The main task makes a call. -/
  | mainCall (call : Call)
  /-- The main task looks for a byte. -/
  | mainRead (byte : Option UInt8)
  /-- The main task looks for a message. -/
  | mainWait (message : Option Message)
  /-- The terminal makes a call. -/
  | terminalCall (call : Call)
  /-- The terminal looks for a message. -/
  | terminalWait (message : Option Message)

namespace Deed

/-- What a deed asks of the dispatcher. -/
def request (allocate : StackAllocator) (cr3 : UInt64) (d : Dispatcher) : Deed → Option Request
  | elsewhere | mainRead _ => none
  | interrupt i => askedBy d i
  | other op => op.request allocate cr3 d
  | mainCall call | terminalCall call => call.request
  | mainWait _ | terminalWait _ => some .wait

/-- The letters that are sent by a deed. -/
def letters (d : Dispatcher) (deed : Deed) : List Letter :=
  ((deed.request .heap addressSpace d).map d.letters).getD []

/-- The clock after a deed. -/
def clock (d : Dispatcher) (deed : Deed) : Clock :=
  ((deed.request .heap addressSpace d).map d.clock.after).getD d.clock

/-- The messages that the main task and the terminal `T` take from the inbox of `id` by a deed. -/
def taken (T id : TaskId) : Deed → List Message
  | mainWait m => if Config.mainTask = id then m.toList else []
  | terminalWait m => if T = id then m.toList else []
  | _ => []

/-- The call that the main task makes by a deed. -/
def mainCalls : Deed → List Call
  | mainCall call => [call]
  | _ => []

/-- The call that the terminal makes by a deed. -/
def terminalCalls : Deed → List Call
  | terminalCall call => [call]
  | _ => []

theorem letters_eq (deed : Deed) (allocate : StackAllocator) (cr3 : UInt64) (d : Dispatcher) :
    ((deed.request allocate cr3 d).map d.letters).getD [] = deed.letters d := by
  cases deed with
  | other op => exact congrArg (Option.getD · []) (op.letters_request allocate .heap cr3 addressSpace)
  | _ => rfl

theorem clock_eq (deed : Deed) (allocate : StackAllocator) (cr3 : UInt64) (d : Dispatcher) :
    ((deed.request allocate cr3 d).map d.clock.after).getD d.clock = deed.clock d := by
  cases deed with
  | other op => exact congrArg (Option.getD · d.clock) (op.clock_request allocate .heap cr3 addressSpace d.clock)
  | _ => rfl

end Deed

namespace Console

/-- **How a console can go on in company**, what is seen, and what it is then. -/
inductive Goes (c : Console) : Deed → List Observation → Console → Prop
  /-- Something has happened elsewhere. -/
  | elsewhere {t : List Observation} {m : Machine} (scheduler : m.scheduler = c.machine.scheduler)
      (clock : m.clock = c.machine.clock) : Goes c .elsewhere t { c with machine := m }
  /-- An interrupt has been taken. -/
  | interrupted {i : Interrupt} {t : List Observation} {m : Machine}
      (comes : Comes (Boot.take i) c.machine t () m) :
      Goes c (.interrupt i) t { c with machine := m }
  /-- Another task has had something done.  Messages it can take only when it is current. -/
  | shared {op : Operation} {a : op.Result} {t : List Observation} {m : Machine}
      (apart : op.takes = true → Boot.current c.machine ≠ some Config.mainTask ∧
        Boot.current c.machine ≠ some c.terminalId)
      (comes : Comes op.perform c.machine t a m) : Goes c (.other op) t { c with machine := m }
  /-- The main task has made a call. -/
  | mainCalled {call : Call} {rest : List Call} {t : List Observation} {m : Machine}
      (current : Boot.current c.machine = some Config.mainTask)
      (next : c.main.calls = call :: rest) (comes : Comes call.perform c.machine t () m) :
      Goes c (.mainCall call) t { c with machine := m, main := ⟨c.main.state, rest⟩ }
  /-- The main task has looked for a byte. -/
  | mainRead {byte : Option UInt8} {t : List Observation} {m : Machine}
      (current : Boot.current c.machine = some Config.mainTask) (done : c.main.calls = [])
      (reading : c.main.state.reading = true) (comes : Comes readScancode c.machine t byte m) :
      Goes c (.mainRead byte) t { c with machine := m, main := c.main.state.found byte }
  /-- The main task has looked for a message. -/
  | mainWaited {message : Option Message} {t : List Observation} {m : Machine}
      (current : Boot.current c.machine = some Config.mainTask) (done : c.main.calls = [])
      (resting : c.main.state.reading = false) (comes : Comes waitStep c.machine t message m) :
      Goes c (.mainWait message) t { c with machine := m, main := c.main.state.heard message }
  /-- The terminal has made a call. -/
  | terminalCalled {call : Call} {rest : List Call} {t : List Observation} {m : Machine}
      (current : Boot.current c.machine = some c.terminalId)
      (next : c.terminal.calls = call :: rest) (comes : Comes call.perform c.machine t () m) :
      Goes c (.terminalCall call) t { c with machine := m, terminal := ⟨c.terminal.state, rest⟩ }
  /-- The terminal has looked for a message. -/
  | terminalWaited {message : Option Message} {t : List Observation} {m : Machine}
      (current : Boot.current c.machine = some c.terminalId) (done : c.terminal.calls = [])
      (comes : Comes waitStep c.machine t message m) :
      Goes c (.terminalWait message) t
        { c with machine := m, terminal := c.terminal.state.heard message }

variable {c c' : Console} {d : Dispatcher} {deed : Deed} {t : List Observation}

/-- The terminal's task stays what it is. -/
theorem Goes.terminalId_eq (h : c.Goes deed t c') : c'.terminalId = c.terminalId := by
  cases h with
  | _ => rfl

/-- **A console that goes on by itself** goes on in company, unless nothing has happened. -/
theorem Advanced.goes {cause : Cause} (h : c.Advanced cause t c') :
    (t = [] ∧ c' = c) ∨ ∃ deed, c.Goes deed t c' ∧ ∀ op, deed ≠ .other op := by
  cases h with
  | passed task => exact .inl ⟨rfl, rfl⟩
  | arrived => exact .inr ⟨_, .elsewhere rfl rfl, nofun⟩
  | interrupted comes => exact .inr ⟨_, .interrupted comes, nofun⟩
  | mainCalled current next comes => exact .inr ⟨_, .mainCalled current next comes, nofun⟩
  | mainRead current done reading comes =>
    exact .inr ⟨_, .mainRead current done reading comes, nofun⟩
  | mainWaited current done resting comes =>
    exact .inr ⟨_, .mainWaited current done resting comes, nofun⟩
  | terminalCalled current next comes =>
    exact .inr ⟨_, .terminalCalled current next comes, nofun⟩
  | terminalWaited current done comes =>
    exact .inr ⟨_, .terminalWaited current done comes, nofun⟩

end Console

/-- What a deed comes to for the scheduler and the clock, as far as the main task and the terminal
    `T` are concerned. -/
structure Went (T : TaskId) (d : Dispatcher) (deed : Deed) (d' : Dispatcher) : Prop where
  /-- What one of the two takes was at the front of its inbox, and what is sent to it is at the
      end. -/
  mail : ∀ id, id = Config.mainTask ∨ id = T → deed.taken T id ++ d'.scheduler.mail id =
    d.scheduler.mail id ++ lettersTo id (deed.letters d)
  /-- The clock moves as the deed says. -/
  clock : d'.clock = deed.clock d

namespace Kernel

/-- The task that can be told to be current is the current task of the scheduler. -/
theorem Shares.current {m : Machine} {d : Dispatcher} (h : Shares m d) :
    Boot.current m = d.scheduler.currentId.toOption := by
  unfold Boot.current
  rw [h.scheduler]
  rfl

end Kernel

/-- The main task exists in every sound scheduler: the first identifier has been given out. -/
theorem Scheduler.Sound.main_known {s : Scheduler} (h : s.Sound) :
    (s.tasks.get? Config.mainTask).isSome := by
  obtain ⟨t, idle, -⟩ := h.idle_known
  have kept : s.idle ∈ s.tasks.keys := by
    refine Decidable.not_not.mp fun missing => ?_
    rw [TaskTable.get?_eq_none_iff.mpr missing] at idle
    cases idle
  rw [h.keys] at kept
  obtain ⟨n, hn, -⟩ := List.mem_map.mp kept
  rw [List.mem_range'_1] at hn
  have main : Config.mainTask ∈ s.tasks.keys := by
    rw [h.keys]
    exact List.mem_map.mpr ⟨1, List.mem_range'_1.mpr (by omega), rfl⟩
  rw [Option.isSome_iff_ne_none]
  exact fun missing => TaskTable.get?_eq_none_iff.mp missing main

/-! ## What the two go on with -/

namespace Kernel

/-- A call as the main task makes it: it sends no requests for layers, and to nobody but the
    terminal `T` anything else than acknowledgements. -/
def Call.ByMain (T : TaskId) (call : Call) : Prop :=
  ∀ x ∈ call.letters, (∀ r, x.message ≠ .layer r) ∧
    (x.receiver = T ∨ ∃ layer, x.message = .layerFinish layer)

/-- A call as the terminal `T` makes it: it sets no timer, and it sends nothing but requests for
    layers to the main task. -/
def Call.ByTerminal (T : TaskId) (call : Call) : Prop :=
  (∀ timeout, call ≠ .rearm timeout) ∧ ∀ x ∈ call.letters, x.receiver = Config.mainTask ∧
    ∃ r, x.message = .layer r ∧ r.source = T

theorem MainTask.calls_byMain (task : MainTask) (m : Message) :
    ∀ call ∈ task.calls m, call.ByMain task.terminal := by
  intro call hcall x hx
  rcases of_mem_calls hcall with ⟨timeout, -, rfl⟩ | ⟨plain, rfl⟩ | ⟨r, -, rfl⟩ |
    ⟨severity, text, rfl⟩
  · cases hx
  · obtain rfl := List.mem_singleton.mp hx
    exact ⟨plain, .inl rfl⟩
  · obtain rfl := List.mem_singleton.mp hx
    exact ⟨nofun, .inr ⟨_, rfl⟩⟩
  · cases hx

theorem keyCalls_byMain (terminal : TaskId) (event : Option KeyEvent) :
    ∀ call ∈ keyCalls terminal event, call.ByMain terminal := by
  intro call hcall x hx
  obtain ⟨e, rfl⟩ := of_mem_keyCalls hcall
  obtain rfl := List.mem_singleton.mp hx
  exact ⟨nofun, .inl rfl⟩

theorem TerminalTask.calls_byTerminal (task : TerminalTask) (m : Message) :
    ∀ call ∈ task.calls m, call.ByTerminal task.id := by
  intro call hcall
  unfold TerminalTask.calls at hcall
  -- what is only written to the log or printed is sent to nobody
  have silent : call.letters = [] → (∀ timeout, call ≠ .rearm timeout) →
      call.ByTerminal task.id := by
    intro none timeless
    refine ⟨timeless, ?_⟩
    rw [none]
    exact List.forall_mem_nil _
  cases m with
  | keyPush e =>
    dsimp only at hcall
    split at hcall
    · rcases List.mem_cons.mp hcall with rfl | hsend
      · exact silent rfl nofun
      · obtain rfl := List.mem_singleton.mp hsend
        refine ⟨nofun, fun x hx => ?_⟩
        obtain rfl := List.mem_singleton.mp hx
        exact ⟨rfl, _, rfl, rfl⟩
    · cases hcall
  | timerTimeout timeout value =>
    dsimp only at hcall
    split at hcall
    · obtain rfl := List.mem_singleton.mp hcall
      exact silent rfl nofun
    · cases hcall
  | layerFinish layer =>
    obtain rfl := List.mem_singleton.mp hcall
    exact silent rfl nofun
  | deviceInterrupt device => cases hcall
  | layer r => cases hcall

theorem TerminalTask.id_after (task : TerminalTask) (m : Message) :
    (task.after m).id = task.id := by
  unfold TerminalTask.after
  split
  · split
    · rfl
    · rfl
  · rfl

end Kernel

/-! ## The two in company -/

namespace Console

/-- **The main task and the terminal run together** on the scheduler and the clock `d`. -/
structure Together (c : Console) (d : Dispatcher) : Prop where
  /-- The machine shares the two. -/
  shares : Shares c.machine d
  /-- The scheduler is sound. -/
  sound : d.scheduler.Sound
  /-- The terminal's task exists. -/
  known : (d.scheduler.tasks.get? c.terminalId).isSome
  /-- The main task sends to it. -/
  addressed : c.main.state.task.terminal = c.terminalId
  /-- The terminal knows which task it is. -/
  named : c.terminal.state.task.id = c.terminalId
  /-- The main task has only calls of its own to make. -/
  main : ∀ call ∈ c.main.calls, call.ByMain c.terminalId
  /-- So has the terminal. -/
  terminal : ∀ call ∈ c.terminal.calls, call.ByTerminal c.terminalId

variable {c c' : Console} {d d' : Dispatcher} {deed : Deed} {t : List Observation}

theorem ite_some (key id : TaskId) (ms : List Message) :
    (if some key = some id then ms else []) = if key = id then ms else [] := by
  by_cases same : key = id
  · rw [if_pos same, if_pos (congrArg some same)]
  · rw [if_neg same, if_neg fun e => same (Option.some.inj e)]

/-- The request that a deed comes to, with what one of the two takes by it. -/
theorem Goes.asked (h : c.Goes deed t c') (shares : Shares c.machine d) :
    ∃ allocate cr3 ms d', Shares c'.machine d' ∧ Asked d (deed.request allocate cr3 d) ms d' ∧
      ∀ id, id = Config.mainTask ∨ id = c.terminalId →
        (if (deed.request allocate cr3 d).bind (·.reader d.scheduler) = some id then ms else []) =
          deed.taken c.terminalId id := by
  cases h with
  | elsewhere scheduler clock =>
    exact ⟨.heap, addressSpace, [], d, shares.kept scheduler clock, .nothing, fun _ _ => rfl⟩
  | interrupted comes =>
    obtain ⟨d', shares', asked⟩ := asked_of_take shares comes
    exact ⟨.heap, addressSpace, [], d', shares', asked, fun _ _ => ite_self _⟩
  | @shared op a t m apart comes =>
    obtain ⟨d', shares', asked⟩ := op.comes shares comes
    refine ⟨_, _, _, d', shares', asked, fun id party => ?_⟩
    show _ = []
    cases takes : op.takes with
    | false => rw [op.handed_eq_nil takes, ite_self]
    | true =>
      obtain ⟨notMain, notTerminal⟩ := apart takes
      refine if_neg ?_
      show ¬ (op.request (op.allocator c.machine d) c.machine.cr3 d).bind _ = some id
      rw [op.reader_request _ _ takes, ← shares.current]
      rcases party with rfl | rfl
      · exact notMain
      · exact notTerminal
  | mainCalled current next comes =>
    obtain ⟨d', shares', asked⟩ := Call.asked shares comes
    exact ⟨.heap, addressSpace, [], d', shares', asked, fun _ _ => ite_self _⟩
  | mainRead current done reading comes =>
    obtain ⟨scheduler, clock, -⟩ := comes.of_readScancode
    exact ⟨.heap, addressSpace, [], d, shares.kept scheduler clock, .nothing, fun _ _ => rfl⟩
  | mainWaited current done resting comes =>
    obtain ⟨d', shares', asked⟩ := Operation.comes .waitStep shares comes
    refine ⟨.heap, addressSpace, _, d', shares', asked, fun id party => ?_⟩
    show (if d.scheduler.currentId.toOption = some id then _ else []) = _
    rw [← shares.current, current, ite_some]
    rfl
  | terminalCalled current next comes =>
    obtain ⟨d', shares', asked⟩ := Call.asked shares comes
    exact ⟨.heap, addressSpace, [], d', shares', asked, fun _ _ => ite_self _⟩
  | terminalWaited current done comes =>
    obtain ⟨d', shares', asked⟩ := Operation.comes .waitStep shares comes
    refine ⟨.heap, addressSpace, _, d', shares', asked, fun id party => ?_⟩
    show (if d.scheduler.currentId.toOption = some id then _ else []) = _
    rw [← shares.current, current, ite_some]
    rfl

/-- **The loops stay what they are.** -/
theorem Goes.together (h : c.Goes deed t c') (together : c.Together d)
    (shares : Shares c'.machine d') (sound : d'.scheduler.Sound)
    (known : (d'.scheduler.tasks.get? c.terminalId).isSome) : c'.Together d' := by
  cases h with
  | elsewhere | interrupted | shared =>
    exact { together with shares := shares, sound := sound, known := known }
  | mainCalled current next comes =>
    exact { together with
      shares := shares
      sound := sound
      known := known
      main := fun call hcall => together.main call (next ▸ List.mem_cons_of_mem _ hcall) }
  | @mainRead byte t m current done reading comes =>
    have mine : ∀ call ∈ (c.main.state.found byte).calls, call.ByMain c.terminalId := by
      cases byte with
      | none => exact List.forall_mem_nil _
      | some byte =>
        rw [← together.addressed]
        exact keyCalls_byMain _ _
    have addressed : (c.main.state.found byte).state.task.terminal = c.terminalId := by
      cases byte with
      | none => exact together.addressed
      | some byte => exact together.addressed
    exact { together with
      shares := shares
      sound := sound
      known := known
      addressed := addressed
      main := mine }
  | @mainWaited message t m current done resting comes =>
    have mine : ∀ call ∈ (c.main.state.heard message).calls, call.ByMain c.terminalId := by
      cases message with
      | none => exact List.forall_mem_nil _
      | some m =>
        rw [← together.addressed]
        exact MainTask.calls_byMain _ _
    exact { together with
      shares := shares
      sound := sound
      known := known
      addressed :=
        (congrArg MainTask.terminal (c.main.state.task_heard message)).trans together.addressed
      main := mine }
  | terminalCalled current next comes =>
    exact { together with
      shares := shares
      sound := sound
      known := known
      terminal := fun call hcall => together.terminal call (next ▸ List.mem_cons_of_mem _ hcall) }
  | @terminalWaited message t m current done comes =>
    have own : ∀ call ∈ (c.terminal.state.heard message).calls,
        call.ByTerminal c.terminalId := by
      cases message with
      | none => exact List.forall_mem_nil _
      | some m =>
        rw [← together.named]
        exact TerminalTask.calls_byTerminal _ _
    have named : (c.terminal.state.heard message).state.task.id = c.terminalId := by
      cases message with
      | none => exact together.named
      | some m => exact (TerminalTask.id_after _ _).trans together.named
    exact { together with
      shares := shares
      sound := sound
      known := known
      named := named
      terminal := own }

/-- **Whatever goes on, the two stay together**, and the scheduler and the clock go on as the deed
    says. -/
theorem Goes.went (h : c.Goes deed t c') (together : c.Together d) :
    ∃ d', c'.Together d' ∧ Went c.terminalId d deed d' := by
  obtain ⟨allocate, cr3, ms, d', shares, asked, takes⟩ := h.asked together.shares
  have known : ∀ id, id = Config.mainTask ∨ id = c.terminalId →
      (d.scheduler.tasks.get? id).isSome := by
    rintro id (rfl | rfl)
    · exact together.sound.main_known
    · exact together.known
  refine ⟨d', h.together together shares (asked.sound together.sound)
    (asked.known together.sound together.known), fun id party => ?_, ?_⟩
  · rw [← takes id party, ← deed.letters_eq allocate cr3 d]
    exact asked.mail together.sound (known id party)
  · rw [← deed.clock_eq allocate cr3 d]
    exact asked.clock

theorem Together.holds (h : c.Together d) {id : TaskId}
    (current : Boot.current c.machine = some id) : Holds id c.machine :=
  ⟨d.scheduler, h.shares.scheduler, h.sound, currentId_of_current h.shares.scheduler current⟩

end Console

/-! ## Runs in company -/

/-- A console goes on once in company. -/
structure Stroke where
  /-- The console before. -/
  before : Console
  /-- What is done. -/
  deed : Deed
  /-- What is seen. -/
  trace : List Observation
  /-- The console afterwards. -/
  after : Console
  /-- So it goes on. -/
  done : before.Goes deed trace after

/-- A console goes on and on in company, in whatever order. -/
inductive Ensemble (start : Console) : List Stroke → Console → Prop
  | nil : Ensemble start [] start
  | snoc {ks : List Stroke} {k : Stroke} (earlier : Ensemble start ks k.before) :
      Ensemble start (ks ++ [k]) k.after

namespace Stroke

/-- The messages that the main task and the terminal `T` have taken from the inbox of `id`. -/
def taken (T id : TaskId) (ks : List Stroke) : List Message :=
  ks.flatMap fun k => k.deed.taken T id

/-- The calls that the main task has made. -/
def mainCalls (ks : List Stroke) : List Call :=
  ks.flatMap fun k => k.deed.mainCalls

/-- The calls that the terminal has made. -/
def terminalCalls (ks : List Stroke) : List Call :=
  ks.flatMap fun k => k.deed.terminalCalls

theorem taken_concat (T id : TaskId) (ks : List Stroke) (k : Stroke) :
    taken T id (ks ++ [k]) = taken T id ks ++ k.deed.taken T id := by
  rw [taken, List.flatMap_append, List.flatMap_singleton]
  rfl

theorem mainCalls_concat (ks : List Stroke) (k : Stroke) :
    mainCalls (ks ++ [k]) = mainCalls ks ++ k.deed.mainCalls := by
  rw [mainCalls, List.flatMap_append, List.flatMap_singleton]
  rfl

theorem terminalCalls_concat (ks : List Stroke) (k : Stroke) :
    terminalCalls (ks ++ [k]) = terminalCalls ks ++ k.deed.terminalCalls := by
  rw [terminalCalls, List.flatMap_append, List.flatMap_singleton]
  rfl

end Stroke

namespace Ensemble

variable {start c c' : Console} {d : Dispatcher} {ks : List Stroke} {m' : Machine}
  {t : List Observation}

theorem terminalId_eq (h : Ensemble start ks c) : c.terminalId = start.terminalId := by
  induction h with
  | nil => rfl
  | @snoc ks k earlier ih => rw [k.done.terminalId_eq, ih]

/-- **What every deed keeps holds all the time.** -/
theorem carries {P : List Stroke → Console → Dispatcher → Prop} (h : Ensemble start ks c)
    (together : start.Together d) (begins : P [] start d)
    (goes_on : ∀ earlier k d d', k ∈ ks → k.before.terminalId = start.terminalId →
      k.before.Together d → Went k.before.terminalId d k.deed d' → P earlier k.before d →
      P (earlier ++ [k]) k.after d') : ∃ d', c.Together d' ∧ P ks c d' := by
  induction h with
  | nil => exact ⟨d, together, begins⟩
  | @snoc ks k earlier ih =>
    obtain ⟨d₁, here, holds⟩ := ih fun xs x d d' hx =>
      goes_on xs x d d' (List.mem_append_left _ hx)
    obtain ⟨d₂, there, went⟩ := k.done.went here
    have last : k ∈ ks ++ [k] := List.mem_append_right _ List.mem_cons_self
    exact ⟨d₂, there, goes_on ks k d₁ d₂ last earlier.terminalId_eq here went holds⟩

/-- What led to a stroke of a run is a run. -/
theorem before_of_mem {k : Stroke} (h : Ensemble start ks c) (hk : k ∈ ks) :
    ∃ earlier, Ensemble start earlier k.before := by
  induction h with
  | nil => cases hk
  | @snoc ks last earlier ih =>
    rcases List.mem_append.mp hk with hin | hin
    · exact ih hin
    · obtain rfl := List.mem_singleton.mp hin
      exact ⟨ks, earlier⟩

/-- A play may follow. -/
theorem play {beats : List Beat} (h : Ensemble start ks c) (play : Play c beats c') :
    ∃ more, Ensemble start (ks ++ more) c' ∧
      more.flatMap Stroke.trace = beats.flatMap Beat.trace ∧
      ∀ k ∈ more, ∀ op, k.deed ≠ .other op := by
  induction play with
  | nil => exact ⟨[], by rw [List.append_nil]; exact h, rfl, List.forall_mem_nil _⟩
  | @snoc beats b earlier ih =>
    obtain ⟨more, run, traces, alone⟩ := ih
    rw [List.flatMap_append, List.flatMap_singleton, ← traces]
    rcases (Console.advanced b.done).goes with ⟨silent, same⟩ | ⟨deed, goes, own⟩
    · rw [silent, same, List.append_nil]
      exact ⟨more, run, rfl, alone⟩
    · refine ⟨more ++ [⟨b.before, deed, b.trace, b.after, goes⟩], ?_, ?_, fun k hk => ?_⟩
      · rw [← List.append_assoc]
        exact .snoc run
      · rw [List.flatMap_append, List.flatMap_singleton]
      · rcases List.mem_append.mp hk with hin | hin
        · exact alone k hin
        · obtain rfl := List.mem_singleton.mp hin
          exact own

/-- **Iterations go on with a run**: what either program does in one, as the kernel runs it, is a
    row of further strokes, none of them by another task. -/
def TakesIn (start : Console) (ks : List Stroke) (c : Console) : Prop :=
  (∀ task task' m' t, c.main = ⟨⟨task, false⟩, []⟩ →
    Boot.current c.machine = some Config.mainTask →
    iterate MainTask.act task c.machine = ⟨t, .ok (task', m')⟩ →
    ∃ more, Ensemble start (ks ++ more)
        { c with machine := m', main := ⟨⟨task', false⟩, []⟩ } ∧
      more.flatMap Stroke.trace = t ∧ ∀ k ∈ more, ∀ op, k.deed ≠ .other op) ∧
  (∀ task task' taken m' t, c.terminal = ⟨⟨task, taken⟩, []⟩ →
    Boot.current c.machine = some c.terminalId →
    iterate TerminalTask.act task c.machine = ⟨t, .ok (task', m')⟩ →
    ∃ more taken', Ensemble start (ks ++ more)
        { c with machine := m', terminal := ⟨⟨task', taken'⟩, []⟩ } ∧
      more.flatMap Stroke.trace = t ∧ ∀ k ∈ more, ∀ op, k.deed ≠ .other op)

theorem takesIn (h : Ensemble start ks c) (together : c.Together d) : TakesIn start ks c := by
  constructor
  · intro task task' m' t between current comes
    obtain ⟨beats, played, rfl⟩ :=
      Play.nil.main_iteration between (together.holds current) comes
    exact h.play played
  · intro task task' taken m' t between current comes
    obtain ⟨beats, taken', played, rfl⟩ :=
      Play.nil.terminal_iteration between (together.holds current) comes
    obtain ⟨more, run, traces, alone⟩ := h.play played
    exact ⟨more, taken', run, traces, alone⟩

end Ensemble

/-! ## The beginning -/

namespace Console

/-- **Both programs begin.**  The main task has read the clock at the tick `tick` and is about to
    set the cursor timer for the first time; the terminal is about to wait for its first message.
    Whatever has been asked of the scheduler before. -/
structure Begins (c : Console) (d : Dispatcher) (tick : Nat) : Prop where
  /-- The machine shares the scheduler and the clock. -/
  shares : Shares c.machine d
  /-- Requests have led to the scheduler. -/
  reached : ∃ log, History log d.scheduler
  /-- The terminal's task exists. -/
  known : (d.scheduler.tasks.get? c.terminalId).isSome
  /-- It is not the main task. -/
  apart : c.terminalId ≠ Config.mainTask
  /-- The main task. -/
  main : c.main = ⟨⟨⟨c.terminalId, .fresh⟩, false⟩, [.rearm tick]⟩
  /-- The terminal. -/
  terminal : c.terminal = ⟨⟨⟨c.terminalId, false⟩, []⟩, []⟩

/-- The console on a machine that shares `d`, when both programs begin. -/
def fresh (T : TaskId) (d : Dispatcher) : Console where
  machine := sharing d
  main := ⟨⟨⟨T, .fresh⟩, false⟩, [.rearm d.clock.now]⟩
  terminalId := T
  terminal := ⟨⟨⟨T, false⟩, []⟩, []⟩

theorem fresh_begins {T : TaskId} {d : Dispatcher} {log : List (Request × Response)}
    (history : History log d.scheduler) (known : (d.scheduler.tasks.get? T).isSome)
    (apart : T ≠ Config.mainTask) : (fresh T d).Begins d d.clock.now :=
  ⟨shares_sharing d, ⟨log, history⟩, known, apart, rfl, rfl⟩

theorem Begins.together {c : Console} {d : Dispatcher} {tick : Nat} (h : c.Begins d tick) :
    c.Together d := by
  obtain ⟨log, history⟩ := h.reached
  refine ⟨h.shares, history.sound, h.known, ?_, ?_, ?_, ?_⟩
  · rw [h.main]
  · rw [h.terminal]
  · rw [h.main]
    intro call hcall x hx
    obtain rfl := List.mem_singleton.mp hcall
    cases hx
  · rw [h.terminal]
    exact List.forall_mem_nil _

end Console

namespace Kernel

/-- The main task begins with a look at the clock and its first call. -/
theorem MainTask.start_eq (T : TaskId) :
    MainTask.start T = (do
      let now ← currentTick
      (Call.rearm now).perform
      return ⟨T, .fresh⟩) := by
  simp [start, Call.perform]

/-- **The beginning of the main task**, as the kernel runs it: it reads the clock, and then makes
    the call with which a console begins. -/
theorem Comes.of_start {T : TaskId} {task : MainTask} {m m' : Machine} {d : Dispatcher}
    {t : List Observation} (shares : Shares m d) (h : Comes (MainTask.start T) m t task m') :
    task = ⟨T, .fresh⟩ ∧ ∃ t₁ m₁ t₂, Shares m₁ d ∧
      Comes (Call.rearm d.clock.now).perform m₁ t₂ () m' ∧ t = t₁ ++ t₂ := by
  rw [MainTask.start_eq] at h
  obtain ⟨t₁, now, m₁, t₂, hread, hrest, rfl⟩ := h.of_bind
  obtain ⟨t₃, u, m₂, t₄, hset, hpure, rfl⟩ := hrest.of_bind
  obtain ⟨rfl, rfl, rfl⟩ := hpure.of_pure
  have done : (Operation.currentTick.perform m).outcome = .ok (now, m₁) :=
    congrArg Run.outcome hread
  obtain ⟨change, d', value, became, -⟩ := (Operation.currentTick.faithful shares).2.of_ok done
  cases value
  rw [List.append_nil]
  exact ⟨rfl, t₁, m₁, t₃, became.toShares, hset, rfl⟩

end Kernel

/-- **The main task begins**, as the kernel runs it: it has read the clock when a console begins,
    and what follows is the first stroke of the console. -/
theorem Console.begins_of_start {T : TaskId} {task : MainTask} {m m' : Machine} {d : Dispatcher}
    {t : List Observation} (shares : Shares m d) (reached : ∃ log, History log d.scheduler)
    (known : (d.scheduler.tasks.get? T).isSome) (apart : T ≠ Config.mainTask)
    (current : Boot.current m = some Config.mainTask)
    (comes : MainTask.start T m = ⟨t, .ok (task, m')⟩) :
    ∃ c k, c.terminalId = T ∧ c.Begins d d.clock.now ∧
      Ensemble c [k] { c with machine := m', main := ⟨⟨task, false⟩, []⟩ } := by
  obtain ⟨rfl, t₁, m₁, t₂, shared, sets, rfl⟩ := Comes.of_start shares comes
  rw [shares.current, ← shared.current] at current
  have first : Console.Goes ⟨m₁, ⟨⟨⟨T, .fresh⟩, false⟩, [.rearm d.clock.now]⟩, T,
      ⟨⟨⟨T, false⟩, []⟩, []⟩⟩ (.mainCall (.rearm d.clock.now)) t₂ _ := .mainCalled current rfl sets
  exact ⟨_, ⟨_, _, _, _, first⟩, rfl, ⟨shared, reached, known, apart, rfl, rfl⟩,
    Ensemble.snoc (k := ⟨_, _, _, _, first⟩) .nil⟩

end PreemptiveKernel

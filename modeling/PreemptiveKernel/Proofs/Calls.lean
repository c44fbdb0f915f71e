/-
  What the calls of the kernel do to the machine.

  A program acts on the machine by calls: it waits, sends, sets a timer, prints, writes to the log,
  reads a scancode.  Here each of them is taken apart once, for the runs that come to a value
  (`Comes`): which operation of the shared scheduler or the shared clock has been done, and what
  has been seen at the ports.

  Everything else about a call lies beside the shared state.  Log records, the search for room, the
  serial line and the acknowledgement of an interrupt leave the scheduler, the clock and the
  keyboard alone and read nothing from the keyboard's port (`Machine.Beside`).  Computations of this
  kind can be put together (`Aside`), so the long way of a log record to the serial line never has
  to be followed by whoever asks for the scheduler.
-/
import PreemptiveKernel.Boot.Image
import PreemptiveKernel.Proofs.SerialLine

namespace PreemptiveKernel

/-! ## Runs taken apart -/

/-- A sequence has come to a value, and so both parts have. -/
theorem Run.exists_of_bind {ω α β : Type} {x : Run ω α} {f : α → Run ω β} {t : List ω} {b : β}
    (h : x >>= f = ⟨t, .ok b⟩) :
    ∃ t₁ a t₂, x = ⟨t₁, .ok a⟩ ∧ f a = ⟨t₂, .ok b⟩ ∧ t = t₁ ++ t₂ := by
  obtain ⟨t₁, outcome⟩ := x
  cases outcome with
  | error s =>
    have houtcome := congrArg Run.outcome h
    rw [Run.outcome_bind] at houtcome
    nomatch houtcome
  | ok a =>
    rw [Run.bind_of_ok rfl] at h
    have htrace : t₁ ++ (f a).trace = t := congrArg Run.trace h
    have houtcome : (f a).outcome = .ok b := congrArg Run.outcome h
    exact ⟨t₁, a, (f a).trace, rfl, by rw [← houtcome], htrace.symm⟩

/-- A value may still be put into another form. -/
theorem Run.then_pure {ω α β : Type} {x : Run ω α} {t : List ω} {a : α} (h : x = ⟨t, .ok a⟩)
    (f : α → β) : (x >>= fun a => pure (f a)) = ⟨t, .ok (f a)⟩ := by
  rw [h, Run.bind_of_ok rfl, Run.trace_pure, Run.outcome_pure, List.append_nil]

theorem Run.exists_of_then_pure {ω α β : Type} {x : Run ω α} {f : α → β} {t : List ω} {b : β}
    (h : (x >>= fun a => pure (f a)) = ⟨t, .ok b⟩) : ∃ a, x = ⟨t, .ok a⟩ ∧ b = f a := by
  obtain ⟨t₁, a, t₂, hx, hpure, rfl⟩ := Run.exists_of_bind h
  obtain rfl := congrArg Run.trace hpure
  obtain rfl := Except.ok.inj (congrArg Run.outcome hpure)
  rw [Run.trace_pure, List.append_nil]
  exact ⟨a, hx, rfl⟩

/-! ## What is seen at the ports -/

/-- The bytes that were read from the keyboard, in order. -/
def PortAccess.keyBytes (accesses : List PortAccess) : List UInt8 :=
  accesses.filterMap fun
    | write _ _ => none
    | read p v => if p = KeyboardPort.data then some v else none

theorem PortAccess.keyBytes_eq_nil {accesses : List PortAccess}
    (h : ∀ a ∈ accesses, ∀ v, a ≠ .read KeyboardPort.data v) : keyBytes accesses = [] := by
  unfold keyBytes
  rw [List.filterMap_eq_nil_iff]
  intro a ha
  cases a with
  | write p v => rfl
  | read p v =>
    refine if_neg ?_
    rintro rfl
    exact h _ ha v rfl

/-- The accesses to ports among what was seen. -/
def accessesSeen (t : List Observation) : List PortAccess :=
  t.filterMap fun o =>
    match o.event with
    | .port a => some a
    | _ => none

/-- The bytes that were read from the keyboard while this was seen. -/
def bytesRead (t : List Observation) : List UInt8 :=
  PortAccess.keyBytes (accessesSeen t)

/-- The bytes that went out on the serial line while this was seen. -/
def bytesSent (t : List Observation) : List UInt8 :=
  PortAccess.sentBytes (accessesSeen t)

theorem bytesRead_append (xs ys : List Observation) :
    bytesRead (xs ++ ys) = bytesRead xs ++ bytesRead ys := by
  unfold bytesRead accessesSeen PortAccess.keyBytes
  rw [List.filterMap_append, List.filterMap_append]

/-- Where no port is accessed no byte is read. -/
theorem bytesRead_eq_nil {o : Observation} (h : ∀ a, o.event ≠ .port a) : bytesRead [o] = [] := by
  obtain ⟨e, interrupts, scheduler, clock⟩ := o
  cases e with
  | port a => exact absurd rfl (h a)
  | _ => rfl

/-- **What lies beside the shared state**: the scheduler, the clock and the keyboard are what they
    were, and no byte has been read from the keyboard. -/
structure Machine.Beside (m : Machine) (t : List Observation) (m' : Machine) : Prop where
  scheduler : m'.scheduler = m.scheduler
  clock : m'.clock = m.clock
  keyboard : m'.keyboard = m.keyboard
  unread : bytesRead t = []

theorem Machine.Beside.refl (m : Machine) : m.Beside [] m :=
  ⟨rfl, rfl, rfl, rfl⟩

theorem Machine.Beside.trans {m m₁ m₂ : Machine} {t₁ t₂ : List Observation}
    (h : m.Beside t₁ m₁) (h' : m₁.Beside t₂ m₂) : m.Beside (t₁ ++ t₂) m₂ where
  scheduler := h'.scheduler.trans h.scheduler
  clock := h'.clock.trans h.clock
  keyboard := h'.keyboard.trans h.keyboard
  unread := by rw [bytesRead_append, h.unread, h'.unread, List.append_nil]

namespace Kernel

variable {α β ω : Type} {m m' : Machine} {t : List Observation}

/-! ## Computations that come to a value -/

/-- On the machine `m` the computation comes to `a` and leaves `m'`, and `t` is seen. -/
def Comes (x : Kernel α) (m : Machine) (t : List Observation) (a : α) (m' : Machine) : Prop :=
  x m = ⟨t, .ok (a, m')⟩

theorem Comes.of_bind {x : Kernel α} {f : α → Kernel β} {b : β}
    (h : Comes (x >>= f) m t b m') :
    ∃ t₁ a m₁ t₂, Comes x m t₁ a m₁ ∧ Comes (f a) m₁ t₂ b m' ∧ t = t₁ ++ t₂ := by
  obtain ⟨t₁, ⟨a, m₁⟩, t₂, hx, hf, ht⟩ := Run.exists_of_bind h
  exact ⟨t₁, a, m₁, t₂, hx, hf, ht⟩

theorem Comes.then_pure {x : Kernel α} {a : α} (h : Comes x m t a m') (f : α → β) :
    Comes (x >>= fun a => pure (f a)) m t (f a) m' :=
  Run.then_pure h fun p => (f p.1, p.2)

theorem Comes.exists_of_then_pure {x : Kernel α} {f : α → β} {b : β}
    (h : Comes (x >>= fun a => pure (f a)) m t b m') : ∃ a, Comes x m t a m' ∧ b = f a := by
  obtain ⟨⟨a, m₁⟩, hx, hvalue⟩ := Run.exists_of_then_pure
    (x := x m) (f := fun p => (f p.1, p.2)) h
  obtain ⟨rfl, rfl⟩ := Prod.mk.inj hvalue
  exact ⟨a, hx, rfl⟩

theorem Comes.of_pure {a b : α} (h : Comes (pure a) m t b m') : t = [] ∧ b = a ∧ m' = m := by
  have htrace : [] = t := congrArg Run.trace h
  have hvalue : (a, m) = (b, m') := Except.ok.inj (congrArg Run.outcome h)
  obtain ⟨rfl, rfl⟩ := Prod.mk.inj hvalue
  exact ⟨htrace.symm, rfl, rfl⟩

theorem Comes.of_get {m₁ : Machine} (h : Comes get m t m₁ m') : t = [] ∧ m₁ = m ∧ m' = m := by
  have htrace : [] = t := congrArg Run.trace h
  have hvalue : (m, m) = (m₁, m') := Except.ok.inj (congrArg Run.outcome h)
  obtain ⟨rfl, rfl⟩ := Prod.mk.inj hvalue
  exact ⟨htrace.symm, rfl, rfl⟩

theorem Comes.of_modify {f : Machine → Machine} {u : Unit} (h : Comes (modify f) m t u m') :
    t = [] ∧ m' = f m := by
  have htrace : [] = t := congrArg Run.trace h
  have hvalue : ((), f m) = (u, m') := Except.ok.inj (congrArg Run.outcome h)
  exact ⟨htrace.symm, (Prod.mk.inj hvalue).2.symm⟩

theorem Comes.of_observe {e : Event} {u : Unit} (h : Comes (observe e) m t u m') :
    t = [⟨e, m.interrupts, m.schedulerHeld, m.clockHeld⟩] ∧ m' = m := by
  have htrace : [⟨e, m.interrupts, m.schedulerHeld, m.clockHeld⟩] = t := congrArg Run.trace h
  have hvalue : ((), m) = (u, m') := Except.ok.inj (congrArg Run.outcome h)
  exact ⟨htrace.symm, (Prod.mk.inj hvalue).2.symm⟩

/-- Nothing that stops comes to a value. -/
theorem Comes.of_stop {s : Stop} {a : α} (h : Comes (stop s) m t a m') : False := by
  have houtcome : (.error s : Except Stop (α × Machine)) = .ok (a, m') := congrArg Run.outcome h
  nomatch houtcome

/-- What may stop and sees nothing. -/
theorem Comes.of_except {x : Except Stop α} {a : α}
    (h : Comes (liftM (Run.ofExcept x : Run Observation α)) m t a m') :
    x = .ok a ∧ t = [] ∧ m' = m := by
  obtain ⟨t₁, b, t₂, hx, hpure, rfl⟩ := Run.exists_of_bind h
  have htrace : [] = t₁ := congrArg Run.trace hx
  have hvalue : x = .ok b := congrArg Run.outcome hx
  obtain ⟨rfl, rfl, rfl⟩ := Comes.of_pure (a := b) hpure
  exact ⟨hvalue, by rw [← htrace]; rfl, rfl⟩

/-- Masked work starts with the flag off, and only the flag is touched at its end. -/
theorem Comes.of_masked {x : Kernel α} {a : α} (h : Comes (masked x) m t a m') :
    ∃ m₁, Comes x { m with interrupts := false } t a m₁ ∧
      m' = { m₁ with interrupts := m.interrupts || m₁.interrupts } := by
  unfold Comes at h
  rw [masked_apply] at h
  obtain ⟨t₁, ⟨b, m₁⟩, t₂, hx, hpure, rfl⟩ := Run.exists_of_bind h
  have htrace : [] = t₂ := congrArg Run.trace hpure
  have hvalue := Except.ok.inj (congrArg Run.outcome hpure)
  obtain ⟨rfl, rfl⟩ := Prod.mk.inj hvalue
  refine ⟨m₁, ?_, rfl⟩
  rw [← htrace, List.append_nil]
  exact hx

/-- A run that has been carried over has come to its value, and everything that it let be seen has
    been acted on. -/
theorem Comes.of_replay {act : ω → Kernel Unit} {run : Run ω α} {a : α}
    (h : Comes (replay act run) m t a m') :
    run.outcome = .ok a ∧ Comes (run.trace.forM act) m t () m' := by
  obtain ⟨t₁, u, m₁, t₂, hacts, hrest, rfl⟩ := Comes.of_bind h
  obtain ⟨houtcome, rfl, rfl⟩ := Comes.of_except (x := run.outcome) hrest
  refine ⟨houtcome, ?_⟩
  rw [List.append_nil]
  exact hacts

/-! ## Computations beside the shared state -/

/-- Whatever the computation does lies beside the shared state. -/
def Aside (x : Kernel α) : Prop :=
  ∀ m t a m', Comes x m t a m' → m.Beside t m'

theorem Aside.beside {x : Kernel α} {a : α} (hx : Aside x) (h : Comes x m t a m') :
    m.Beside t m' :=
  hx m t a m' h

theorem aside_pure (a : α) : Aside (pure a : Kernel α) := by
  intro m t b m' h
  obtain ⟨rfl, -, rfl⟩ := h.of_pure
  exact .refl m'

theorem Aside.bind {x : Kernel α} {f : α → Kernel β} (hx : Aside x) (hf : ∀ a, Aside (f a)) :
    Aside (x >>= f) := by
  intro m t b m' h
  obtain ⟨t₁, a, m₁, t₂, hfirst, hlater, rfl⟩ := h.of_bind
  exact (hx.beside hfirst).trans ((hf a).beside hlater)

theorem aside_get : Aside get := by
  intro m t a m' h
  obtain ⟨rfl, -, rfl⟩ := h.of_get
  exact .refl m'

theorem aside_stop (s : Stop) : Aside (stop s : Kernel α) := by
  intro m t a m' h
  exact h.of_stop.elim

theorem aside_observe {e : Event} (he : ∀ v, e ≠ .port (.read KeyboardPort.data v)) :
    Aside (observe e) := by
  intro m t u m' h
  obtain ⟨rfl, rfl⟩ := h.of_observe
  refine ⟨rfl, rfl, rfl, PortAccess.keyBytes_eq_nil ?_⟩
  intro a ha v hread
  cases e with
  | port b =>
    obtain rfl := List.mem_singleton.mp ha
    exact he v (congrArg Event.port hread)
  | _ => nomatch ha

theorem aside_forM {act : ω → Kernel Unit} {os : List ω} (hact : ∀ o ∈ os, Aside (act o)) :
    Aside (os.forM act) := by
  induction os with
  | nil => exact aside_pure _
  | cons o rest ih =>
    exact (hact o List.mem_cons_self).bind fun _ =>
      ih fun x hx => hact x (List.mem_cons_of_mem _ hx)

theorem aside_replay {act : ω → Kernel Unit} {run : Run ω α}
    (hact : ∀ o ∈ run.trace, Aside (act o)) : Aside (replay act run) := by
  intro m t a m' h
  exact (aside_forM hact).beside h.of_replay.2

/-- Accesses that are acted on one by one are seen one by one, and the machine stays. -/
theorem Comes.of_ports {accesses : List PortAccess} {u : Unit}
    (h : Comes (accesses.forM fun a => observe (.port a)) m t u m') :
    accessesSeen t = accesses ∧ m' = m := by
  induction accesses generalizing m t u with
  | nil =>
    obtain ⟨rfl, -, rfl⟩ := Comes.of_pure (a := ()) h
    exact ⟨rfl, rfl⟩
  | cons a rest ih =>
    obtain ⟨t₁, v, m₁, t₂, hfirst, hlater, rfl⟩ := Comes.of_bind
      (x := observe (.port a)) (f := fun _ => rest.forM fun a => observe (.port a)) h
    obtain ⟨rfl, rfl⟩ := hfirst.of_observe
    obtain ⟨hrest, rfl⟩ := ih hlater
    refine ⟨?_, rfl⟩
    rw [← hrest]
    rfl

/-- Neither a write nor a read elsewhere takes a byte from the keyboard. -/
theorem aside_access {accesses : List PortAccess}
    (h : ∀ a ∈ accesses, ∀ v, a ≠ .read KeyboardPort.data v) : Aside (access accesses) := by
  refine aside_forM fun a ha => aside_observe fun v hv => ?_
  exact h a ha v (Event.port.inj hv)

end Kernel

/-! ## The serial line -/

/-- The driver of the serial line reads nothing from the keyboard. -/
theorem Uart.Turns.unread {bytes : List UInt8} {accesses : List PortAccess}
    (h : Uart.Turns bytes accesses) : ∀ a ∈ accesses, ∀ v, a ≠ .read KeyboardPort.data v := by
  rintro a ha v rfl
  rcases h.only _ ha with ⟨answer, hread⟩ | ⟨b, hwrite⟩
  · have hport : KeyboardPort.data = 0x3FD := (PortAccess.read.inj hread).1
    revert hport
    decide
  · nomatch hwrite

namespace Kernel

variable {α β ω : Type} {m m' : Machine} {t : List Observation}

/-- **Printing** lies beside the shared state, and what goes out is the encoding of the text. -/
theorem Comes.of_print {pieces : List String} {u : Unit} (h : Comes (print pieces) m t u m') :
    m.Beside t m' ∧ bytesSent t = pieces.flatMap fun piece => Uart.encode piece.toUTF8.toList := by
  obtain ⟨m₁, hwork, rfl⟩ := Comes.of_masked h
  obtain ⟨t₁, m₀, m₂, t₂, hget, hrest, rfl⟩ := hwork.of_bind
  obtain ⟨rfl, rfl, rfl⟩ := hget.of_get
  obtain ⟨t₃, line, m₃, t₄, hreplay, hmodify, rfl⟩ := hrest.of_bind
  obtain ⟨rfl, rfl⟩ := hmodify.of_modify
  obtain ⟨houtcome, hports⟩ := hreplay.of_replay
  obtain ⟨hseen, rfl⟩ := hports.of_ports
  -- nobody else was printing, or the print would have stopped
  have free : m.uart.locked = false := by
    have houtcome : (m.uart.print pieces).outcome = .ok line := houtcome
    unfold Uart.print at houtcome
    split at houtcome
    · nomatch houtcome
    · rename_i free
      exact Bool.eq_false_iff.mpr free
  obtain ⟨line', delivered⟩ := Uart.delivers_print m.uart free pieces
  have haccesses : accessesSeen ([] ++ (t₃ ++ [])) = (m.uart.print pieces).trace := by
    rw [List.nil_append, List.append_nil]
    exact hseen
  constructor
  · refine ⟨rfl, rfl, rfl, ?_⟩
    unfold bytesRead
    rw [haccesses]
    exact PortAccess.keyBytes_eq_nil delivered.turns.unread
  · unfold bytesSent
    rw [haccesses, delivered.turns.sent, Uart.crlf_join]

theorem aside_print (pieces : List String) : Aside (print pieces) :=
  fun _ _ _ _ h => h.of_print.1

/-! ## The log, memory, and what the shared operations let be seen -/

theorem aside_log (record : Record) : Aside (log record) := by
  refine aside_get.bind fun m => ?_
  dsimp only
  split
  · split
    · exact aside_observe nofun
    · exact aside_print _
    · exact aside_pure ()
    · exact aside_pure ()
  · exact aside_pure ()

theorem aside_note (severity : Severity) (source text : String) :
    Aside (note severity source text) :=
  aside_log _

theorem aside_modify_memory (memory : Memory) :
    Aside (modify fun m => { m with memory := some memory }) := by
  intro m t u m' h
  obtain ⟨rfl, rfl⟩ := h.of_modify
  exact ⟨rfl, rfl, rfl, rfl⟩

theorem aside_provide (what : Need) : Aside (provide what) := by
  refine aside_get.bind fun m => ?_
  split
  · exact aside_pure ()
  · rename_i memory _
    split
    · exact aside_modify_memory _
    · exact aside_stop _

/-- **What an operation lets be seen lies beside the shared state**, if acknowledging does. -/
theorem aside_carry {ack : Kernel Unit} (hack : Aside ack) (run : Run Effect α) :
    Aside (carry ack run) := by
  refine aside_replay fun effect _ => ?_
  cases effect with
  | log record => exact aside_log record
  | acknowledge => exact hack
  | need what => exact aside_provide what

theorem Comes.of_carry {ack : Kernel Unit} {run : Run Effect α} {a : α}
    (h : Comes (carry ack run) m t a m') : run.outcome = .ok a :=
  h.of_replay.1

theorem aside_passOn (change : Option Handoff) : Aside (passOn change) := by
  cases change with
  | none => exact aside_pure ()
  | some change => exact aside_observe nofun

theorem aside_warnIfRefused (text : KernelError → String) (answer : Answer α) :
    Aside (warnIfRefused text answer) := by
  cases answer with
  | ok a => exact aside_pure ()
  | error e => exact aside_note _ _ _

/-! ## The shared scheduler and the shared clock -/

/-- Whoever has taken a lock has found it free. -/
theorem Comes.of_acquire {σ : Type} {lock : Lock σ} {v : σ} (h : Comes (acquire lock) m t v m') :
    lock.find m = some ⟨v, false⟩ ∧ t = [] ∧ m' = lock.store (some ⟨v, true⟩) m := by
  unfold Comes at h
  cases found : lock.find m with
  | none =>
    rw [acquire_of_missing found] at h
    nomatch congrArg Run.outcome h
  | some locked =>
    obtain ⟨w, held⟩ := locked
    cases held with
    | true =>
      rw [acquire_of_held found] at h
      nomatch congrArg Run.outcome h
    | false =>
      rw [acquire_of_free found] at h
      have htrace : [] = t := congrArg Run.trace h
      obtain ⟨rfl, rfl⟩ := Prod.mk.inj (Except.ok.inj (congrArg Run.outcome h))
      exact ⟨rfl, htrace.symm, rfl⟩

/-- What is done alone: the lock was free, it is taken, the work is done under the mask, and it is
    left. -/
theorem Comes.of_withLock {σ : Type} (lock : Lock σ) {f : σ → Kernel (α × σ)} {a : α}
    (used : ∀ x, lock.used ≠ .port x) (h : Comes (withLock lock f) m t a m') :
    ∃ v v' t₁ m₁, lock.find { m with interrupts := false } = some ⟨v, false⟩ ∧
      Comes (f v) (lock.store (some ⟨v, true⟩) { m with interrupts := false }) t₁ (a, v') m₁ ∧
      m' = { lock.store (some ⟨v', false⟩) m₁ with
        interrupts := m.interrupts || (lock.store (some ⟨v', false⟩) m₁).interrupts } ∧
      bytesRead t = bytesRead t₁ := by
  obtain ⟨m₂, hwork, rfl⟩ := Comes.of_masked h
  obtain ⟨t₃, v, m₃, t₄, htake, hused, rfl⟩ := hwork.of_bind
  obtain ⟨free, rfl, rfl⟩ := htake.of_acquire
  obtain ⟨t₅, u, m₄, t₆, hobserve, hdone, rfl⟩ := hused.of_bind
  obtain ⟨rfl, rfl⟩ := hobserve.of_observe
  obtain ⟨t₇, ⟨b, v'⟩, m₅, t₈, hf, hfree, rfl⟩ := hdone.of_bind
  obtain ⟨t₉, w, m₆, t₁₀, hleave, hpure, rfl⟩ := hfree.of_bind
  obtain ⟨rfl, rfl⟩ := hleave.of_modify
  obtain ⟨rfl, rfl, rfl⟩ := hpure.of_pure
  refine ⟨v, v', t₇, m₅, free, hf, rfl, ?_⟩
  rw [List.nil_append, List.append_nil, List.append_nil, bytesRead_append,
    bytesRead_eq_nil (o := ⟨lock.used, _, _, _⟩) used, List.nil_append]

/-- Whoever has used the shared scheduler has found its lock free and has left it free. -/
theorem Comes.of_withScheduler {f : Scheduler → Kernel (α × Scheduler)} {a : α}
    (h : Comes (withScheduler f) m t a m') :
    ∃ s s' t₁ m₁, m.scheduler = some ⟨s, false⟩ ∧
      Comes (f s) { m with interrupts := false, scheduler := some ⟨s, true⟩ } t₁ (a, s') m₁ ∧
      m' = { m₁ with scheduler := some ⟨s', false⟩, interrupts := m.interrupts || m₁.interrupts } ∧
      bytesRead t = bytesRead t₁ :=
  Comes.of_withLock .scheduler nofun h

/-- Whoever has used the shared clock has found its lock free and has left it free. -/
theorem Comes.of_withClock {f : Clock → Kernel (α × Clock)} {a : α}
    (h : Comes (withClock f) m t a m') :
    ∃ c c' t₁ m₁, m.clock = some ⟨c, false⟩ ∧
      Comes (f c) { m with interrupts := false, clock := some ⟨c, true⟩ } t₁ (a, c') m₁ ∧
      m' = { m₁ with clock := some ⟨c', false⟩, interrupts := m.interrupts || m₁.interrupts } ∧
      bytesRead t = bytesRead t₁ :=
  Comes.of_withLock .clock nofun h

/-- **The shared scheduler has gone from `s` to `s'`**: its lock is free before and after, and the
    keyboard has not been touched. -/
structure Moved (m : Machine) (s : Scheduler) (t : List Observation) (s' : Scheduler)
    (m' : Machine) : Prop where
  free : m.scheduler = some ⟨s, false⟩
  left : m'.scheduler = some ⟨s', false⟩
  keyboard : m'.keyboard = m.keyboard
  unread : bytesRead t = []

/-- There is only one shared scheduler. -/
theorem Moved.eq_of_free {s₁ s s' : Scheduler} (h : Moved m s₁ t s' m')
    (free : m.scheduler = some ⟨s, false⟩) : s₁ = s := by
  have hlocks : some (Locked.mk s₁ false) = some (Locked.mk s false) := h.free.symm.trans free
  exact congrArg Locked.value (Option.some.inj hlocks)

/-- What lies beside the shared state may follow. -/
theorem Moved.beside {m₁ : Machine} {s s' : Scheduler} {t₁ : List Observation}
    (h : Moved m s t s' m₁) (later : m₁.Beside t₁ m') : Moved m s (t ++ t₁) s' m' where
  free := h.free
  left := later.scheduler.trans h.left
  keyboard := later.keyboard.trans h.keyboard
  unread := by rw [bytesRead_append, h.unread, later.unread, List.append_nil]

/-- **An operation of the shared scheduler** is the operation of the same name. -/
theorem Comes.of_useScheduler {f : Scheduler → Run Effect (α × Scheduler)} {a : α}
    (h : Comes (useScheduler f) m t a m') :
    ∃ s s', (f s).outcome = .ok (a, s') ∧ Moved m s t s' m' ∧ m'.clock = m.clock := by
  obtain ⟨s, s', t₁, m₁, hfree, hf, rfl, hread⟩ := Comes.of_withScheduler h
  have hbeside := (aside_carry (aside_pure ()) (f s)).beside hf
  exact ⟨s, s', hf.of_carry, ⟨hfree, rfl, hbeside.keyboard, hread.trans hbeside.unread⟩,
    hbeside.clock⟩

/-- A change of the current task is carried out when the lock is free again. -/
theorem Comes.of_switchWith {f : Scheduler → Run Effect (α × Option Handoff × Scheduler)} {a : α}
    (h : Comes (switchWith f) m t a m') :
    ∃ s change s', (f s).outcome = .ok (a, change, s') ∧ Moved m s t s' m' ∧
      m'.clock = m.clock := by
  obtain ⟨m₁, hwork, rfl⟩ := Comes.of_masked h
  obtain ⟨t₁, ⟨b, change⟩, m₂, t₂, huse, hrest, rfl⟩ := hwork.of_bind
  obtain ⟨t₃, u, m₃, t₄, hpass, hpure, rfl⟩ := hrest.of_bind
  obtain ⟨rfl, rfl, rfl⟩ := hpure.of_pure
  obtain ⟨s, s', hf, hmoved, hclock⟩ := huse.of_useScheduler
  obtain ⟨⟨b', change', s₁⟩, hf', hpair⟩ := Run.outcome_bind_eq_ok_iff.mp hf
  obtain ⟨hvalue, rfl⟩ := Prod.mk.inj (Except.ok.inj hpair)
  obtain ⟨rfl, rfl⟩ := Prod.mk.inj hvalue
  have hpassed := (aside_passOn change').beside hpass
  obtain ⟨hfree, hleft, hkeyboard, hunread⟩ := hmoved.beside hpassed
  rw [List.append_nil]
  exact ⟨s, change', s₁, hf', ⟨hfree, hleft, hkeyboard, hunread⟩, hpassed.clock.trans hclock⟩

/-- **An operation of the shared clock** leaves the scheduler alone. -/
theorem Comes.of_useClock {f : Clock → Run Effect (α × Clock)} {a : α}
    (h : Comes (useClock f) m t a m') :
    ∃ c c', (f c).outcome = .ok (a, c') ∧ m.clock = some ⟨c, false⟩ ∧
      m'.clock = some ⟨c', false⟩ ∧ m'.scheduler = m.scheduler ∧ m'.keyboard = m.keyboard ∧
      bytesRead t = [] := by
  obtain ⟨c, c', t₁, m₁, hfree, hf, rfl, hread⟩ := Comes.of_withClock h
  have hbeside := (aside_carry (aside_pure ()) (f c)).beside hf
  exact ⟨c, c', hf.of_carry, hfree, rfl, hbeside.scheduler, hbeside.keyboard,
    hread.trans hbeside.unread⟩

/-! ## The calls of the programs -/

theorem Comes.of_send {id : TaskId} {message : Message} {answer : Answer Unit}
    (h : Comes (send id message) m t answer m') :
    ∃ s s', (s.send id message).outcome = .ok (answer, s') ∧ Moved m s t s' m' ∧
      m'.clock = m.clock := by
  obtain ⟨t₁, b, m₁, t₂, huse, hrest, rfl⟩ := h.of_bind
  obtain ⟨t₃, u, m₂, t₄, hwarn, hpure, rfl⟩ := hrest.of_bind
  obtain ⟨rfl, rfl, rfl⟩ := hpure.of_pure
  obtain ⟨s, s', hsend, hmoved, hclock⟩ := huse.of_useScheduler
  have hwarned := (aside_warnIfRefused _ _).beside hwarn
  rw [List.append_nil]
  exact ⟨s, s', hsend, hmoved.beside hwarned, hwarned.clock.trans hclock⟩

theorem Comes.of_waitStep {taken : Option Message} (h : Comes waitStep m t taken m') :
    ∃ s change s', s.waitStep.outcome = .ok (taken, change, s') ∧ Moved m s t s' m' ∧
      m'.clock = m.clock :=
  Comes.of_switchWith h

/-- Reading a scancode takes the first byte that waits, and the scheduler is not asked. -/
theorem Comes.of_readScancode {byte : Option UInt8} (h : Comes readScancode m t byte m') :
    m'.scheduler = m.scheduler ∧ m'.clock = m.clock ∧ bytesRead t = byte.toList ∧
      byte.toList ++ m'.keyboard.buffer = m.keyboard.buffer ∧
      (byte = none → m.keyboard.buffer = []) := by
  obtain ⟨t₁, m₀, m₁, t₂, hget, hrest, rfl⟩ := h.of_bind
  obtain ⟨rfl, rfl, rfl⟩ := hget.of_get
  obtain ⟨t₃, ⟨b, port⟩, m₂, t₄, hreplay, hlater, rfl⟩ := hrest.of_bind
  obtain ⟨t₅, u, m₃, t₆, hmodify, hpure, rfl⟩ := hlater.of_bind
  obtain ⟨rfl, rfl⟩ := hmodify.of_modify
  obtain ⟨rfl, rfl, rfl⟩ := hpure.of_pure
  obtain ⟨houtcome, hports⟩ := hreplay.of_replay
  obtain ⟨hseen, rfl⟩ := hports.of_ports
  have hread : bytesRead ([] ++ (t₃ ++ ([] ++ []))) =
      PortAccess.keyBytes (m₂.keyboard.read).trace := by
    rw [List.nil_append, List.append_nil, List.append_nil]
    unfold bytesRead
    rw [hseen]
  refine ⟨rfl, rfl, ?_⟩
  rw [hread]
  unfold KeyboardPort.read at houtcome ⊢
  cases hbuffer : m₂.keyboard.buffer with
  | nil =>
    rw [hbuffer] at houtcome
    obtain ⟨rfl, rfl⟩ := Prod.mk.inj (Except.ok.inj houtcome)
    exact ⟨rfl, hbuffer, fun _ => rfl⟩
  | cons first rest =>
    rw [hbuffer] at houtcome
    obtain ⟨rfl, rfl⟩ := Prod.mk.inj (Except.ok.inj houtcome)
    exact ⟨rfl, rfl, nofun⟩

/-! ## Interrupts -/

theorem aside_acknowledge (line : UInt8) : Aside (access (Pic.acknowledge line)) := by
  refine aside_access fun a ha v heq => ?_
  obtain ⟨⟨p, w⟩, -, rfl⟩ := List.mem_map.mp ha
  nomatch heq

/-- **A timer interrupt** is what it is for a scheduler and a clock of one's own. -/
theorem Comes.of_timerInterrupt {ack : Kernel Unit} {u : Unit} (hack : Aside ack)
    (h : Comes (timerInterrupt ack) m t u m') :
    ∃ s s' c c' change, (Interrupt.onTimer c s).outcome = .ok (change, c', s') ∧
      Moved m s t s' m' ∧ m.clock = some ⟨c, false⟩ ∧ m'.clock = some ⟨c', false⟩ := by
  obtain ⟨m₁, hwork, rfl⟩ := Comes.of_masked h
  obtain ⟨t₁, change, m₂, t₂, hboth, hpass, rfl⟩ := hwork.of_bind
  have hpassed := (aside_passOn change).beside hpass
  obtain ⟨c, c', t₃, m₃, hclock, hsched, rfl, hread⟩ := hboth.of_withClock
  obtain ⟨s, s', t₄, m₄, hfree, hcarried, rfl, hread'⟩ := hsched.of_withScheduler
  obtain ⟨t₅, ⟨change', c₁, s₁⟩, m₅, t₆, hcarry, hpure, rfl⟩ := hcarried.of_bind
  obtain ⟨rfl, hvalue, rfl⟩ := hpure.of_pure
  obtain ⟨hpair, rfl⟩ := Prod.mk.inj hvalue
  obtain ⟨rfl, rfl⟩ := Prod.mk.inj hpair
  have hbeside := (aside_carry hack (Interrupt.onTimer c s)).beside hcarry
  have hunread : bytesRead t₁ = [] := by
    rw [hread, hread', List.append_nil]
    exact hbeside.unread
  refine ⟨s, s', c, c', change, hcarry.of_carry, ⟨hfree, hpassed.scheduler,
    hpassed.keyboard.trans hbeside.keyboard, ?_⟩, hclock, hpassed.clock⟩
  rw [bytesRead_append, hunread, hpassed.unread, List.append_nil]

/-- **A device interrupt** is what it is for a scheduler of one's own. -/
theorem Comes.of_deviceInterrupt {device : Device} {ack : Kernel Unit} {u : Unit}
    (hack : Aside ack) (h : Comes (deviceInterrupt device ack) m t u m') :
    ∃ s s', (Interrupt.onDevice s s.config.receiver device).outcome = .ok s' ∧
      Moved m s t s' m' ∧ m'.clock = m.clock := by
  obtain ⟨m₁, hwork, rfl⟩ := Comes.of_masked h
  obtain ⟨s, s', t₁, m₂, hfree, hcarried, rfl, hread⟩ := hwork.of_withScheduler
  obtain ⟨t₂, s₁, m₃, t₃, hcarry, hpure, rfl⟩ := hcarried.of_bind
  obtain ⟨rfl, hvalue, rfl⟩ := hpure.of_pure
  obtain ⟨-, rfl⟩ := Prod.mk.inj hvalue
  have hbeside := (aside_carry hack (Interrupt.onDevice s s.config.receiver device)).beside hcarry
  refine ⟨s, s', hcarry.of_carry, ⟨hfree, rfl, hbeside.keyboard, ?_⟩, hbeside.clock⟩
  rw [hread, List.append_nil]
  exact hbeside.unread

/-- The processor takes an interrupt: apart from the flag, what its handler does is done. -/
theorem Comes.of_take {i : Interrupt} {u : Unit} (h : Comes (Boot.take i) m t u m') :
    ∃ m₁, Comes (handle i) { m with interrupts := false } t () m₁ ∧
      m' = { m₁ with interrupts := m.interrupts } := by
  obtain ⟨t₁, m₀, m₁, t₂, hget, hrest, rfl⟩ := h.of_bind
  obtain ⟨rfl, rfl, rfl⟩ := hget.of_get
  obtain ⟨t₃, v, m₂, t₄, hmask, hlater, rfl⟩ := hrest.of_bind
  obtain ⟨rfl, rfl⟩ := hmask.of_modify
  obtain ⟨t₅, w, m₃, t₆, hhandle, hrestore, rfl⟩ := hlater.of_bind
  obtain ⟨rfl, rfl⟩ := hrestore.of_modify
  refine ⟨m₃, ?_, rfl⟩
  rw [List.append_nil]
  exact hhandle

end Kernel

end PreemptiveKernel

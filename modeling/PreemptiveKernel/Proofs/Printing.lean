/-
  What printing does.

  A print takes the lock of the serial line and hands the pieces of its text to the driver, with
  interrupts masked.  A held lock keeps it from beginning, and only that; a forced print takes the
  lock away first, and goes on in the same way.  So what a print sends is what the driver makes of
  the whole text (`delivers_print`), and on the machine nothing else is seen of it (`comes_print`).
-/
import PreemptiveKernel.Proofs.Calls

namespace PreemptiveKernel

/-! ## The machine -/

namespace Kernel

/-- An access to a port, as it is seen with interrupts masked. -/
def maskedAccess (m : Machine) (a : PortAccess) : Observation :=
  ⟨.port a, false, m.schedulerHeld, m.clockHeld⟩

theorem comes_ports (m : Machine) (accesses : List PortAccess) :
    Comes (accesses.forM fun a => observe (.port a)) m
      (accesses.map fun a => ⟨.port a, m.interrupts, m.schedulerHeld, m.clockHeld⟩) () m := by
  induction accesses with
  | nil => rfl
  | cons a rest ih =>
    show (observe (.port a) >>= fun _ => rest.forM fun a => observe (.port a)) m = _
    rw [bind_apply, observe_apply, bind_assoc, Run.bind_of_ok (a := ()) rfl, pure_bind, ih]
    rfl

/-- **Printing on the machine** is the print of its line and nothing else, with interrupts
    masked. -/
theorem comes_print {m : Machine} {pieces : List String} {u : Uart}
    (done : (m.uart.print pieces).outcome = .ok u) :
    Comes (print pieces) m ((m.uart.print pieces).trace.map (maskedAccess m)) ()
      { m with uart := u } := by
  have hports := comes_ports { m with interrupts := false } (m.uart.print pieces).trace
  unfold Comes at hports ⊢
  have hreplay : replay (fun a => observe (.port a)) (m.uart.print pieces)
      { m with interrupts := false } =
      ⟨(m.uart.print pieces).trace.map (maskedAccess m), .ok (u, { m with interrupts := false })⟩ := by
    unfold replay
    rw [bind_apply, hports, done, Run.bind_of_ok rfl]
    show (⟨_ ++ [], _⟩ : Run Observation (Uart × Machine)) = _
    rw [List.append_nil]
    rfl
  unfold print
  rw [masked_apply, bind_apply, get_apply, pure_bind, bind_apply, hreplay, Run.bind_of_ok rfl,
    Run.bind_of_ok rfl]
  -- neither the line that is put back nor the end of the mask is seen
  show (⟨((m.uart.print pieces).trace.map (maskedAccess m) ++ []) ++ [],
    .ok ((), { m with interrupts := m.interrupts || false, uart := u })⟩ :
      Run Observation (Unit × Machine)) = _
  rw [List.append_nil, List.append_nil, Bool.or_false]

end Kernel

/-! ## Every text -/

namespace Uart

/-- **The run sends the text** over the line `u`. -/
structure Transmits (u : Uart) (text : String) (run : Run PortAccess Uart) : Prop where
  /-- The bytes of the text have their turns, a carriage return before every line feed. -/
  turns : Turns (crlf text.toUTF8.toList) run.trace
  /-- They are what goes out. -/
  sent : PortAccess.sentBytes run.trace = crlf text.toUTF8.toList
  /-- Nothing but the line status is read, and nothing but the data are written. -/
  only : ∀ a ∈ run.trace, (∃ answer, a = .read 0x3FD answer) ∨ ∃ b, a = .write 0x3F8 b
  /-- Without the carriage returns before line feeds it is the text again. -/
  recovered : dropReturns (PortAccess.sentBytes run.trace) = text.toUTF8.toList
  /-- It comes to an end, and then nobody is printing.  The answers of the line status have been
      read in the order in which the device gives them, and none has been left out.  If they say
      often enough that the sender is free, these are all that have been read; only what is missing
      for the text is read behind them. -/
  done : ∃ u', run.outcome = .ok u' ∧ u'.locked = false ∧
    answers run.trace ++ u'.status = u.status ++ List.replicate
      ((crlf text.toUTF8.toList).length - u.status.countP isFree) 0x20

theorem Delivers.transmits {u v u' : Uart} {text : String} {run : Run PortAccess Uart}
    (h : Delivers v (crlf text.toUTF8.toList) run u') (free : v.locked = false)
    (status : v.status = u.status) : u.Transmits text run where
  turns := h.turns
  sent := h.turns.sent
  only := h.turns.only
  recovered := by rw [h.turns.sent, dropReturns_crlf]
  done := ⟨u', h.done, h.locked.trans free, status ▸ h.answered⟩

/-- **What printing the pieces of a text comes to** on the line `u`. -/
structure Prints (u : Uart) (pieces : List String) : Prop where
  /-- A print sends the text, if nobody else is printing. -/
  print : u.locked = false → u.Transmits (String.join pieces) (u.print pieces)
  /-- A forced print sends it in any case. -/
  forced : u.Transmits (String.join pieces) (u.printForced pieces)
  /-- The same goes out over every line and for every way to cut the text into pieces. -/
  same : ∀ (v : Uart) (others : List String), String.join others = String.join pieces →
    PortAccess.sentBytes (v.printForced others).trace =
      PortAccess.sentBytes (u.printForced pieces).trace
  /-- On the machine nothing else is seen of a print, and interrupts are masked all the while. -/
  machine : ∀ m : Machine, m.uart = u → u.locked = false → ∃ u',
    Kernel.Comes (Kernel.print pieces) m ((u.print pieces).trace.map (Kernel.maskedAccess m)) ()
      { m with uart := u' }

/-- A forced print sends the text, whoever is printing. -/
theorem transmits_printForced (u : Uart) (pieces : List String) :
    u.Transmits (String.join pieces) (u.printForced pieces) := by
  obtain ⟨u', forced⟩ := delivers_print { u with locked := false } rfl pieces
  exact forced.transmits rfl rfl

/-- **Texts go out as they are**, a carriage return before every line feed, over every line and in
    whatever pieces they come. -/
theorem text_goes_out (u : Uart) (pieces : List String) : u.Prints pieces where
  print := by
    intro free
    obtain ⟨u', delivered⟩ := delivers_print u free pieces
    exact delivered.transmits free rfl
  forced := transmits_printForced u pieces
  same := by
    intro v others whole
    rw [(transmits_printForced v others).sent, (transmits_printForced u pieces).sent, whole]
  machine := by
    rintro m rfl free
    obtain ⟨u', delivered⟩ := delivers_print m.uart free pieces
    exact ⟨u', Kernel.comes_print delivered.done⟩

/-- The lock is held, and the device lets each byte wait for a while; behind its answers it is
    always free.  The text comes in two pieces. -/
theorem text_goes_out_over_held_line :
    (printForced ⟨[0x00, 0x60, 0x1F, 0xFF], true⟩ ["a", "\n"]).trace =
      [.read 0x3FD 0x00, .read 0x3FD 0x60, .write 0x3F8 0x61,
        .read 0x3FD 0x1F, .read 0x3FD 0xFF, .write 0x3F8 0x0D,
        .read 0x3FD 0x20, .write 0x3F8 0x0A] ∧
    PortAccess.sentBytes (printForced ⟨[0x00, 0x60, 0x1F, 0xFF], true⟩ ["a", "\n"]).trace =
      crlf ("a\n").toUTF8.toList ∧
    Transmits ⟨[0x00], false⟩ "a\n" (print ⟨[0x00], false⟩ ["a\n"]) :=
  ⟨by decide +kernel,
    (text_goes_out ⟨[0x00, 0x60, 0x1F, 0xFF], true⟩ ["a", "\n"]).forced.sent,
    (text_goes_out ⟨[0x00], false⟩ ["a\n"]).print rfl⟩

end Uart

end PreemptiveKernel

/-
  What a machine is seen to do while the image boots and runs.

  The history of a machine is cut into segments: one up to the point where the counter
  first runs, and one for everything that happens after that.  When the kernel stops, its
  last words go out on the serial line, the machine halts, and there are no more segments.
  Nor are there segments behind that of the last thing that does happen.

  In a segment the bytes on the serial line are put together to texts.  A byte written to
  the data port is text only while the port does not stand for the divisor of the line's
  speed, which the line control register decides.  Reads of the line status are left out, and
  so are places in the text that depend on how the image was built.
-/
import PreemptiveKernel.Boot.Image
import PreemptiveKernel.Boot.Redaction

namespace PreemptiveKernel.Boot

/-- One item of a transcript. -/
inductive Item
  /-- Text on the serial line. -/
  | text (s : String)
  /-- Something else that was seen. -/
  | event (e : Event)
  deriving DecidableEq, Repr

/-- How a history ends. -/
inductive Ending
  /-- Nothing more happens. -/
  | running
  /-- The kernel has stopped. -/
  | halted
  deriving DecidableEq, Repr

/-- Bytes as text, as far as it is shown: every byte is the character with its number. -/
def textOf (bytes : List UInt8) : String :=
  String.ofList (Redaction.shownText (bytes.map fun b => Char.ofNat b.toNat))

/-- The collected bytes as an item, if there are any. -/
def flush (bytes : List UInt8) : List Item :=
  if bytes.isEmpty then [] else [.text (textOf bytes)]

/-- The register that decides what the data port stands for. -/
def lineControl : UInt16 := Uart.data + 3

/-- The bit of it that makes the data port stand for the divisor. -/
def divisorLatch : UInt8 := 0x80

/-- Puts events together to items; `latch` says that the data port stands for the divisor,
    and `bytes` are the bytes of text since the last item. -/
def itemsFrom (latch : Bool) (bytes : List UInt8) : List Event → List Item
  | [] => flush bytes
  | .port (.write p v) :: rest =>
    if p = Uart.data && !latch then itemsFrom latch (bytes ++ [v]) rest
    else
      let latch := if p = lineControl then v &&& divisorLatch != 0 else latch
      flush bytes ++ .event (.port (.write p v)) :: itemsFrom latch [] rest
  | .port (.read p v) :: rest =>
    if p = Uart.lineStatus then itemsFrom latch bytes rest
    else flush bytes ++ .event (.port (.read p v)) :: itemsFrom latch [] rest
  | .schedulerUsed :: rest => itemsFrom latch bytes rest
  | .clockUsed :: rest => itemsFrom latch bytes rest
  | e :: rest => flush bytes ++ .event e :: itemsFrom latch [] rest

/-- The items of a list of events. -/
def items (events : List Event) : List Item :=
  itemsFrom false [] events

/-- What goes out on the serial line when the kernel stops. -/
def lastWords (s : Stop) : List Event :=
  (Uart.printForced .ready [Uart.stopReport ("panicked\n" ++ s.message)]).trace.map .port

/-- What was seen in a run, with the last words if it stopped. -/
def eventsOf {α : Type} (run : Run Observation α) : List Event :=
  run.trace.map Observation.event ++
    match run.outcome with
    | .ok _ => []
    | .error s => lastWords s

/-- The segments from a state of the image on; none if nothing is going to happen. -/
def segmentsFrom : List Happening → Image → Machine → List (List Item) × Ending
  | [], _, _ => ([], .running)
  | h :: rest, image, m =>
    if (h :: rest).all Happening.isNothing then ([], .running)
    else
      let run := (happen image h) m
      let segment := items (eventsOf run)
      match run.outcome with
      | .error _ => ([segment], .halted)
      | .ok (image, m) =>
        let (segments, ending) := segmentsFrom rest image m
        (segment :: segments, ending)

/-- The whole history of a machine on which the image is booted. -/
def transcript (loader : Loader) (happenings : List Happening) :
    List (List Item) × Ending :=
  let run := (boot loader) (bareMachine loader)
  let segment := items (eventsOf run)
  match run.outcome with
  | .error _ => ([segment], .halted)
  | .ok (image, m) =>
    let (segments, ending) := segmentsFrom happenings image m
    (segment :: segments, ending)

end PreemptiveKernel.Boot

/-
  What a transcript leaves out of the text on the serial line.

  Where the image lies in memory is not a fact of the program, and neither is where in its own
  text it stopped.  The kernel prints such places at the end of a line and behind fixed words:
  the addresses of a new task behind ` rip=0x`, the place of a stop behind the heading of the
  report and ` at `.  A line ends in front of those words when it is shown; the heading stays.

  Only the text decides.  A line that somebody typed is cut like one that the kernel wrote.
-/

namespace PreemptiveKernel.Boot.Redaction

/-- What stands before addresses. -/
def addressMark : List Char := " rip=0x".toList

/-- What the report of a stop begins with. -/
def stopHeading : List Char := "[KERNEL PANIC] panicked".toList

/-- What stands between the heading of a report and the place of the stop. -/
def placeMark : List Char := " at ".toList

/-- A text up to the first mark that stands behind `kept`, without the mark; all of it if
    there is none. -/
def cutBehind (kept mark : List Char) : List Char → List Char
  | [] => []
  | c :: rest =>
    if (kept ++ mark).isPrefixOf (c :: rest) then kept else c :: cutBehind kept mark rest

/-- What is shown of a line. -/
def shown (line : List Char) : List Char :=
  cutBehind stopHeading placeMark (cutBehind [] addressMark line)

/-- What is shown of a text that goes on with a line of which `line` is there already.  Lines
    end with a carriage return; the line feed behind it does no harm in front of the next. -/
def shownFrom (line : List Char) : List Char → List Char
  | [] => shown line
  | c :: rest =>
    if c = '\r' then shown line ++ c :: shownFrom [] rest else shownFrom (line ++ [c]) rest

/-- What is shown of a text. -/
def shownText (text : List Char) : List Char :=
  shownFrom [] text

theorem cutBehind_isPrefix (kept mark text : List Char) : cutBehind kept mark text <+: text := by
  induction text with
  | nil => exact List.nil_prefix
  | cons c rest ih =>
    rw [cutBehind]
    split
    · rename_i h
      exact (List.prefix_append kept mark).trans (List.isPrefixOf_iff_prefix.mp h)
    · exact (List.prefix_cons_inj c).mpr ih

/-- Only the end of a line is left out. -/
theorem shown_isPrefix (line : List Char) : shown line <+: line :=
  (cutBehind_isPrefix _ _ _).trans (cutBehind_isPrefix _ _ _)

example : shownText "task #2 context: rip=0x1 rsp=0x2\r\nnext".toList =
    "task #2 context:\r\nnext".toList := by decide

example : shownText "\r\n[KERNEL PANIC] panicked at line 7:\r\nno room\r\n".toList =
    "\r\n[KERNEL PANIC] panicked\r\nno room\r\n".toList := by decide

end PreemptiveKernel.Boot.Redaction

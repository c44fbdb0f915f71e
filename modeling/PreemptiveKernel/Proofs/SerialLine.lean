/-
  What the driver of the serial line does.

  The bytes of a text go out one after the other, a carriage return before every line feed, each
  of them in its turn: the line status is read until it says that the sender is free, and right
  after that the byte is written (`Turn`).  Nothing else is accessed (`Turns.only`).

  The line has a say in how often its status is read and in nothing else.  Its answers are read in
  the order in which it gives them, none is skipped and none is read ahead, so a list of answers
  stands for every device that lets each byte go sometime.  What is sent one after the other takes
  its answers one after the other (`Delivers.bind`), which carries this from a byte to a text.

  How a text is cut into pieces makes no difference at all, not even for the reads of the status
  (`writePieces_eq`): the bytes of a text are those of its pieces (`utf8_append`), and the answers
  that are still to come are all that the line remembers of what has been sent.
-/
import PreemptiveKernel.Uart

namespace PreemptiveKernel

open Run

/-! ## The bytes of a text -/

theorem toList_loop_eq (bytes : ByteArray) (i : Nat) (acc : List UInt8) :
    ByteArray.toList.loop bytes i acc = acc.reverse ++ bytes.data.toList.drop i := by
  induction i, acc using ByteArray.toList.loop.induct bytes with
  | case1 i acc inside ih =>
    have hlen : i < bytes.data.toList.length := by
      rw [Array.length_toList]
      exact inside
    have hget : bytes.get! i = bytes.data.toList[i] := by
      rw [Array.getElem_toList]
      exact getElem!_pos bytes.data i inside
    rw [ByteArray.toList.loop, if_pos inside, ih, List.drop_eq_getElem_cons hlen, hget,
      List.reverse_cons, List.append_assoc]
    rfl
  | case2 i acc outside =>
    have hlen : bytes.data.toList.length ≤ i := by
      rw [Array.length_toList]
      exact Nat.le_of_not_lt outside
    rw [ByteArray.toList.loop, if_neg outside, List.drop_eq_nil_of_le hlen, List.append_nil]

theorem toList_eq_data (bytes : ByteArray) : bytes.toList = bytes.data.toList :=
  toList_loop_eq bytes 0 []

/-- **The bytes of a text** are those of its parts. -/
theorem utf8_append (s t : String) :
    (s ++ t).toUTF8.toList = s.toUTF8.toList ++ t.toUTF8.toList := by
  have happend : (s ++ t).toUTF8 = s.toUTF8 ++ t.toUTF8 := String.toByteArray_append
  rw [happend, toList_eq_data, toList_eq_data, toList_eq_data, ByteArray.data_append,
    Array.toList_append]

namespace Uart

/-! ## Line ends -/

/-- Puts a carriage return before every line feed. -/
def crlf (bytes : List UInt8) : List UInt8 :=
  bytes.flatMap fun b => if b = 0x0A then [0x0D, 0x0A] else [b]

/-- Drops every carriage return that stands directly before a line feed. -/
def dropReturns : List UInt8 → List UInt8
  | [] => []
  | b :: rest =>
    if b = 0x0D ∧ rest.head? = some 0x0A then dropReturns rest else b :: dropReturns rest

theorem crlf_cons (b : UInt8) (rest : List UInt8) :
    crlf (b :: rest) = (if b = 0x0A then [0x0D, 0x0A] else [b]) ++ crlf rest :=
  List.flatMap_cons

theorem encode_eq_crlf (bytes : List UInt8) : encode bytes = crlf bytes := by
  induction bytes with
  | nil => rfl
  | cons b rest ih =>
    rw [encode, crlf_cons, ih]
    split
    · rfl
    · rfl

/-- No line feed goes out first. -/
theorem head?_crlf_ne (bytes : List UInt8) : (crlf bytes).head? ≠ some 0x0A := by
  cases bytes with
  | nil => exact nofun
  | cons b rest =>
    rw [crlf_cons]
    split
    · exact fun h => absurd (Option.some.inj h) (by decide)
    · rename_i other
      exact fun h => other (Option.some.inj h)

/-- **Nothing is lost**: without the carriage returns before line feeds it is the text again, also
    if the text itself has some there. -/
theorem dropReturns_crlf (bytes : List UInt8) : dropReturns (crlf bytes) = bytes := by
  induction bytes with
  | nil => rfl
  | cons b rest ih =>
    rw [crlf_cons]
    split
    · rename_i feed
      rw [feed]
      show dropReturns (0x0D :: 0x0A :: crlf rest) = 0x0A :: rest
      rw [dropReturns, if_pos ⟨rfl, rfl⟩, dropReturns, if_neg (fun h => absurd h.1 (by decide)), ih]
    · show dropReturns (b :: crlf rest) = b :: rest
      rw [dropReturns, if_neg (fun h => head?_crlf_ne rest h.2), ih]

example : crlf [0x61, 0x0D, 0x0A] = [0x61, 0x0D, 0x0D, 0x0A] ∧
    dropReturns [0x61, 0x0D, 0x0D, 0x0A] = [0x61, 0x0D, 0x0A] := by decide

/-! ## Turns -/

/-- The turn of a byte: the status of the line is read until bit 5 says that the sender is free,
    and right after that the byte is written. -/
def Turn (b : UInt8) (accesses : List PortAccess) : Prop :=
  ∃ (busy : List UInt8) (free : UInt8),
    accesses = busy.map (PortAccess.read 0x3FD) ++ [.read 0x3FD free, .write 0x3F8 b] ∧
    (∀ answer ∈ busy, answer &&& 0x20 = 0) ∧ free &&& 0x20 ≠ 0

/-- **The turns of bytes**, one after the other. -/
inductive Turns : List UInt8 → List PortAccess → Prop
  | nil : Turns [] []
  | cons {b : UInt8} {bytes : List UInt8} {xs ys : List PortAccess} (turn : Turn b xs)
      (later : Turns bytes ys) : Turns (b :: bytes) (xs ++ ys)

/-- The answers of the line status. -/
def answers (accesses : List PortAccess) : List UInt8 :=
  accesses.filterMap fun
    | .read p v => if p = 0x3FD then some v else none
    | .write _ _ => none

/-- The answer says that the sender is free. -/
def isFree (answer : UInt8) : Bool :=
  decide (answer &&& 0x20 ≠ 0)

theorem isFree_eq_false {answer : UInt8} : isFree answer = false ↔ answer &&& 0x20 = 0 := by
  unfold isFree
  rw [decide_eq_false_iff_not, Decidable.not_not]

theorem answers_append (xs ys : List PortAccess) :
    answers (xs ++ ys) = answers xs ++ answers ys :=
  List.filterMap_append

theorem answers_reads (status : List UInt8) :
    answers (status.map (PortAccess.read 0x3FD)) = status := by
  unfold answers
  rw [List.filterMap_map]
  exact List.filterMap_some

theorem Turns.append {xs ys : List UInt8} {s t : List PortAccess} (h : Turns xs s)
    (h' : Turns ys t) : Turns (xs ++ ys) (s ++ t) := by
  induction h with
  | nil => exact h'
  | cons turn later ih =>
    rw [List.cons_append, List.append_assoc]
    exact .cons turn ih

/-- What is written in its turn is what goes out. -/
theorem Turns.sent {bytes : List UInt8} {t : List PortAccess} (h : Turns bytes t) :
    PortAccess.sentBytes t = bytes := by
  induction h with
  | nil => rfl
  | @cons b bytes xs ys turn later ih =>
    obtain ⟨busy, free, rfl, -, -⟩ := turn
    have hreads : PortAccess.sentBytes (busy.map (PortAccess.read 0x3FD)) = [] := by
      refine List.filterMap_eq_nil_iff.mpr fun a ha => ?_
      obtain ⟨v, -, rfl⟩ := List.mem_map.mp ha
      rfl
    unfold PortAccess.sentBytes at hreads ih ⊢
    rw [List.filterMap_append, List.filterMap_append, hreads, ih]
    rfl

/-- Nothing else is accessed. -/
theorem Turns.only {bytes : List UInt8} {t : List PortAccess} (h : Turns bytes t) :
    ∀ a ∈ t, (∃ answer, a = .read 0x3FD answer) ∨ ∃ b, a = .write 0x3F8 b := by
  induction h with
  | nil => exact nofun
  | cons turn later ih =>
    obtain ⟨busy, free, rfl, -, -⟩ := turn
    intro a ha
    rcases List.mem_append.mp ha with hin | hin
    · rcases List.mem_append.mp hin with hbusy | hlast
      · obtain ⟨v, -, rfl⟩ := List.mem_map.mp hbusy
        exact .inl ⟨v, rfl⟩
      · rcases List.mem_cons.mp hlast with rfl | hwrite
        · exact .inl ⟨free, rfl⟩
        · exact .inr ⟨_, List.mem_singleton.mp hwrite⟩
    · exact ih a hin

/-! ## Runs of the driver -/

/-- What waiting for the sender comes to: it reads up to the first answer that says that the
    sender is free; when the list of answers is used up, this is the next one. -/
theorem awaitFree_reads (status : List UInt8) : ∃ busy free rest,
    (awaitFree status).trace = (busy ++ [free]).map (PortAccess.read 0x3FD) ∧
    (awaitFree status).outcome = .ok rest ∧
    (∀ answer ∈ busy, answer &&& 0x20 = 0) ∧ free &&& 0x20 ≠ 0 ∧
    busy ++ free :: rest = status ++ List.replicate (1 - status.countP isFree) 0x20 ∧
    rest.countP isFree = status.countP isFree - 1 := by
  induction status with
  | nil => exact ⟨[], 0x20, [], rfl, rfl, nofun, by decide, rfl, rfl⟩
  | cons answer later ih =>
    unfold awaitFree
    rw [bind_of_ok (a := ()) rfl]
    by_cases hbusy : answer &&& senderFree = 0
    · obtain ⟨busy, free, rest, htrace, hdone, hall, hfree, hread, hcount⟩ := ih
      have hnot : isFree answer = false := isFree_eq_false.mpr hbusy
      rw [List.countP_cons_of_neg (Bool.eq_false_iff.mp hnot), if_pos hbusy]
      refine ⟨answer :: busy, free, rest, ?_, hdone, ?_, hfree, ?_, hcount⟩
      · exact congrArg (PortAccess.read 0x3FD answer :: ·) htrace
      · intro x hx
        rcases List.mem_cons.mp hx with rfl | hin
        · exact hbusy
        · exact hall x hin
      · exact congrArg (answer :: ·) hread
    · have hfree : isFree answer = true := decide_eq_true hbusy
      rw [List.countP_cons_of_pos hfree, if_neg hbusy]
      refine ⟨[], answer, later, rfl, rfl, nofun, hbusy, ?_, rfl⟩
      rw [Nat.sub_eq_zero_of_le (Nat.le_add_left 1 _)]
      exact (List.append_nil _).symm

/-- **The run sends these bytes** over the line `u` and leaves the line `u'`. -/
structure Delivers (u : Uart) (bytes : List UInt8) (run : Run PortAccess Uart) (u' : Uart) :
    Prop where
  /-- It comes to an end. -/
  done : run.outcome = .ok u'
  /-- The lock stays as it is. -/
  locked : u'.locked = u.locked
  /-- Each byte has its turn. -/
  turns : Turns bytes run.trace
  /-- The answers are those that the line is going to give, in order; when they are used up, the
      sender is free for each byte that is left. -/
  answered : answers run.trace ++ u'.status =
    u.status ++ List.replicate (bytes.length - u.status.countP isFree) 0x20
  /-- Each byte takes one answer that says that the sender is free. -/
  taken : u'.status.countP isFree = u.status.countP isFree - bytes.length

theorem delivers_pure (u : Uart) : Delivers u [] (pure u) u where
  done := rfl
  locked := rfl
  turns := .nil
  answered := by
    rw [List.length_nil, Nat.zero_sub]
    exact (List.append_nil _).symm
  taken := rfl

/-- **What is sent one after the other is sent.** -/
theorem Delivers.bind {u v w : Uart} {xs ys : List UInt8} {x : Run PortAccess Uart}
    {f : Uart → Run PortAccess Uart} (hx : Delivers u xs x v) (hf : Delivers v ys (f v) w) :
    Delivers u (xs ++ ys) (x >>= f) w := by
  rw [bind_of_ok hx.done]
  refine ⟨hf.done, hf.locked.trans hx.locked, hx.turns.append hf.turns, ?_, ?_⟩
  · have hpadding : xs.length - u.status.countP isFree + (ys.length - v.status.countP isFree) =
        (xs ++ ys).length - u.status.countP isFree := by
      rw [hx.taken, List.length_append]
      omega
    show answers (x.trace ++ (f v).trace) ++ w.status = _
    rw [answers_append, List.append_assoc, hf.answered, ← List.append_assoc, hx.answered,
      List.append_assoc, List.replicate_append_replicate, hpadding]
  · rw [hf.taken, hx.taken, List.length_append, Nat.sub_sub]

theorem delivers_sendByte (u : Uart) (b : UInt8) : ∃ u', Delivers u [b] (u.sendByte b) u' := by
  obtain ⟨busy, free, rest, htrace, hdone, hbusy, hfree, hread, hcount⟩ :=
    awaitFree_reads u.status
  have haccesses : (u.sendByte b).trace =
      busy.map (PortAccess.read 0x3FD) ++ [.read 0x3FD free, .write 0x3F8 b] := by
    unfold sendByte
    rw [bind_of_ok hdone, htrace, List.map_append, List.append_assoc]
    rfl
  refine ⟨{ u with status := rest }, ?_, rfl, ?_, ?_, hcount⟩
  · unfold sendByte
    rw [bind_of_ok hdone]
    rfl
  · have hturn : Turn b (u.sendByte b).trace := ⟨busy, free, haccesses, hbusy, hfree⟩
    have hturns := Turns.cons hturn .nil
    rw [List.append_nil] at hturns
    exact hturns
  · rw [haccesses, answers_append, answers_reads, List.append_assoc]
    exact hread

theorem delivers_sendBytes (u : Uart) (bytes : List UInt8) :
    ∃ u', Delivers u bytes (u.sendBytes bytes) u' := by
  induction bytes generalizing u with
  | nil => exact ⟨u, delivers_pure u⟩
  | cons b rest ih =>
    obtain ⟨v, first⟩ := delivers_sendByte u b
    obtain ⟨w, later⟩ := ih v
    exact ⟨w, first.bind later⟩

/-! ## Pieces -/

theorem sendBytes_append (u : Uart) (xs ys : List UInt8) :
    u.sendBytes (xs ++ ys) = u.sendBytes xs >>= fun v => v.sendBytes ys := by
  induction xs generalizing u with
  | nil =>
    show u.sendBytes ys = (pure u : Run PortAccess Uart) >>= fun v => v.sendBytes ys
    exact (pure_bind u fun v => v.sendBytes ys).symm
  | cons b rest ih =>
    show (u.sendByte b >>= fun v => v.sendBytes (rest ++ ys)) =
      (u.sendByte b >>= fun v => v.sendBytes rest) >>= fun w => w.sendBytes ys
    rw [bind_assoc]
    exact bind_congr fun v => ih v

theorem writeText_append (u : Uart) (s t : String) :
    u.writeText (s ++ t) = u.writeText s >>= fun v => v.writeText t := by
  unfold writeText
  rw [utf8_append, encode_append, sendBytes_append]

theorem utf8_empty : ("" : String).toUTF8.toList = [] :=
  toList_eq_data _

/-- What goes out for a text is what goes out for its pieces. -/
theorem crlf_join (pieces : List String) : crlf (String.join pieces).toUTF8.toList =
    pieces.flatMap fun piece => encode piece.toUTF8.toList := by
  rw [← encode_eq_crlf]
  induction pieces with
  | nil =>
    rw [String.join_nil, utf8_empty]
    rfl
  | cons piece rest ih =>
    rw [String.join_cons, utf8_append, encode_append, ih]
    rfl

/-- **How a text is cut into pieces makes no difference.** -/
theorem writePieces_eq (u : Uart) (pieces : List String) :
    u.writePieces pieces = u.writeText (String.join pieces) := by
  induction pieces generalizing u with
  | nil =>
    rw [String.join_nil, writeText, utf8_empty]
    rfl
  | cons piece rest ih =>
    rw [String.join_cons, writeText_append]
    exact bind_congr fun v => ih v

/-- A print that may begin sends the text. -/
theorem delivers_print (u : Uart) (free : u.locked = false) (pieces : List String) : ∃ u',
    Delivers u (crlf (String.join pieces).toUTF8.toList) (u.print pieces) u' := by
  unfold print
  rw [if_neg (Bool.eq_false_iff.mp free), writePieces_eq, ← encode_eq_crlf]
  exact delivers_sendBytes u _

end Uart

end PreemptiveKernel

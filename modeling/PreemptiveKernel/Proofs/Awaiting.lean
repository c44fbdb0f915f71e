/-
  Waiting for a message comes to an end, and with the right message.

  A task that waits takes its oldest message, or it falls asleep and whoever is current then goes
  on waiting.  Nothing in the loop counts down, so what ends it is a matter of who becomes current.
  The order is fixed from the beginning: the current task, and after it the ready queues from the
  highest level down (`line`).  The current level may not be the highest one when the loop begins,
  but the first sleep already chooses the level anew, and so the next in line is current.

  The crux is that falling asleep is nothing but leaving this line (`line_of_retired`).  A round
  takes the first one off it, and the rest stays as it is; so after as many rounds as there are
  tasks without messages in front, the first task with a message is current (`waitFor_picks`).  The
  loop would hang at an idle task without messages, but the idle task stands at the lowest level,
  behind every task whose message is waited for.
-/
import Mathlib.Data.List.Perm.Subperm
import PreemptiveKernel.Proofs.Bystanders
import PreemptiveKernel.Proofs.Mail
import PreemptiveKernel.Proofs.Provisions
import PreemptiveKernel.Proofs.Sharing

namespace PreemptiveKernel

open Run Scheduler

namespace Scheduler

variable {s s' : Scheduler} {c : TaskId} {change : Handoff}

/-! ## The line -/

/-- The ready tasks in the order of their queues, the highest level first. -/
def readyTasks (s : Scheduler) : List TaskId :=
  Level.descending.flatMap s.queue

/-- The order in which tasks come to run if each of them falls asleep: the current task, and then
    the others that are ready. -/
def line (s : Scheduler) (current : TaskId) : List TaskId :=
  current :: s.readyTasks.filter fun id => id ≠ current

/-- A list that does not hold somebody is what it is without him. -/
theorem filter_ne_of_not_mem {id : TaskId} {q : List TaskId} (h : id ∉ q) :
    q.filter (fun x => x ≠ id) = q := by
  refine List.filter_eq_self.mpr fun x hx => decide_eq_true ?_
  rintro rfl
  exact h hx

theorem mem_readyTasks {id : TaskId} : id ∈ s.readyTasks ↔ ∃ l, id ∈ s.queue l := by
  unfold readyTasks
  rw [List.mem_flatMap]
  exact ⟨fun ⟨l, _, h⟩ => ⟨l, h⟩, fun ⟨l, h⟩ => ⟨l, Level.mem_descending l, h⟩⟩

/-- Nobody is ready twice. -/
theorem Sound.readyTasks_nodup (hs : s.Sound) : s.readyTasks.Nodup := by
  refine List.pairwise_flatMap.mpr ⟨fun l _ => hs.queue_nodup l, ?_⟩
  refine Level.descending_pairwise.imp ?_
  rintro k l hlt x hx y hy rfl
  -- a task belongs to one level
  have hk := hs.arranged.mem_queue_iff.mp hx
  have hl := hs.arranged.mem_queue_iff.mp hy
  obtain rfl := Option.some.inj (hk.symm.trans hl)
  exact Nat.lt_irrefl _ hlt

theorem Sound.line_nodup (hs : s.Sound) : (s.line c).Nodup := by
  refine List.nodup_cons.mpr ⟨fun hin => ?_, hs.readyTasks_nodup.filter _⟩
  exact of_decide_eq_true (List.mem_filter.mp hin).2 rfl

/-- **Where the highest level runs**, the line is the ready tasks as they stand in the queues. -/
theorem Settled.line_eq (h : s.Settled) (hs : s.Sound) (current : s.currentId = .ok c) :
    s.line c = s.readyTasks := by
  obtain ⟨rest, head⟩ := currentId_eq_ok_iff.mp current
  obtain ⟨above, below, hsplit⟩ := List.append_of_mem (Level.mem_descending s.currentLevel)
  have hsorted := Level.descending_pairwise
  rw [hsplit] at hsorted
  obtain ⟨-, -, hacross⟩ := List.pairwise_append.mp hsorted
  have hnone : above.flatMap s.queue = [] := by
    refine List.flatMap_eq_nil_iff.mpr fun l hl => ?_
    exact h.highest l (hacross l hl _ List.mem_cons_self)
  have hready : s.readyTasks = c :: (rest ++ below.flatMap s.queue) := by
    unfold readyTasks
    rw [hsplit, List.flatMap_append, hnone, List.flatMap_cons, head]
    rfl
  have hnodup := hs.readyTasks_nodup
  rw [hready] at hnodup
  obtain ⟨hfirst, -⟩ := List.nodup_cons.mp hnodup
  unfold line
  rw [hready, List.filter_cons_of_neg (by simp), filter_ne_of_not_mem hfirst]

/-! ## One round -/

/-- A task that falls asleep leaves its queue, and the others stay where they are. -/
theorem Step.queue_of_retired (hs : s.Sound) (h : Step s (.retire change) s') (l : Level) :
    s'.queue l = (s.queue l).filter fun id => id ≠ change.leaving := by
  have hgone : change.leaving ∉ s'.queue l := by
    intro hin
    have hthere := (h.sound hs).arranged.mem_queue_iff.mp hin
    rw [h.station_eq hs, Act.restation, if_pos rfl] at hthere
    nomatch hthere
  calc s'.queue l = s'.others change.leaving l := (filter_ne_of_not_mem hgone).symm
    _ = s.others change.leaving l := (h.spares hs).queues l

/-- **Who falls asleep leaves the line**, and the next one is current. -/
theorem Step.line_of_retired (hs : s.Sound) (h : Step s (.retire change) s') :
    s.line change.leaving = change.leaving :: s'.line change.entering := by
  have settled := h.settled hs rfl
  rw [settled.line_eq (h.sound hs) (h.current_passed rfl).2]
  refine congrArg (change.leaving :: ·) ?_
  unfold readyTasks
  rw [List.filter_flatMap]
  refine congrArg (List.flatMap · Level.descending) (funext fun l => ?_)
  exact (h.queue_of_retired hs l).symm

/-- Falling asleep takes no message and brings none. -/
theorem Step.mail_of_retired (h : Step s (.retire change) s') (id : TaskId) :
    s'.mail id = s.mail id := by
  have hlaw := h.mail id
  exact hlaw.trans (List.append_nil _)

/-! ## What waiting comes to -/

/-- **What waiting comes to**: the tasks in `slept` have fallen asleep, and the task `t` is current
    and has kept only the messages `rest`. -/
structure Picked (s : Scheduler) (slept : List TaskId) (t : TaskId) (rest : List Message)
    (s' : Scheduler) : Prop where
  /-- The task is current. -/
  current : s'.currentId = .ok t
  /-- No other record has changed. -/
  tasks : ∀ id, s'.tasks.get? id =
    if id ∈ slept then (s.tasks.get? id).map fun u => { u with running := false }
    else if id = t then (s.tasks.get? id).map fun u => { u with inbox := ⟨rest⟩ }
    else s.tasks.get? id
  /-- Those who sleep have left their queues, and the others stand there in their old order. -/
  queues : ∀ l, s'.queue l = (s.queue l).filter fun id => id ∉ slept

/-- A task that takes its oldest message is picked at once. -/
theorem Step.picked {t : TaskId} {m : Message} (hs : s.Sound) (current : s.currentId = .ok t)
    (h : Step s (.take t [m]) s') :
    ∃ rest, s.mail t = m :: rest ∧ Picked s [] t rest s' := by
  have hcurrent := h.current_kept hs rfl
  have hget := h.get?_eq
  cases h with
  | @take id u f ms rest known oldest change =>
    refine ⟨rest, (mail_of_known known).trans oldest, hcurrent.trans current, fun id => ?_, ?_⟩
    · rw [hget id, if_neg List.not_mem_nil, Act.revise]
      split
      · rename_i hid
        rw [hid, known, Option.map_some, Option.map_some, oldest]
        rfl
      · rfl
    · intro l
      refine (List.filter_eq_self.mpr fun id _ => ?_).symm
      exact decide_eq_true List.not_mem_nil

/-- **One sleep more in front.** -/
theorem Picked.retired {s₁ : Scheduler} {slept : List TaskId} {t : TaskId} {rest : List Message}
    (hs : s.Sound) (h : Step s (.retire change) s₁) (hnot : change.leaving ∉ t :: slept)
    (later : Picked s₁ slept t rest s') : Picked s (change.leaving :: slept) t rest s' := by
  obtain ⟨current, tasks, queues⟩ := later
  refine ⟨current, fun id => ?_, fun l => ?_⟩
  · rw [tasks id, h.get?_eq id, Act.revise]
    by_cases hid : id = change.leaving
    · -- it sleeps, and nothing else happens to it
      have hslept : change.leaving ∉ slept := fun hin => hnot (List.mem_cons_of_mem _ hin)
      have hne : change.leaving ≠ t := fun e => hnot (e ▸ List.mem_cons_self)
      rw [hid, if_neg hslept, if_neg hne, if_pos rfl, if_pos List.mem_cons_self]
    · rw [if_neg hid]
      simp only [List.mem_cons, hid, false_or]
  · rw [queues l, h.queue_of_retired hs l, List.filter_filter]
    refine List.filter_congr fun id _ => ?_
    simp only [List.mem_cons, not_or, Bool.decide_and, Bool.and_comm]

/-! ## Who is picked -/

/-- **The first task in line with a message** is `t`, its oldest message is `x`, and it has the
    messages `rest` beside.  The tasks in `slept` stand before it, and none of them idles. -/
structure FirstMail (s : Scheduler) (slept : List TaskId) (t : TaskId) (x : Message)
    (rest : List Message) : Prop where
  /-- It stands in line behind them. -/
  order : ∃ c later, s.currentId = .ok c ∧ s.line c = slept ++ t :: later
  /-- They have no messages. -/
  empty : ∀ id ∈ slept, s.mail id = []
  /-- They can sleep. -/
  wakeful : s.idle ∉ slept
  /-- It has some. -/
  found : s.mail t = x :: rest

namespace FirstMail

variable {slept : List TaskId} {t id : TaskId} {x : Message} {rest : List Message}

/-- With nobody in front it is current. -/
theorem current_eq (h : FirstMail s [] t x rest) : s.currentId = .ok t := by
  obtain ⟨c, later, current, order⟩ := h.order
  obtain ⟨rfl, -⟩ := List.cons.inj order
  exact current

/-- Who stands in front is current, has no message and can sleep. -/
theorem current_of_cons (h : FirstMail s (id :: slept) t x rest) :
    s.currentId = .ok id ∧ s.mail id = [] ∧ id ≠ s.idle := by
  obtain ⟨c, later, current, order⟩ := h.order
  obtain ⟨rfl, -⟩ := List.cons.inj order
  refine ⟨current, h.empty _ List.mem_cons_self, ?_⟩
  rintro rfl
  exact h.wakeful List.mem_cons_self

/-- Nobody stands in line twice. -/
theorem not_mem (hs : s.Sound) (h : FirstMail s (id :: slept) t x rest) : id ∉ t :: slept := by
  obtain ⟨c, later, -, order⟩ := h.order
  have hnodup := hs.line_nodup (c := c)
  rw [order] at hnodup
  obtain ⟨hfirst, -⟩ := List.nodup_cons.mp hnodup
  intro hin
  rcases List.mem_cons.mp hin with heq | hslept
  · exact hfirst (heq ▸ List.mem_append_right _ List.mem_cons_self)
  · exact hfirst (List.mem_append_left _ hslept)

/-- **One round keeps it**: when the one in front has fallen asleep, it is the first task in what
    is left of the line. -/
theorem retired (hs : s.Sound) (step : Step s (.retire change) s')
    (h : FirstMail s (change.leaving :: slept) t x rest) : FirstMail s' slept t x rest := by
  obtain ⟨⟨c, later, current, order⟩, empty, wakeful, found⟩ := h
  obtain ⟨rfl, -⟩ := List.cons.inj order
  have hline := step.line_of_retired hs
  rw [order] at hline
  refine ⟨⟨change.entering, later, (step.current_passed rfl).2, (List.cons.inj hline).2.symm⟩,
    fun y hy => ?_, fun hin => ?_, ?_⟩
  · rw [step.mail_of_retired]
    exact empty y (List.mem_cons_of_mem _ hy)
  · rw [step.frame.2] at hin
    exact wakeful (List.mem_cons_of_mem _ hin)
  · rw [step.mail_of_retired]
    exact found

/-- **Those in front are ready tasks that do not idle**, so they are no more than there are. -/
theorem length_le (hs : s.Sound) (h : FirstMail s slept t x rest) :
    slept.length ≤ s.tasks.tasks.countP fun u => u.running && u.id != s.idle := by
  obtain ⟨⟨c, later, current, order⟩, -, wakeful, -⟩ := h
  have hnodup := hs.line_nodup (c := c)
  rw [order] at hnodup
  have hslept := (List.pairwise_append.mp hnodup).1
  rw [List.countP_eq_length_filter, ← List.length_map (f := Task.id)]
  refine (List.subperm_of_subset hslept fun id hid => ?_).length_le
  -- everybody in line is ready
  obtain ⟨u, known, ready⟩ : ∃ u, s.tasks.get? id = some u ∧ u.running = true := by
    have hin : id ∈ s.line c := by
      rw [order]
      exact List.mem_append_left _ hid
    rcases List.mem_cons.mp hin with rfl | hready
    · obtain ⟨u, known, ready, -⟩ := hs.current_known current
      exact ⟨u, known, ready⟩
    · obtain ⟨l, hl⟩ := mem_readyTasks.mp (List.mem_filter.mp hready).1
      obtain ⟨u, known, ready, -⟩ := hs.of_mem_queue hl
      exact ⟨u, known, ready⟩
  have hname := hs.named known
  have hne : id ≠ s.idle := fun e => wakeful (e ▸ hid)
  refine List.mem_map.mpr ⟨u, List.mem_filter.mpr ⟨?_, ?_⟩, hname⟩
  · exact List.mem_map.mpr ⟨_, TaskTable.mem_entries_of_get? known, rfl⟩
  · simp [ready, hname, hne]

/-- There is one first task with a message at most. -/
theorem unique {slept' : List TaskId} {t' : TaskId} {x' : Message} {rest' : List Message}
    (h : FirstMail s slept t x rest) (h' : FirstMail s slept' t' x' rest') :
    slept = slept' ∧ t = t' ∧ x = x' ∧ rest = rest' := by
  obtain ⟨⟨c, later, current, order⟩, empty, -, found⟩ := h
  obtain ⟨⟨c', later', current', order'⟩, empty', -, found'⟩ := h'
  obtain rfl := Except.ok.inj (current.symm.trans current')
  -- whoever of the two came first would be among the others that have no messages
  have hboth : slept = slept' ∧ t = t' := by
    rcases List.append_eq_append_iff.mp (order.symm.trans order') with
      ⟨more, hslept, hcons⟩ | ⟨more, hslept, hcons⟩
    · cases more with
      | nil => exact ⟨(hslept.trans (List.append_nil _)).symm, (List.cons.inj hcons).1⟩
      | cons y more =>
        obtain ⟨rfl, -⟩ := List.cons.inj hcons
        have hnone := empty' t (hslept ▸ List.mem_append_right _ List.mem_cons_self)
        rw [hnone] at found
        nomatch found
    · cases more with
      | nil => exact ⟨hslept.trans (List.append_nil _), (List.cons.inj hcons).1.symm⟩
      | cons y more =>
        obtain ⟨rfl, -⟩ := List.cons.inj hcons
        have hnone := empty t' (hslept ▸ List.mem_append_right _ List.mem_cons_self)
        rw [hnone] at found'
        nomatch found'
  obtain ⟨rfl, rfl⟩ := hboth
  obtain ⟨rfl, rfl⟩ := List.cons.inj (found.symm.trans found')
  exact ⟨rfl, rfl, rfl, rfl⟩

/-- If somebody in a part of the line that does not hold the idle task has a message, there is a
    first one. -/
theorem exists_of_mem {front back : List TaskId} (current : s.currentId = .ok c)
    (order : s.line c = front ++ back) (wakeful : s.idle ∉ front) (hid : id ∈ front)
    (mail : s.mail id ≠ []) : ∃ slept t x rest, FirstMail s slept t x rest := by
  have hsome : (front.find? fun y => !(s.mail y).isEmpty).isSome := by
    rw [List.find?_isSome]
    exact ⟨id, hid, by simpa using mail⟩
  obtain ⟨t, hfind⟩ := Option.isSome_iff_exists.mp hsome
  obtain ⟨hmail, slept, later, rfl, hslept⟩ := List.find?_eq_some_iff_append.mp hfind
  obtain ⟨x, rest, found⟩ := List.exists_cons_of_ne_nil (show s.mail t ≠ [] by simpa using hmail)
  refine ⟨slept, t, x, rest, ⟨c, later ++ back, current, ?_⟩, fun y hy => ?_, fun hin => ?_, found⟩
  · rw [order, List.append_assoc, List.cons_append]
  · simpa using hslept y hy
  · exact wakeful (List.mem_append_left _ hin)

/-- **If a message comes, somebody is the first to have it.**  The idle task stands at the lowest
    level, so it is not among those in front. -/
theorem exists_of_messageComes (hs : s.Sound) (comes : Kernel.messageComes s = true) :
    ∃ slept t x rest, FirstMail s slept t x rest := by
  obtain ⟨c, u, current, known, htask, -⟩ := hs.coherent.current
  unfold Kernel.messageComes at comes
  rw [htask] at comes
  have hname := hs.named known
  have hmail : ∀ {id v}, s.tasks.get? id = some v → (!v.inbox.isEmpty) = true →
      s.mail id ≠ [] := by
    intro id v hv hfull
    rw [mail_of_known hv]
    simpa [Inbox.isEmpty] using hfull
  rcases Bool.or_eq_true_iff.mp comes with own | other
  · -- the current task has a message itself
    obtain ⟨x, rest, found⟩ := List.exists_cons_of_ne_nil (hmail known own)
    exact ⟨[], c, x, rest, ⟨c, _, current, rfl⟩, by simp, List.not_mem_nil, found⟩
  · obtain ⟨hwakeful, hany⟩ := Bool.and_eq_true_iff.mp other
    obtain ⟨v, hv, hready⟩ := List.any_eq_true.mp hany
    obtain ⟨⟨id, v'⟩, hentry, rfl⟩ := List.mem_map.mp hv
    simp only [Bool.and_eq_true, bne_iff_ne] at hready hwakeful
    obtain ⟨⟨ready, hlevel⟩, hfull⟩ := hready
    have hknown := TaskTable.get?_of_mem hs.keys_nodup hentry
    have hqueue := hs.mem_queue hknown ready
    -- the levels above the lowest one come first
    obtain ⟨upper, hdescending, hupper⟩ : ∃ upper, Level.descending = upper ++ [.bottom] ∧
        ∀ l, l ∈ upper ↔ l ≠ .bottom := ⟨[3, 2, 1], rfl, by decide⟩
    have hsplit : s.readyTasks = upper.flatMap s.queue ++ [Level.bottom].flatMap s.queue := by
      unfold readyTasks
      rw [hdescending, List.flatMap_append]
    have horder : s.line c = (c :: (upper.flatMap s.queue).filter fun y => y ≠ c) ++
        ([Level.bottom].flatMap s.queue).filter fun y => y ≠ c := by
      unfold line
      rw [hsplit, List.filter_append, List.cons_append]
    refine exists_of_mem current horder ?_ ?_ (hmail hknown hfull)
    · intro hin
      rcases List.mem_cons.mp hin with heq | hin
      · exact hwakeful (hname.trans heq.symm)
      · obtain ⟨l, hl, hidle⟩ := List.mem_flatMap.mp (List.mem_filter.mp hin).1
        have hstation := hs.arranged.mem_queue_iff.mp hidle
        rw [hs.idle_ready] at hstation
        exact (hupper l).mp hl (Option.some.inj hstation).symm
    · by_cases hid : id = c
      · exact hid ▸ List.mem_cons_self
      · refine List.mem_cons_of_mem _ (List.mem_filter.mpr ⟨?_, decide_eq_true hid⟩)
        exact List.mem_flatMap.mpr ⟨v'.level, (hupper _).mpr hlevel, hqueue⟩

end FirstMail

end Scheduler

namespace Kernel

variable {m m₁ m₂ : Machine} {d d₁ d₂ : Dispatcher} {t : TaskId} {x : Message}
  {slept : List TaskId} {rest : List Message}

/-! ## The loop -/

/-- What a machine has come to share, it may come to share by way of something else. -/
theorem Became.trans (h : Became m d₁ m₁) (later : Became m₁ d₂ m₂) : Became m d₂ m₂ where
  scheduler := later.scheduler
  clock := later.clock
  interrupts := later.interrupts.trans h.interrupts
  cr3 := later.cr3.trans h.cr3
  logger := later.logger.trans h.logger
  keyboard := later.keyboard.trans h.keyboard
  line := later.line.trans h.line
  limited := later.limited.trans h.limited

/-- The memory stays without a limit. -/
theorem Became.unlimited (h : Became m d m₁) (unlimited : m.memory = none) :
    m₁.memory = none := by
  have hlimited := h.limited
  rw [unlimited] at hlimited
  exact Option.not_isSome_iff_eq_none.mp (by rw [hlimited]; decide)

/-- A round that takes a message ends the loop. -/
theorem waitFor_of_some (done : (waitStep m).outcome = .ok (some x, m₁)) (n : Nat) :
    (waitFor (n + 1) m).outcome = .ok (some x, m₁) := by
  unfold waitFor
  rw [bind_apply, outcome_bind, done]
  rfl

/-- After a round that takes none the loop goes on. -/
theorem waitFor_of_none (done : (waitStep m).outcome = .ok (none, m₁)) (n : Nat) :
    (waitFor (n + 1) m).outcome = (waitFor n m₁).outcome := by
  conv => lhs; unfold waitFor
  rw [bind_apply, outcome_bind, done]
  rfl

/-- **One round** on a machine that neither lacks memory nor is in the middle of printing. -/
theorem waitStep_answers (hs : d.scheduler.Sound) (shares : Shares m d)
    (unlimited : m.memory = none) (free : m.uart.locked = false) :
    ∃ a change s' m', WaitOutcome d.scheduler a change s' ∧
      (waitStep m).outcome = .ok (a, m') ∧ Became m (d.withScheduler s') m' := by
  obtain ⟨⟨a, change, s'⟩, done, outcome⟩ := ends_never_iff.mp (waitStep_ends hs)
  have own : (Operation.waitStep.own (Operation.waitStep.allocator m d) m.cr3 d).outcome =
      .ok (a, change, d.withScheduler s') := by
    show (d.scheduler.waitStep >>= _).outcome = _
    rw [outcome_bind, done]
    rfl
  have ends := (Operation.waitStep.faithful shares).ends
  cases performed : (waitStep m).outcome with
  | error stop =>
    have performed' : (Operation.waitStep.perform m).outcome = .error stop := performed
    rw [Run.Ends, performed'] at ends
    rcases ends with refused | blocked
    · cases own.symm.trans refused
    · exact absurd blocked (Machine.not_blocks unlimited free)
  | ok p =>
    obtain ⟨change', d', value, became, -⟩ := ends.of_ok performed
    obtain ⟨ha, hd⟩ := Prod.mk.inj (Except.ok.inj (own.symm.trans value))
    obtain ⟨-, rfl⟩ := Prod.mk.inj hd
    exact ⟨a, change, s', p.2, outcome, by rw [ha], became⟩

/-- With nobody in front, one round takes the message. -/
theorem waitStep_takes (hs : d.scheduler.Sound) (shares : Shares m d)
    (unlimited : m.memory = none) (free : m.uart.locked = false)
    (first : FirstMail d.scheduler [] t x rest) :
    ∃ s' m', (waitStep m).outcome = .ok (some x, m') ∧ Picked d.scheduler [] t rest s' ∧
      Became m (d.withScheduler s') m' := by
  have current := first.current_eq
  have found := first.found
  obtain ⟨a, change, s', m', outcome, done, became⟩ := waitStep_answers hs shares unlimited free
  cases outcome with
  | @took id u y _ current' known step =>
    obtain rfl := Except.ok.inj (current.symm.trans current')
    obtain ⟨rest', hmail, picked⟩ := step.picked hs current
    obtain ⟨rfl, rfl⟩ := List.cons.inj (found.symm.trans hmail)
    exact ⟨s', m', done, picked, became⟩
  | idled current' known nothing =>
    obtain rfl := Except.ok.inj (current.symm.trans current')
    rw [mail_of_known known, nothing] at found
    nomatch found
  | retired current' known nothing leaving step =>
    obtain rfl := Except.ok.inj (current.symm.trans current')
    rw [mail_of_known known, nothing] at found
    nomatch found

/-- With somebody in front, one round sends him to sleep. -/
theorem waitStep_retires {id : TaskId} (hs : d.scheduler.Sound) (shares : Shares m d)
    (unlimited : m.memory = none) (free : m.uart.locked = false)
    (first : FirstMail d.scheduler (id :: slept) t x rest) :
    ∃ change s' m', (waitStep m).outcome = .ok (none, m') ∧ change.leaving = id ∧
      Step d.scheduler (.retire change) s' ∧ Became m (d.withScheduler s') m' := by
  obtain ⟨current, hnone, hne⟩ := first.current_of_cons
  obtain ⟨a, change, s', m', outcome, done, became⟩ := waitStep_answers hs shares unlimited free
  cases outcome with
  | took current' known step =>
    obtain rfl := Except.ok.inj (current.symm.trans current')
    obtain ⟨rest', hmail, -⟩ := step.picked hs current
    rw [hnone] at hmail
    nomatch hmail
  | idled current' known nothing => exact absurd (Except.ok.inj (current.symm.trans current')) hne
  | retired current' known nothing leaving step =>
    obtain rfl := Except.ok.inj (current.symm.trans current')
    exact ⟨_, s', m', done, leaving, step, became⟩

/-- **The run of the loop**: each round sends one of those in front to sleep, and when they all
    sleep, the first task with a message takes it. -/
theorem waitFor_picks (hs : d.scheduler.Sound) (shares : Shares m d) (unlimited : m.memory = none)
    (free : m.uart.locked = false) (first : FirstMail d.scheduler slept t x rest) :
    (∀ n, n ≤ slept.length → ∃ m₁, (waitFor n m).outcome = .ok (none, m₁)) ∧
    ∃ s' m', Picked d.scheduler slept t rest s' ∧ Became m (d.withScheduler s') m' ∧
      ∀ n, slept.length < n → (waitFor n m).outcome = .ok (some x, m') := by
  -- the first round is the induction step, so the claim is split by the number of rounds
  induction slept generalizing d m with
  | nil =>
    obtain ⟨s', m', done, picked, became⟩ := waitStep_takes hs shares unlimited free first
    refine ⟨fun n hn => ?_, s', m', picked, became, fun n hn => ?_⟩
    · obtain rfl := Nat.le_zero.mp hn
      exact ⟨m, rfl⟩
    · obtain ⟨k, rfl⟩ := Nat.exists_eq_succ_of_ne_zero (Nat.ne_of_gt hn)
      exact waitFor_of_some done k
  | cons id slept ih =>
    obtain ⟨change, s₁, m₁, done, rfl, step, became⟩ :=
      waitStep_retires hs shares unlimited free first
    obtain ⟨before, s', m', picked, last, after⟩ := ih (d := d.withScheduler s₁) (step.sound hs)
      became.toShares (became.unlimited unlimited) (became.line.trans free) (first.retired hs step)
    refine ⟨fun n hn => ?_, s', m', picked.retired hs step (first.not_mem hs),
      became.trans last, fun n hn => ?_⟩
    · cases n with
      | zero => exact ⟨m, rfl⟩
      | succ n =>
        obtain ⟨m₂, h₂⟩ := before n (Nat.le_of_succ_le_succ hn)
        exact ⟨m₂, (waitFor_of_none done n).trans h₂⟩
    · cases n with
      | zero => exact absurd hn (Nat.not_lt_zero _)
      | succ n => exact (waitFor_of_none done n).trans (after n (Nat.lt_of_succ_lt_succ hn))

/-- **Waiting ends with the right message.**  Take any state that the shared scheduler has come to,
    in which the current task has a message, or it is not the idle task and another ready task above
    the lowest level has one; and let the machine neither lack memory nor be in the middle of
    printing.  Then there is a first task in line with a message, the idle task is not among those
    in front of it, and these are no more than there are ready tasks that do not idle.  The loop
    goes on for as many rounds as they are, ends in the next one, and gives the oldest message of
    that task.  It is current then and has kept its other messages, those in front of it sleep, and
    the other tasks and the order of the queues are what they were. -/
theorem wait_picks_first {log : List (Request × Response)} (history : History log d.scheduler)
    (shares : Shares m d) (unlimited : m.memory = none) (free : m.uart.locked = false)
    (comes : messageComes d.scheduler = true) :
    ∃ slept t x rest, FirstMail d.scheduler slept t x rest ∧
      slept.length ≤ (d.scheduler.tasks.tasks.countP fun u =>
        u.running && u.id != d.scheduler.idle) ∧
      (∀ n, n ≤ slept.length → ∃ m₁, (waitFor n m).outcome = .ok (none, m₁)) ∧
      ∃ s' m', (∀ n, slept.length < n → (waitFor n m).outcome = .ok (some x, m')) ∧
        (wait m).outcome = .ok (some x, m') ∧ Shares m' (d.withScheduler s') ∧
        m'.interrupts = m.interrupts ∧ Picked d.scheduler slept t rest s' := by
  have hs := history.sound
  obtain ⟨slept, t, x, rest, first⟩ := FirstMail.exists_of_messageComes hs comes
  have hlength := first.length_le hs
  obtain ⟨before, s', m', picked, became, after⟩ := waitFor_picks hs shares unlimited free first
  refine ⟨slept, t, x, rest, first, hlength, before, s', m', after, ?_, became.toShares,
    became.interrupts, picked⟩
  -- the loop is allowed more rounds than there are tasks
  have hcount : d.scheduler.tasks.keys.length = d.scheduler.tasks.tasks.length := by
    unfold TaskTable.keys TaskTable.tasks
    rw [List.length_map, List.length_map]
  have hbound := List.countP_le_length
    (p := fun u : Task => u.running && u.id != d.scheduler.idle) (l := d.scheduler.tasks.tasks)
  have hwait : (wait m).outcome =
      (waitFor (d.scheduler.tasks.keys.length + 1) m).outcome := by
    unfold wait
    rw [bind_apply, get_apply, pure_bind, shares.scheduler]
  rw [hwait]
  exact after _ (by omega)

/-- The main task has gone down to the lowest level and is still current; above it two tasks are
    ready, and the lower one has two messages.  The main task and the upper one fall asleep, and
    the lower one takes the first of its messages. -/
theorem wait_picks_first_of_three : ∃ log d m s' m', History log d.scheduler ∧ Shares m d ∧
    d.scheduler.currentId = .ok ⟨1⟩ ∧ d.scheduler.currentLevel = .bottom ∧
    d.scheduler.reschedule = true ∧ (wait m).outcome = .ok (some (.layerFinish 4), m') ∧
    (∃ m₁, (waitFor 2 m).outcome = .ok (none, m₁)) ∧ Shares m' (d.withScheduler s') ∧
    s'.currentId = .ok ⟨4⟩ ∧ s'.queue 2 = [] ∧ s'.queue 1 = [⟨4⟩] ∧ s'.queue 0 = [⟨2⟩] := by
  have created : (create .standard .heap).outcome = .ok (.ok _) := rfl
  have history := (History.created created).performAll
    (show (Dispatcher.performAll ⟨_, .create .standard⟩
      [.spawn .idle 0 2 .heap, .spawn .idle 0 1 .heap, .changeLevel ⟨1⟩ 0,
        .send ⟨4⟩ (.layerFinish 4), .send ⟨4⟩ (.layerFinish 5)]).outcome = .ok (_, _) from rfl)
  obtain ⟨slept, t, x, rest, first, -, before, s', m', -, waited, shares, -, picked⟩ :=
    wait_picks_first history (shares_sharing _) rfl rfl rfl
  obtain ⟨rfl, rfl, rfl, rfl⟩ := first.unique (show FirstMail _ [⟨1⟩, ⟨3⟩] ⟨4⟩ _ _ from
    ⟨⟨⟨1⟩, [⟨2⟩], rfl, rfl⟩, by decide, by decide, rfl⟩)
  exact ⟨_, _, _, s', m', history, shares_sharing _, rfl, rfl, rfl, waited,
    before 2 (Nat.le_refl 2), shares, picked.current, picked.queues 2, picked.queues 1,
    picked.queues 0⟩

end Kernel

end PreemptiveKernel

/-
  No message is lost, doubled, reordered or misdelivered.

  For every task two lists are kept of a run: the messages whose sending to it succeeded, in the
  order in which they were sent, and the messages that were taken from its inbox, in the order
  in which they were taken.  The law is that the second list, followed by what still waits in
  the inbox, is the first (`mail_conserved`).

  It is a law of acts.  Each act takes from the front of one inbox or adds to the end of one, or
  touches none (`Step.mail`), and what a request and its response say was sent and taken is what
  its acts have sent and taken (`Enacted.delivered`, `Enacted.taken`).
-/
import PreemptiveKernel.Proofs.Courses

namespace PreemptiveKernel

open Run Scheduler

/-! ## What is sent and what is taken -/

/-- The messages among the letters that are addressed to a task. -/
def lettersTo (id : TaskId) (letters : List Letter) : List Message :=
  (letters.filter fun x => x.receiver = id).map Letter.message

theorem lettersTo_append (id : TaskId) (xs ys : List Letter) :
    lettersTo id (xs ++ ys) = lettersTo id xs ++ lettersTo id ys := by
  unfold lettersTo
  rw [List.filter_append, List.map_append]

theorem mem_lettersTo {id : TaskId} {letters : List Letter} {m : Message} :
    m ∈ lettersTo id letters ↔ ⟨id, m⟩ ∈ letters := by
  unfold lettersTo
  rw [List.mem_map]
  constructor
  · rintro ⟨x, hx, rfl⟩
    obtain ⟨hin, hid⟩ := List.mem_filter.mp hx
    rw [← of_decide_eq_true hid]
    exact hin
  · intro hin
    exact ⟨_, List.mem_filter.mpr ⟨hin, decide_eq_true rfl⟩, rfl⟩

/-- Letters that were made out to one task reach that task and no other. -/
theorem lettersTo_map_mk (id key : TaskId) (ms : List Message) :
    lettersTo id (ms.map (Letter.mk key)) = if id = key then ms else [] := by
  unfold lettersTo
  by_cases h : id = key
  · have hall : ∀ x ∈ ms.map (Letter.mk key), decide (x.receiver = id) = true := by
      intro x hx
      obtain ⟨m, -, rfl⟩ := List.mem_map.mp hx
      exact decide_eq_true h.symm
    rw [if_pos h, List.filter_eq_self.mpr hall, List.map_map]
    exact List.map_id ms
  · have hnone : ∀ x ∈ ms.map (Letter.mk key), ¬ decide (x.receiver = id) = true := by
      intro x hx
      obtain ⟨m, -, rfl⟩ := List.mem_map.mp hx
      exact fun e => h (of_decide_eq_true e).symm
    rw [if_neg h, List.filter_eq_nil_iff.mpr hnone, List.map_nil]

/-- The messages that a response hands out. -/
def Response.mail : Response → List Message
  | .message m | .waited m _ => m.toList
  | .messages ms => ms
  | _ => []

/-- The task from whose inbox a request takes. -/
def Request.reader (s : Scheduler) : Request → Option TaskId
  | .receive id | .drain id => some id
  | .receiveCurrent | .wait => s.currentId.toOption
  | _ => none

namespace Episode

/-- The messages whose sending to the task `id` succeeded in the episode. -/
def sentTo (e : Episode) (id : TaskId) : List Message :=
  lettersTo id (e.before.scheduler.accepted (e.before.letters e.request))

/-- The messages that were taken from the inbox of the task `id` in the episode. -/
def takenFrom (e : Episode) (id : TaskId) : List Message :=
  if e.request.reader e.before.scheduler = some id then e.response.mail else []

end Episode

namespace Scheduler

variable {s s' : Scheduler}

/-- The messages that wait for a task, the oldest first; none for a task that does not exist. -/
def mail (s : Scheduler) (id : TaskId) : List Message :=
  ((s.tasks.get? id).map fun t => t.inbox.messages).getD []

theorem mail_of_known {id : TaskId} {t : Task} (known : s.tasks.get? id = some t) :
    s.mail id = t.inbox.messages := by
  unfold mail
  rw [known]
  rfl

/-! ## Acts -/

/-- The messages that an act takes from the inbox of a task. -/
def Act.taken (id : TaskId) : Act → List Message
  | .take key ms => if id = key then ms else []
  | _ => []

/-- One task has changed, and its messages are what they were. -/
theorem mail_revised_same {id : TaskId} {f : Task → Task}
    (hget : ∀ x, s'.tasks.get? x = if x = id then (s.tasks.get? x).map f else s.tasks.get? x)
    (hf : ∀ t, (f t).inbox = t.inbox) (x : TaskId) : s'.mail x = s.mail x := by
  unfold mail
  rw [hget x]
  split
  · cases s.tasks.get? x with
    | none => rfl
    | some t =>
      show (f t).inbox.messages = t.inbox.messages
      rw [hf t]
  · rfl

/-- One task has changed, and its messages are now those of `f t`. -/
theorem mail_revised {id : TaskId} {t : Task} {f : Task → Task}
    (known : s.tasks.get? id = some t)
    (hget : ∀ x, s'.tasks.get? x = if x = id then (s.tasks.get? x).map f else s.tasks.get? x)
    (x : TaskId) : s'.mail x = if x = id then (f t).inbox.messages else s.mail x := by
  unfold mail
  rw [hget x]
  by_cases hx : x = id
  · rw [if_pos hx, if_pos hx, hx, known]
    rfl
  · rw [if_neg hx, if_neg hx]

theorem mail_revised_append {id : TaskId} {t : Task} {f : Task → Task} (ms : List Message)
    (known : s.tasks.get? id = some t)
    (hget : ∀ x, s'.tasks.get? x = if x = id then (s.tasks.get? x).map f else s.tasks.get? x)
    (hf : (f t).inbox.messages = t.inbox.messages ++ ms) (x : TaskId) :
    s'.mail x = s.mail x ++ if x = id then ms else [] := by
  rw [mail_revised known hget]
  by_cases hx : x = id
  · rw [if_pos hx, if_pos hx, hx, mail_of_known known, hf]
  · rw [if_neg hx, if_neg hx, List.append_nil]

/-- **The law of one act**: what it takes was at the front of the inbox, and what it delivers is
    at the end. -/
theorem Step.mail {a : Act} (h : Step s a s') (id : TaskId) :
    a.taken id ++ s'.mail id = s.mail id ++ lettersTo id a.letters := by
  have hget := h.get?_eq
  -- most acts neither take nor deliver
  have hquiet : a.taken id = [] → a.letters = [] → s'.mail id = s.mail id →
      a.taken id ++ s'.mail id = s.mail id ++ lettersTo id a.letters := by
    intro htaken hletters hmail
    rw [htaken, hletters, hmail, List.nil_append]
    exact (List.append_nil _).symm
  cases h with
  | @enroll t next fresh asleep empty =>
    refine hquiet rfl rfl ?_
    unfold Scheduler.mail
    rw [hget id, Act.revise]
    split
    · -- nobody has written to a task that did not exist
      rename_i hid
      rw [hid, fresh, Option.map_some, empty]
      rfl
    · rfl
  | equip known change => exact hquiet rfl rfl (mail_revised_same hget (fun _ => rfl) id)
  | @post key t f m known ready change =>
    have hmail := mail_revised_append [m] known hget rfl id
    rw [hmail]
    show _ = s.mail id ++ lettersTo id ([m].map (Letter.mk key))
    rw [lettersTo_map_mk]
    rfl
  | @take key t f ms rest known oldest change =>
    have hmail := mail_revised known hget id
    rw [hmail]
    show _ = s.mail id ++ []
    rw [List.append_nil, Act.taken]
    by_cases hid : id = key
    · rw [if_pos hid, if_pos hid, hid, mail_of_known known, oldest]
      show ms ++ List.drop ms.length (ms ++ rest) = ms ++ rest
      rw [List.drop_left]
    · rw [if_neg hid, if_neg hid, List.nil_append]
  | relevel known asleep => exact hquiet rfl rfl (mail_revised_same hget (fun _ => rfl) id)
  | @wake key t f l ms known asleep change =>
    have hmail := mail_revised_append ms known hget rfl id
    rw [hmail]
    show _ = s.mail id ++ lettersTo id (ms.map (Letter.mk key))
    rw [lettersTo_map_mk]
    rfl
  | dismiss known ready wakeful other =>
    exact hquiet rfl rfl (mail_revised_same hget (fun _ => rfl) id)
  | transfer known ready wakeful other elsewhere =>
    exact hquiet rfl rfl (mail_revised_same hget (fun _ => rfl) id)
  | shift known wakeful current elsewhere =>
    exact hquiet rfl rfl (mail_revised_same hget (fun _ => rfl) id)
  | yield head chosen =>
    refine hquiet rfl rfl ?_
    unfold Scheduler.mail
    rw [hget id, Act.revise]
  | retire head wakeful chosen =>
    exact hquiet rfl rfl (mail_revised_same hget (fun _ => rfl) id)

theorem Steps.mail {acts : List Act} (h : Steps s acts s') (id : TaskId) :
    acts.flatMap (Act.taken id) ++ s'.mail id =
      s.mail id ++ lettersTo id (acts.flatMap Act.letters) := by
  induction h with
  | nil => exact (List.append_nil _).symm
  | @cons s s₁ s₂ a acts first rest ih =>
    calc (a :: acts).flatMap (Act.taken id) ++ s₂.mail id
      _ = a.taken id ++ (acts.flatMap (Act.taken id) ++ s₂.mail id) := by
        rw [List.flatMap_cons, List.append_assoc]
      _ = a.taken id ++ s₁.mail id ++ lettersTo id (acts.flatMap Act.letters) := by
        rw [ih, List.append_assoc]
      _ = s.mail id ++ lettersTo id a.letters ++ lettersTo id (acts.flatMap Act.letters) := by
        rw [first.mail id]
      _ = s.mail id ++ lettersTo id ((a :: acts).flatMap Act.letters) := by
        rw [List.append_assoc, ← lettersTo_append, List.flatMap_cons]

/-- Acts that deliver take nothing. -/
theorem Carried.taken {letters : List Letter} {acts : List Act} (h : Carried s letters acts)
    (id : TaskId) : acts.flatMap (Act.taken id) = [] := by
  rw [List.flatMap_eq_nil_iff]
  intro a ha
  obtain ⟨x, -, rfl | ⟨l, rfl⟩⟩ := h.of_mem ha
  · rfl
  · rfl

/-- A task that exists gets all letters that are addressed to it. -/
theorem lettersTo_accepted_of_known (letters : List Letter) {id : TaskId}
    (known : (s.tasks.get? id).isSome) :
    lettersTo id (s.accepted letters) = lettersTo id letters := by
  unfold lettersTo
  rw [accepted_eq_filter, List.filter_filter]
  refine congrArg _ (List.filter_congr fun x _ => ?_)
  by_cases hx : x.receiver = id
  · rw [decide_eq_true hx, hx, known]
    rfl
  · rw [decide_eq_false hx, Bool.false_and]

/-- Letters that have been carried stand at the end of the inboxes. -/
theorem Carried.mail {letters : List Letter} {acts : List Act} (h : Carried s letters acts)
    (steps : Steps s acts s') (id : TaskId) :
    s'.mail id = s.mail id ++ lettersTo id (s.accepted letters) := by
  have hlaw := steps.mail id
  rw [h.taken id, h.accepted] at hlaw
  exact hlaw

end Scheduler

/-! ## Requests -/

variable {d : Dispatcher} {r : Request} {response : Response} {acts : List Act}

/-- What the acts of a request deliver are the letters that are accepted when it sends. -/
theorem Enacted.delivered (h : Enacted d r response acts) :
    acts.flatMap Act.letters = d.scheduler.accepted (d.letters r) := by
  cases h with
  | refused asked =>
    cases r with
    | send | tick | timerInterrupt | deviceInterrupt => exact asked.elim
    | _ => rfl
  | moved asked act =>
    have hletters : d.letters r = [] := by
      rcases asked with rfl | rfl
      · rfl
      · rfl
    rw [hletters]
    rcases act with rfl | rfl | rfl
    · rfl
    · rfl
    · rfl
  | unmoved asked =>
    rcases asked with ⟨n, rfl⟩ | ⟨level, rfl⟩
    · rfl
    · rfl
  | sent carried => exact carried.accepted
  | notified carried => exact carried.accepted
  | ticked carried => exact carried.accepted
  | interrupted running carried => exact carried.accepted
  | preempted ended carried =>
    rw [List.flatMap_append]
    exact (List.append_nil _).trans carried.accepted
  | _ => rfl

/-- What the acts of a request take is what its response hands out. -/
theorem Enacted.taken (h : Enacted d r response acts) (id : TaskId) :
    acts.flatMap (Act.taken id) =
      if r.reader d.scheduler = some id then response.mail else [] := by
  have hnothing : acts.flatMap (Act.taken id) = [] → response.mail = [] →
      acts.flatMap (Act.taken id) =
        if r.reader d.scheduler = some id then response.mail else [] := by
    intro htaken hmail
    rw [htaken, hmail, ite_self]
  -- a request that reads takes from the inbox of its reader
  have hreads : ∀ {key ms}, acts = [.take key ms] → r.reader d.scheduler = some key →
      response.mail = ms → acts.flatMap (Act.taken id) =
        if r.reader d.scheduler = some id then response.mail else [] := by
    rintro key ms rfl hreader rfl
    rw [hreader, List.flatMap_singleton, Act.taken]
    by_cases hid : id = key
    · rw [if_pos hid, if_pos (by rw [hid])]
    · rw [if_neg hid, if_neg fun e => hid (Option.some.inj e).symm]
  have hcurrent : ∀ {key}, d.scheduler.currentId = .ok key →
      d.scheduler.currentId.toOption = some key := by
    intro key current
    rw [current]
    rfl
  cases h with
  | moved asked act =>
    refine hnothing ?_ rfl
    rcases act with rfl | rfl | rfl
    · rfl
    · rfl
    · rfl
  | received => exact hreads rfl rfl rfl
  | receivedCurrent current => exact hreads rfl (hcurrent current) rfl
  | drained => exact hreads rfl rfl rfl
  | found current => exact hreads rfl (hcurrent current) rfl
  | @sent key m answer acts carried =>
    refine hnothing (carried.taken id) ?_
    cases answer with
    | ok u => rfl
    | error error => rfl
  | notified carried => exact hnothing (carried.taken id) rfl
  | ticked carried => exact hnothing (carried.taken id) rfl
  | interrupted running carried => exact hnothing (carried.taken id) rfl
  | preempted ended carried =>
    refine hnothing ?_ rfl
    rw [List.flatMap_append, carried.taken id]
    rfl
  | _ => exact hnothing rfl rfl

/-- **The law of one request**, whichever it is. -/
theorem Episode.mail (e : Episode) (hs : e.before.scheduler.Sound) (id : TaskId) :
    e.takenFrom id ++ e.after.scheduler.mail id = e.before.scheduler.mail id ++ e.sentTo id := by
  obtain ⟨acts, steps, enacted⟩ := e.enacts hs
  have hlaw := steps.mail id
  rw [enacted.taken id, enacted.delivered] at hlaw
  exact hlaw

/-! ## Runs -/

namespace Scheduler

theorem mail_founded (config : Config) {idle : Task} (empty : idle.inbox = .empty)
    (id : TaskId) : (founded config idle).mail id = [] := by
  unfold mail
  rw [get?_founded]
  split
  · rfl
  · split
    · show idle.inbox.messages = []
      rw [empty]
      rfl
    · rfl

theorem mail_of_course {s s' : Scheduler} {es : List Episode} (hs : s.Sound)
    (course : Course Dispatcher.scheduler s es s') (id : TaskId) :
    es.flatMap (·.takenFrom id) ++ s'.mail id = s.mail id ++ es.flatMap (·.sentTo id) := by
  induction course with
  | nil => exact (List.append_nil _).symm
  | @snoc es e earlier ih =>
    have hlaw := e.mail (earlier.sound hs) id
    calc (es ++ [e]).flatMap (·.takenFrom id) ++ e.after.scheduler.mail id
      _ = es.flatMap (·.takenFrom id) ++ (e.takenFrom id ++ e.after.scheduler.mail id) := by
        rw [List.flatMap_append, List.flatMap_singleton, List.append_assoc]
      _ = es.flatMap (·.takenFrom id) ++ e.before.scheduler.mail id ++ e.sentTo id := by
        rw [hlaw, List.append_assoc]
      _ = s.mail id ++ (es ++ [e]).flatMap (·.sentTo id) := by
        rw [ih, List.append_assoc, List.flatMap_append, List.flatMap_singleton]

/-- **Messages are conserved.**  In every story of a scheduler, whoever sends and whoever takes
    and whatever else is asked in between: for every task, the messages that were taken from its
    inbox, followed by those that wait there, are the messages whose sending to it succeeded, in
    the order in which they were sent.  A message to a task that does not exist is refused and
    changes nothing. -/
theorem mail_conserved {es : List Episode} {s : Scheduler} (story : Story es s) (id : TaskId) :
    es.flatMap (·.takenFrom id) ++ s.mail id = es.flatMap (·.sentTo id) ∧
    (s.tasks.get? id = none →
      ∀ m, (s.send id m).outcome = .ok (.error (.noSuchTask id), s)) := by
  obtain ⟨config, allocate, cr3, first, created, course⟩ := story
  obtain ⟨idle, rfl, prepared⟩ := History.exists_prepared created
  constructor
  · have hempty : idle.inbox = .empty := by
      rw [Task.eq_of_prepare prepared]
      rfl
    have hlaw := mail_of_course (History.created created).sound course id
    rw [mail_founded config hempty] at hlaw
    exact hlaw
  · intro missing m
    unfold send
    rw [missing]
    rfl

/-- The main task is written to by a task, by the clock and by a device, and takes one of the
    three messages; a fourth goes to a task that does not exist. -/
theorem mail_conserved_of_three_senders : ∃ es s, Story es s ∧
    es.map Episode.response = [.task ⟨3⟩, .done, .done, .refused (.noSuchTask ⟨9⟩),
      .expired false, .message (some (.layerFinish 4)), .done] ∧
    s.mail ⟨1⟩ = [.timerTimeout 1 7, .deviceInterrupt .keyboard] ∧
    es.flatMap (·.sentTo ⟨1⟩) =
      [.layerFinish 4, .timerTimeout 1 7, .deviceInterrupt .keyboard] := by
  have created : (create .standard .heap).outcome = .ok (.ok _) := rfl
  have story := (Story.created created).performAll
    (show (Dispatcher.performAll ⟨_, .create .standard⟩
      [.spawn .idle 0 3 .heap, .addTimer 1 7, .send ⟨1⟩ (.layerFinish 4),
        .send ⟨9⟩ (.layerFinish 5), .tick, .receive ⟨1⟩,
        .deviceInterrupt ⟨1⟩ .keyboard]).outcome = .ok (_, _) from rfl)
  have law := (mail_conserved story ⟨1⟩).1
  exact ⟨_, _, story, rfl, rfl, law.symm⟩

end Scheduler

end PreemptiveKernel

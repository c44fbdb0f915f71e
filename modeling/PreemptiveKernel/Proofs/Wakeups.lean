/-
  No message is slept through.

  A message may arrive at any time: from another task, from the clock, from a device, and
  between the moment in which a task finds its inbox empty and the moment in which it falls
  asleep.  The invariant is `Attentive`: whoever has mail is awake.

  Every act keeps it but falling asleep, which keeps it only if the inbox is empty
  (`Step.attentive`).  A message is never put down in one act and the receiver woken in another,
  and a round of waiting looks into the inbox of the state in which it puts the task to sleep.
  So it holds of every history in which tasks fall asleep by waiting alone
  (`mail_keeps_awake`).  A task that is told to sleep does so whatever is in its inbox.
-/
import PreemptiveKernel.Proofs.Histories

namespace PreemptiveKernel

open Run

/-- A task that has mail is awake. -/
def Task.Attentive (t : Task) : Prop :=
  t.inbox.messages ≠ [] → t.running = true

namespace Scheduler

variable {s s' : Scheduler}

/-- **Whoever has mail is awake.** -/
def Attentive (s : Scheduler) : Prop :=
  ∀ id t, s.tasks.get? id = some t → t.Attentive

/-! ## Steps -/

/-- One task has changed, and has mail afterwards only if it is awake. -/
theorem Attentive.revised {id : TaskId} {f : Task → Task} (ha : s.Attentive)
    (hget : ∀ x, s'.tasks.get? x = if x = id then (s.tasks.get? x).map f else s.tasks.get? x)
    (hf : ∀ t, s.tasks.get? id = some t → (f t).Attentive) : s'.Attentive := by
  intro x u hu
  rw [hget x] at hu
  split at hu
  · rename_i hx
    obtain ⟨t, ht, rfl⟩ := Option.map_eq_some_iff.mp hu
    exact hf t (hx ▸ ht)
  · exact ha x u hu

/-- **One step**: only falling asleep is a danger, and only for a task that has mail. -/
theorem Step.attentive {a : Act} (ha : s.Attentive) (h : Step s a s')
    (nothing : ∀ id t, a.lulls = some id → s.tasks.get? id = some t → t.inbox.messages = []) :
    s'.Attentive := by
  have hget := h.get?_eq
  cases h with
  | enroll next fresh asleep empty =>
    intro x u hu
    rw [hget x, Act.revise] at hu
    split at hu
    · -- a new task has no mail yet
      obtain rfl := Option.some.inj hu
      intro hmail
      rw [empty] at hmail
      exact absurd rfl hmail
    · exact ha x u hu
  | equip known change => exact ha.revised hget fun u hu => ha _ u hu
  | post known ready change =>
    refine ha.revised hget fun u hu _ => ?_
    obtain rfl := Option.some.inj (known.symm.trans hu)
    exact ready
  | take known oldest change =>
    -- what is left over was there before
    refine ha.revised hget fun u hu hmail => ha _ u hu fun hnil => hmail ?_
    show List.drop _ u.inbox.messages = []
    rw [hnil, List.drop_nil]
  | relevel known asleep => exact ha.revised hget fun u hu => ha _ u hu
  | wake known asleep change => exact ha.revised hget fun _ _ _ => rfl
  | dismiss known ready wakeful other =>
    exact ha.revised hget fun u hu hmail => absurd (nothing _ u rfl hu) hmail
  | transfer known ready wakeful other elsewhere =>
    exact ha.revised hget fun u hu => ha _ u hu
  | shift known wakeful current elsewhere => exact ha.revised hget fun u hu => ha _ u hu
  | yield head chosen =>
    intro x u hu
    rw [hget x] at hu
    exact ha x u hu
  | retire head wakeful chosen =>
    exact ha.revised hget fun u hu hmail => absurd (nothing _ u rfl hu) hmail

theorem Steps.attentive {acts : List Act} (ha : s.Attentive) (h : Steps s acts s')
    (calm : ∀ a ∈ acts, a.Calm) : s'.Attentive := by
  induction h with
  | nil => exact ha
  | cons first rest ih =>
    refine ih (first.attentive ha ?_) fun b hb => calm b (List.mem_cons_of_mem _ hb)
    intro id t hlulls
    rw [(calm _ List.mem_cons_self).2] at hlulls
    nomatch hlulls

theorem CalmSteps.attentive (ha : s.Attentive) (h : CalmSteps s s') : s'.Attentive := by
  obtain ⟨acts, steps, calm⟩ := h
  exact steps.attentive ha calm

end Scheduler

open Scheduler

/-! ## Requests and histories -/

/-- A request keeps it unless it puts a task to sleep by command.  A round of waiting puts the
    current task to sleep as well, but has found its inbox empty. -/
theorem Performed.attentive {s s' : Scheduler} {r : Request} {response : Response}
    (ha : s.Attentive) (h : Performed s r response s') (hr : ∀ id, r ≠ .sleep id) :
    s'.Attentive := by
  cases h with
  | calm steps silent => exact steps.attentive ha
  | yielded asked steps last told =>
    refine last.attentive (steps.attentive ha) ?_
    intro id t hlulls
    nomatch hlulls
  | dismissed asked step silent => exact absurd asked (hr _)
  | retired asked step told => exact absurd asked (hr _)
  | waited asked known nothing step told =>
    -- the inbox that was found empty is that of the state in which the task falls asleep
    refine step.attentive ha ?_
    intro id t hlulls ht
    obtain rfl := Option.some.inj hlulls
    obtain rfl := Option.some.inj (known.symm.trans ht)
    exact nothing

namespace Scheduler

/-- Both tasks of a new scheduler are awake. -/
theorem founded_attentive (config : Config) (idle : Task) :
    (founded config idle).Attentive := by
  intro x t ht _
  rw [get?_founded] at ht
  split at ht
  · rw [← Option.some.inj ht]
  · split at ht
    · rw [← Option.some.inj ht]
    · nomatch ht

/-- Every history in which nobody is put to sleep by command. -/
theorem History.attentive {log : List (Request × Response)} {s : Scheduler} (h : History log s)
    (hlog : ∀ p ∈ log, ∀ id, p.1 ≠ .sleep id) : s.Attentive := by
  induction h with
  | created done =>
    obtain ⟨idle, -, rfl⟩ := exists_founded done
    exact founded_attentive _ idle
  | request before done ih =>
    have hbefore := ih fun p hp => hlog p (List.mem_append_left _ hp)
    have performed := (Dispatcher.perform_ends before.sound _ _).of_ok done
    exact performed.attentive hbefore (hlog _ (List.mem_append_right _ List.mem_cons_self))

/-- **No wakeup is lost.**  Whatever tasks, clocks and devices do and in whatever order: if
    tasks fall asleep by waiting alone, every task that has mail is ready and stands in the
    queue of its level. -/
theorem mail_keeps_awake {log : List (Request × Response)} {s : Scheduler} (h : History log s)
    (hlog : ∀ p ∈ log, ∀ id, p.1 ≠ .sleep id) :
    ∀ id t, (id, t) ∈ s.tasks.entries → t.inbox.messages ≠ [] →
      t.running = true ∧ id ∈ s.queue t.level := by
  intro id t hin hmail
  have known := TaskTable.get?_of_mem h.sound.keys_nodup hin
  have ready := h.attentive hlog id t known hmail
  exact ⟨ready, h.sound.mem_queue known ready⟩

/-- The main task waits, falls asleep, and is sent a message by the task that runs then. -/
theorem mail_keeps_awake_after_wait : ∃ s t, History
    [(.spawn .idle 0 3 .heap, .task ⟨3⟩), (.wait, .waited none (some ⟨⟨1⟩, ⟨3⟩⟩)),
      (.send ⟨1⟩ (.layerFinish 4), .done)] s ∧
    (⟨1⟩, t) ∈ s.tasks.entries ∧ t.inbox.messages = [.layerFinish 4] ∧
    t.running = true ∧ ⟨1⟩ ∈ s.queue t.level := by
  have created : (create .standard .heap).outcome = .ok (.ok _) := rfl
  have h := (History.created created).performAll
    (show (Dispatcher.performAll ⟨_, .create .standard⟩
      [.spawn .idle 0 3 .heap, .wait, .send ⟨1⟩ (.layerFinish 4)]).outcome = .ok (_, _)
      from rfl)
  have hawake := mail_keeps_awake h (by simp) ⟨1⟩ _ List.mem_cons_self nofun
  exact ⟨_, _, h, List.mem_cons_self, rfl, hawake⟩

end Scheduler

end PreemptiveKernel

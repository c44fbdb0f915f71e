/-
  The scheduler: its state, its queues, and the choice of the current task.

  The scheduler keeps the task table and one ready queue a level.  A task that can run
  stands in the queue of its level; one that sleeps stands in none.  The current task is
  the head of the queue of the current level.

  The current level is not recomputed at every change.  A change that may call for another
  level only raises `reschedule`; the next rotation then looks for the highest level that
  has a ready task.
-/
import PreemptiveKernel.Config
import PreemptiveKernel.TaskTable

namespace PreemptiveKernel

/-- A change of the current task: the one that leaves the processor and the one that
    enters it. -/
structure Handoff where
  /-- The task whose registers are to be saved. -/
  leaving : TaskId
  /-- The task whose registers are to be loaded. -/
  entering : TaskId
  deriving DecidableEq, Repr

/-- The state of the scheduler. -/
structure Scheduler where
  /-- Every task that has been created. -/
  tasks : TaskTable
  /-- The number of the task that was created last. -/
  latest : Nat
  /-- The ready tasks of each level, the head first. -/
  ready : Vector (List TaskId) 4
  /-- The level whose head is the current task. -/
  currentLevel : Level
  /-- The next rotation has to look for the current level anew. -/
  reschedule : Bool
  /-- The task that set the scheduler up. -/
  main : TaskId
  /-- The task that runs when nothing else can. -/
  idle : TaskId
  /-- The parameters it was set up with. -/
  config : Config
  deriving DecidableEq

namespace Scheduler

/-! ## Queues -/

/-- The ready queue of a level. -/
def queue (s : Scheduler) (l : Level) : List TaskId :=
  s.ready[l]

/-- Replaces the ready queue of a level. -/
def setQueue (s : Scheduler) (l : Level) (q : List TaskId) : Scheduler :=
  { s with ready := s.ready.set l q }

/-- The ready queue of a level given by its number; `none` if there is no such level. -/
def queue? (s : Scheduler) (n : Nat) : Option (List TaskId) :=
  s.ready[n]?

/-- All ready queues, the lowest level first. -/
def queues (s : Scheduler) : List (List TaskId) :=
  s.ready.toList

/-- A task joins the tail of a queue. -/
def pushBack (s : Scheduler) (l : Level) (id : TaskId) : Scheduler :=
  s.setQueue l (s.queue l ++ [id])

/-- A task joins the head of a queue. -/
def pushFront (s : Scheduler) (l : Level) (id : TaskId) : Scheduler :=
  s.setQueue l (id :: s.queue l)

/-- The head of a queue leaves it. -/
def popFront (s : Scheduler) (l : Level) : Scheduler :=
  s.setQueue l (s.queue l).tail

/-- A task leaves a queue from wherever it stands.  It has to stand there. -/
def dequeue (s : Scheduler) (l : Level) (id : TaskId) : Except Stop Scheduler :=
  if id ∈ s.queue l then .ok (s.setQueue l ((s.queue l).erase id))
  else .error (.notQueued id l)

/-- Raises the request for another choice of level. -/
def requestReschedule (s : Scheduler) : Scheduler :=
  { s with reschedule := true }

/-- Raises the request if a task has become ready above the current level. -/
def noteReadyAt (s : Scheduler) (l : Level) : Scheduler :=
  if s.currentLevel < l then s.requestReschedule else s

@[simp] theorem queue_setQueue_self (s : Scheduler) (l : Level) (q : List TaskId) :
    (s.setQueue l q).queue l = q := by
  simp [queue, setQueue]

theorem queue_setQueue_of_ne (s : Scheduler) {l k : Level} (h : k ≠ l) (q : List TaskId) :
    (s.setQueue l q).queue k = s.queue k := by
  have : (l : Nat) ≠ (k : Nat) := fun e => h (Fin.ext e.symm)
  simp [queue, setQueue, this]

theorem queue_setQueue (s : Scheduler) (l k : Level) (q : List TaskId) :
    (s.setQueue l q).queue k = if k = l then q else s.queue k := by
  by_cases h : k = l
  · subst h
    simp
  · simp [h, queue_setQueue_of_ne]

/-- A task that stands in a queue can leave it, and nobody else moves. -/
theorem dequeue_of_mem {s : Scheduler} {l : Level} {id : TaskId} (h : id ∈ s.queue l) :
    s.dequeue l id = .ok (s.setQueue l ((s.queue l).erase id)) := by
  rw [dequeue, if_pos h]

@[simp] theorem queue_noteReadyAt (s : Scheduler) (l k : Level) :
    (s.noteReadyAt l).queue k = s.queue k := by
  rw [noteReadyAt]
  split <;> rfl

/-! ## Tasks -/

/-- The task with this identifier, or the refusal that there is none. -/
def task (s : Scheduler) (id : TaskId) : Except KernelError Task :=
  match s.tasks.get? id with
  | some task => .ok task
  | none => .error (.noSuchTask id)

/-- The task with an identifier that was found in a queue.  It has to exist. -/
def queuedTask (s : Scheduler) (id : TaskId) : Except Stop Task :=
  match s.tasks.get? id with
  | some task => .ok task
  | none => .error (.queuedUnknown id)

/-- Changes a task. -/
def modifyTask (s : Scheduler) (id : TaskId) (f : Task → Task) : Scheduler :=
  { s with tasks := s.tasks.modify id f }

/-- Changes whether a task counts as ready. -/
def setRunning (s : Scheduler) (id : TaskId) (running : Bool) : Scheduler :=
  s.modifyTask id fun t => { t with running := running }

/-- Changes the level of a task. -/
def setLevel (s : Scheduler) (id : TaskId) (l : Level) : Scheduler :=
  s.modifyTask id fun t => { t with level := l }

/-! ## The current task -/

/-- The current task: the head of the queue of the current level. -/
def currentId (s : Scheduler) : Except Stop TaskId :=
  match s.queue s.currentLevel with
  | id :: _ => .ok id
  | [] => .error (.noCurrentTask s.currentLevel)

/-- The current task with all that belongs to it. -/
def currentTask (s : Scheduler) : Except Stop Task := do
  let id ← s.currentId
  s.queuedTask id

/-- The highest level that has a ready task. -/
def highestReady (s : Scheduler) : Option Level :=
  Level.descending.find? fun l => !(s.queue l).isEmpty

theorem queue_ne_nil_of_highestReady {s : Scheduler} {l : Level} (h : s.highestReady = some l) :
    s.queue l ≠ [] := by
  have hl := List.find?_some h
  intro hq
  rw [hq] at hl
  nomatch hl

/-- Above the highest level that has a ready task all queues are empty. -/
theorem queue_eq_nil_of_highestReady_lt {s : Scheduler} {l k : Level}
    (h : s.highestReady = some l) (hk : l < k) : s.queue k = [] := by
  obtain ⟨_, above, below, hsplit, habove⟩ := List.find?_eq_some_iff_append.mp h
  have hpair := Level.descending_pairwise
  rw [hsplit] at hpair
  have hmem := Level.mem_descending k
  rw [hsplit] at hmem
  rcases List.mem_append.mp hmem with hin | hin
  · have := habove k hin
    simpa using this
  · -- what stands at `l` or behind it is not above `l`
    exfalso
    rcases List.mem_cons.mp hin with heq | hlow
    · rw [heq] at hk
      exact Nat.lt_irrefl _ hk
    · have := (List.pairwise_cons.mp (List.pairwise_append.mp hpair).2.1).1 k hlow
      exact Nat.lt_asymm hk this

theorem highestReady_eq_none_iff {s : Scheduler} :
    s.highestReady = none ↔ ∀ l, s.queue l = [] := by
  rw [highestReady, List.find?_eq_none]
  constructor
  · intro h l
    have := h l (Level.mem_descending l)
    simpa using this
  · intro h l _
    simp [h l]

/-- Moves to the highest level that has a ready task, if another choice was requested, and
    drops the request. -/
def chooseLevel (s : Scheduler) : Scheduler :=
  if s.reschedule then
    { s with
      reschedule := false
      currentLevel := s.highestReady.getD s.currentLevel }
  else s

/-- Takes the current task from the head of its queue, puts it behind the others of its
    level unless it goes to sleep, and chooses the level to run.  Gives the task that was
    current and the one that is. -/
def rotate (s : Scheduler) (asleep : Bool) : Except Stop (Handoff × Scheduler) :=
  let level := s.currentLevel
  match s.queue level with
  | [] => .error (.noCurrentTask level)
  | leaving :: others =>
    let queue := if asleep then others else others ++ [leaving]
    let rotated := s.setQueue level queue
    let s := (if queue.isEmpty then rotated.requestReschedule else rotated).chooseLevel
    return (⟨leaving, ← s.currentId⟩, s)

/-- What is to be done for a change of the current task: nothing if it stays the same.
    Both tasks have to exist. -/
def handoff (s : Scheduler) (h : Handoff) : Except Stop (Option Handoff) :=
  if h.leaving = h.entering then .ok none
  else do
    let _ ← s.queuedTask h.leaving
    let _ ← s.queuedTask h.entering
    return some h

end Scheduler

end PreemptiveKernel

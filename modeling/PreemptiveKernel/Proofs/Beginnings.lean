/-
  Nobody gets the processor without a place to begin.

  To carry out a handoff is to load the registers of the task that enters.  They make sense if
  the task has been prepared, which gives it a stack and a place to begin, or if it has run
  before and its registers were saved when it left.  The main task is the one that is never
  prepared: it runs from the start, and only its own leaving saves its registers.

  A spawned task is prepared before it is entered in the table.  A task that was merely created
  is not, and whoever creates one has to prepare it before anything wakes it.  `Careful` says so
  of a story, by its requests alone.  The invariant is `Begun`: every task but the main task is
  equipped as its last preparation has left it, or it has had none and still sleeps.  A task
  that enters the processor is awake, so it has had one (`handoff_enters_prepared`).
-/
import PreemptiveKernel.Proofs.Courses
import PreemptiveKernel.Proofs.Handoffs

namespace PreemptiveKernel

open Run Scheduler

/-! ## Preparations -/

/-- What a task needs to run: registers and a stack. -/
structure Outfit where
  context : Context
  stack : Option Stack

def Task.outfit (t : Task) : Outfit :=
  ⟨t.context, t.stack⟩

/-- The outfit is what a successful preparation of the task `id` to begin with `entry` gives. -/
def Outfit.Prepared (o : Outfit) (id : TaskId) (entry : EntryPoint) (data : Int64) : Prop :=
  ∃ (t prepared : Task) (allocate : StackAllocator) (cr3 : UInt64), t.id = id ∧
    (t.prepare entry data allocate cr3).outcome = .ok (.ok (), prepared) ∧ prepared.outfit = o

/-- A prepared task begins with its entry routine, is told its identifier and its data, and has
    a stack. -/
theorem Outfit.Prepared.begins {o : Outfit} {id : TaskId} {entry : EntryPoint} {data : Int64}
    (h : o.Prepared id entry data) :
    o.context.rip = some entry ∧ o.context.rdi = id.val.toUInt64 ∧
    o.context.rsi = data.toUInt64 ∧ ∃ stack, o.stack = some stack := by
  obtain ⟨t, prepared, allocate, cr3, rfl, done, rfl⟩ := h
  rcases (t.prepare_ends entry data allocate cr3).of_ok done with
    ⟨error, -, refused⟩ | ⟨rsp, stack, answered⟩
  · nomatch refused
  · cases answered
    exact ⟨rfl, rfl, rfl, stack, rfl⟩

/-- What the task `id` is to begin with, if the request has prepared it. -/
def Request.prepares (r : Request) (response : Response) (id : TaskId) :
    Option (EntryPoint × Int64) :=
  match r, response with
  | .prepare key entry data _ _, .task _ => if id = key then some (entry, data) else none
  | .spawn entry data _ _ _, .task key => if id = key then some (entry, data) else none
  | _, _ => none

/-- The request has created the task `id`, and nothing more. -/
def Request.creates (r : Request) (response : Response) (id : TaskId) : Bool :=
  match r, response with
  | .newTask, .task key => decide (id = key)
  | _, _ => false

/-- The tasks that the request has woken on purpose, and those that it sends messages to. -/
def Dispatcher.rouses (d : Dispatcher) (r : Request) (response : Response) : List TaskId :=
  match r, response with
  | .wakeup id _, .done => [id]
  | _, _ => (d.letters r).map Letter.receiver

namespace Episode

def prepares (e : Episode) (id : TaskId) : Option (EntryPoint × Int64) :=
  e.request.prepares e.response id

def creates (e : Episode) (id : TaskId) : Bool :=
  e.request.creates e.response id

def rouses (e : Episode) : List TaskId :=
  e.before.rouses e.request e.response

end Episode

/-- **Care with new tasks**: who was merely created has been prepared with success before
    anything wakes the task or sends it a message. -/
def Careful (es : List Episode) : Prop :=
  ∀ (n : Nat) (h : n < es.length), ∀ id ∈ es[n].rouses,
    (∃ f ∈ es.take n, f.creates id) → ∃ f ∈ es.take n, (f.prepares id).isSome

instance (es : List Episode) : Decidable (Careful es) :=
  inferInstanceAs (Decidable (∀ (n : Nat) (h : n < es.length), ∀ id ∈ es[n].rouses,
    (∃ f ∈ es.take n, f.creates id) → ∃ f ∈ es.take n, (f.prepares id).isSome))

namespace Careful

variable {es fs : List Episode} {e : Episode}

theorem of_append (h : Careful (es ++ fs)) : Careful es := by
  intro n hn id hid
  have hlaw := h n (List.length_append ▸ Nat.lt_add_right _ hn) id
  rw [List.getElem_append_left hn, List.take_append_of_le_length (Nat.le_of_lt hn)] at hlaw
  exact hlaw hid

theorem last (h : Careful (es ++ [e])) {id : TaskId} (hid : id ∈ e.rouses)
    (created : ∃ f ∈ es, f.creates id) : ∃ f ∈ es, (f.prepares id).isSome := by
  have hlaw := h es.length (by simp) id
  rw [List.getElem_concat_length rfl, List.take_left] at hlaw
  exact hlaw hid created

end Careful

/-- What the last successful preparation in the story let the task `id` begin with.  The idle
    task is prepared when the scheduler is set up. -/
def beginning (idle id : TaskId) (es : List Episode) : Option (EntryPoint × Int64) :=
  (es.reverse.findSome? (·.prepares id)).or (if id = idle then some (.idle, 0) else none)

theorem beginning_concat (idle id : TaskId) (es : List Episode) (e : Episode) :
    beginning idle id (es ++ [e]) = (e.prepares id).or (beginning idle id es) := by
  unfold beginning
  rw [List.reverse_append, List.reverse_singleton, List.singleton_append, List.findSome?_cons]
  cases e.prepares id with
  | none => rfl
  | some first => rfl

/-- Who has no beginning has never been prepared. -/
theorem prepares_eq_none {idle id : TaskId} {es : List Episode}
    (h : beginning idle id es = none) : ∀ f ∈ es, f.prepares id = none := by
  intro f hf
  have hnone := (Option.or_eq_none_iff.mp h).1
  exact List.findSome?_eq_none_iff.mp hnone f (List.mem_reverse.mpr hf)

namespace Scheduler

variable {s s' : Scheduler} {id : TaskId}

/-! ## Acts -/

/-- The outfit of the task with this identifier, if there is such a task. -/
def outfit (s : Scheduler) (id : TaskId) : Option Outfit :=
  (s.tasks.get? id).map Task.outfit

/-- The outfit that an act gives the task `id`. -/
def Act.outfits (id : TaskId) : Act → Option Outfit
  | .enroll t => if id = t.id then some t.outfit else none
  | .equip key context stack => if id = key then some ⟨context, stack⟩ else none
  | _ => none

/-- One task has changed, and its outfit is what it was. -/
theorem outfit_revised_same {key : TaskId} {f : Task → Task}
    (hget : ∀ x, s'.tasks.get? x = if x = key then (s.tasks.get? x).map f else s.tasks.get? x)
    (hf : ∀ t, (f t).outfit = t.outfit) (x : TaskId) : s'.outfit x = s.outfit x := by
  unfold outfit
  rw [hget x]
  split
  · rw [Option.map_map]
    congr 1
    exact funext hf
  · rfl

/-- **Enrolling and equipping alone** give anybody an outfit. -/
theorem Step.outfit {a : Act} (h : Step s a s') (id : TaskId) :
    s'.outfit id = (a.outfits id).or (s.outfit id) := by
  have hget := h.get?_eq
  cases h with
  | @enroll t next fresh asleep empty =>
    unfold Scheduler.outfit
    rw [hget id, Act.revise, Act.outfits]
    split
    · rfl
    · rfl
  | @equip key t f context stack known change =>
    unfold Scheduler.outfit
    rw [hget id, Act.revise, Act.outfits]
    split
    · rename_i hid
      rw [hid, known]
      rfl
    · rfl
  | yield head chosen =>
    unfold Scheduler.outfit
    rw [hget id]
    rfl
  | _ => exact outfit_revised_same hget (fun _ => rfl) id

theorem Steps.outfit_kept {acts : List Act} (h : Steps s acts s')
    (quiet : ∀ a ∈ acts, a.outfits id = none) : s'.outfit id = s.outfit id := by
  induction h with
  | nil => rfl
  | cons first rest ih =>
    rw [ih fun a ha => quiet a (List.mem_cons_of_mem _ ha), first.outfit id,
      quiet _ List.mem_cons_self]
    rfl

/-- The task that an act wakes. -/
def Act.wakes : Act → Option TaskId
  | .wake id _ _ => some id
  | _ => none

/-- **Waking alone** lets a sleeping task stand in a queue. -/
theorem Step.asleep_kept {a : Act} (hs : s.Sound) (h : Step s a s') (asleep : s.station id = none)
    (quiet : a.wakes ≠ some id) : s'.station id = none := by
  rw [h.station_eq hs id]
  cases h with
  | wake known sleeping change =>
    have hne : id ≠ _ := fun e => quiet (congrArg some e.symm)
    rw [Act.restation, if_neg hne]
    exact asleep
  | @transfer key t l known ready wakeful other elsewhere =>
    have hne : id ≠ key := by
      rintro rfl
      rw [station_of_ready known ready] at asleep
      nomatch asleep
    rw [Act.restation, if_neg hne]
    exact asleep
  | @shift key t l known wakeful current elsewhere =>
    have hne : id ≠ key := by
      rintro rfl
      rw [station_of_ready known (hs.current_ready current known).1] at asleep
      nomatch asleep
    rw [Act.restation, if_neg hne]
    exact asleep
  | dismiss | retire =>
    rw [Act.restation, asleep, ite_self]
  | _ => exact asleep

theorem Steps.asleep_kept {acts : List Act} (hs : s.Sound) (h : Steps s acts s')
    (asleep : s.station id = none) (quiet : ∀ a ∈ acts, a.wakes ≠ some id) :
    s'.station id = none := by
  induction h with
  | nil => exact asleep
  | cons first rest ih =>
    have hfirst := first.asleep_kept hs asleep (quiet _ List.mem_cons_self)
    exact ih (first.sound hs) hfirst fun a ha => quiet a (List.mem_cons_of_mem _ ha)

/-- Deliveries give nobody an outfit. -/
theorem Carried.outfits_eq_none {letters : List Letter} {acts : List Act}
    (h : Carried s letters acts) : ∀ a ∈ acts, a.outfits id = none := by
  intro a ha
  obtain ⟨x, -, rfl | ⟨l, rfl⟩⟩ := h.of_mem ha
  · rfl
  · rfl

/-- Deliveries wake none but receivers. -/
theorem Carried.mem_receivers {letters : List Letter} {acts : List Act} {a : Act}
    (h : Carried s letters acts) (ha : a ∈ acts) (hw : a.wakes = some id) :
    id ∈ letters.map Letter.receiver := by
  obtain ⟨x, hx, rfl | ⟨l, rfl⟩⟩ := h.of_mem ha
  · nomatch hw
  · obtain rfl := Option.some.inj hw
    exact List.mem_map_of_mem hx

end Scheduler

/-! ## Requests -/

variable {d : Dispatcher} {r : Request} {response : Response} {acts : List Act}
  {s' : Scheduler} {id : TaskId}

/-- What a request that leads from `s` to `s'` does to the outfit of a task. -/
inductive Outfits (s : Scheduler) (r : Request) (response : Response) (s' : Scheduler)
    (id : TaskId) : Prop
  /-- The task has been prepared. -/
  | prepared {entry : EntryPoint} {data : Int64} {o : Outfit}
      (asked : r.prepares response id = some (entry, data)) (now : s'.outfit id = some o)
      (done : o.Prepared id entry data)
  /-- The task has been created. -/
  | created (asked : r.prepares response id = none) (fresh : s.outfit id = none)
      (creates : r.creates response id)
  /-- Nothing has happened to it. -/
  | kept (asked : r.prepares response id = none) (same : s'.outfit id = s.outfit id)

namespace Outfits

variable {s : Scheduler} {key : TaskId}

theorem of_enroll {stackBytes : Nat} (step : Step s (.enroll (.create key stackBytes)) s') :
    Outfits s .newTask (.task key) s' id := by
  by_cases hid : id = key
  · refine .created rfl ?_ (decide_eq_true hid)
    cases step with
    | enroll next fresh asleep empty =>
      rw [hid]
      exact congrArg (Option.map Task.outfit) fresh
  · have hlaw := step.outfit id
    have hother : (Act.enroll (.create key stackBytes)).outfits id = none := if_neg hid
    rw [hother] at hlaw
    exact .kept rfl hlaw

theorem of_equip {t prepared : Task} {entry : EntryPoint} {data : Int64}
    {allocate : StackAllocator} {cr3 : UInt64} (named : t.id = key)
    (done : (t.prepare entry data allocate cr3).outcome = .ok (.ok (), prepared))
    (step : Step s (.equip key prepared.context prepared.stack) s') :
    Outfits s (.prepare key entry data allocate cr3) (.task prepared.id) s' id := by
  have hlaw := step.outfit id
  by_cases hid : id = key
  · rw [Act.outfits, if_pos hid] at hlaw
    exact .prepared (if_pos hid) hlaw ⟨t, prepared, allocate, cr3, named.trans hid.symm, done, rfl⟩
  · rw [Act.outfits, if_neg hid] at hlaw
    exact .kept (if_neg hid) hlaw

theorem of_spawn {t : Task} {l : Level} {entry : EntryPoint} {data : Int64} {n : Nat}
    {allocate : StackAllocator} {cr3 : UInt64} {stackBytes : Nat}
    (done : ((Task.create t.id stackBytes).prepare entry data allocate cr3).outcome =
      .ok (.ok (), t))
    (steps : Steps s ([.enroll t] ++ [.wake t.id l []]) s') :
    Outfits s (.spawn entry data n allocate cr3) (.task t.id) s' id := by
  obtain ⟨between, enrolled, woken⟩ := steps.split
  have hlaw : s'.outfit id = between.outfit id := woken.of_single.outfit id
  rw [enrolled.of_single.outfit id] at hlaw
  by_cases hid : id = t.id
  · rw [Act.outfits, if_pos hid] at hlaw
    exact .prepared (if_pos hid) hlaw ⟨.create t.id stackBytes, t, allocate, cr3, hid.symm, done, rfl⟩
  · rw [Act.outfits, if_neg hid] at hlaw
    exact .kept (if_neg hid) hlaw

end Outfits

/-- **The law of one request** for outfits. -/
theorem Enacted.outfits (hs : d.scheduler.Sound) (steps : Steps d.scheduler acts s')
    (h : Enacted d r response acts) (id : TaskId) : Outfits d.scheduler r response s' id := by
  have hkept : (∀ a ∈ acts, a.outfits id = none) → r.prepares response id = none →
      Outfits d.scheduler r response s' id :=
    fun quiet asked => .kept asked (steps.outfit_kept quiet)
  cases h with
  | enrolled => exact .of_enroll steps.of_single
  | equipped known done => exact .of_equip (hs.named known) done steps.of_single
  | spawned level done => exact .of_spawn done steps
  | refused asked =>
    refine hkept (by simp) ?_
    cases r with
    | _ => rfl
  | moved asked act =>
    refine hkept ?_ ?_
    · intro a ha
      obtain rfl := List.mem_singleton.mp ha
      rcases act with rfl | rfl | rfl
      · rfl
      · rfl
      · rfl
    · rcases asked with rfl | rfl
      · rfl
      · rfl
  | unmoved asked =>
    refine hkept (by simp) ?_
    rcases asked with ⟨n, rfl⟩ | ⟨level, rfl⟩
    · rfl
    · rfl
  | sent carried | notified carried | ticked carried | interrupted running carried =>
    exact hkept carried.outfits_eq_none rfl
  | preempted ended carried =>
    refine hkept ?_ rfl
    intro a ha
    rcases List.mem_append.mp ha with hin | hin
    · exact carried.outfits_eq_none a hin
    · obtain rfl := List.mem_singleton.mp hin
      rfl
  | _ => exact hkept (by simp [Act.outfits]) rfl

/-- **The law of one request** for waking: who wakes up has been roused, or has been prepared
    by the same request. -/
theorem Enacted.rouses {a : Act} (h : Enacted d r response acts) (ha : a ∈ acts)
    (hw : a.wakes = some id) :
    id ∈ d.rouses r response ∨ (r.prepares response id).isSome := by
  have hnone : (∀ b ∈ acts, b.wakes = none) → False := by
    intro quiet
    rw [quiet a ha] at hw
    nomatch hw
  cases h with
  | @spawned t l entry data n allocate level ready =>
    right
    have hid : t.id = id := by
      simp only [List.mem_cons, List.not_mem_nil, or_false] at ha
      rcases ha with rfl | rfl
      · nomatch hw
      · exact Option.some.inj hw
    show (if id = t.id then some (entry, data) else none).isSome
    rw [if_pos hid.symm]
    rfl
  | woken =>
    obtain rfl := List.mem_singleton.mp ha
    obtain rfl := Option.some.inj hw
    exact .inl List.mem_cons_self
  | moved asked act =>
    refine (hnone ?_).elim
    intro b hb
    obtain rfl := List.mem_singleton.mp hb
    rcases act with rfl | rfl | rfl
    · rfl
    · rfl
    · rfl
  | sent carried | notified carried | ticked carried | interrupted running carried =>
    exact .inl (carried.mem_receivers ha hw)
  | preempted ended carried =>
    rcases List.mem_append.mp ha with hin | hin
    · exact .inl (carried.mem_receivers hin hw)
    · obtain rfl := List.mem_singleton.mp hin
      nomatch hw
  | _ => exact (hnone (by simp [Act.wakes])).elim

/-! ## Runs -/

namespace Scheduler

variable {s : Scheduler} {es : List Episode}

/-- **The invariant** for a task other than the main task: it is equipped as its last
    preparation has left it; or it has had none, and then it sleeps, if there is such a task. -/
inductive Begun (es : List Episode) (s : Scheduler) (id : TaskId) : Prop
  | prepared {entry : EntryPoint} {data : Int64} {o : Outfit} (known : s.outfit id = some o)
      (last : beginning s.idle id es = some (entry, data)) (done : o.Prepared id entry data)
  | waiting (never : beginning s.idle id es = none) (asleep : s.station id = none)
      (origin : s.outfit id ≠ none → ∃ f ∈ es, f.creates id)

theorem begun_founded {config : Config} {allocate : StackAllocator} {cr3 : UInt64} {idle : Task}
    (prepared : ((Task.create ⟨2⟩ config.stackBytes).prepare .idle 0 allocate cr3).outcome =
      .ok (.ok (), idle)) {id : TaskId} (hid : id ≠ ⟨1⟩) : Begun [] (founded config idle) id := by
  by_cases hidle : id = ⟨2⟩
  · subst hidle
    exact .prepared (o := idle.outfit) rfl rfl ⟨_, idle, allocate, cr3, rfl, prepared, rfl⟩
  · have hmissing : (founded config idle).tasks.get? id = none := by
      rw [get?_founded, if_neg hid, if_neg hidle]
    refine .waiting (if_neg hidle) ?_ fun hknown => ?_
    · rw [station, hmissing]
      rfl
    · rw [outfit, hmissing] at hknown
      exact absurd rfl hknown

theorem station_of_unknown {id : TaskId} (h : s.outfit id = none) : s.station id = none := by
  rw [station, Option.map_eq_none_iff.mp h]
  rfl

/-- A sleeping task that nothing rouses goes on sleeping, unless it is prepared. -/
theorem asleep_of_unroused {e : Episode} {id : TaskId} (hs : e.before.scheduler.Sound)
    (now : e.prepares id = none) (quiet : id ∉ e.rouses)
    (asleep : e.before.scheduler.station id = none) : e.after.scheduler.station id = none := by
  obtain ⟨acts, steps, enacted⟩ := e.enacts hs
  refine steps.asleep_kept hs asleep ?_
  intro a ha hw
  rcases enacted.rouses ha hw with hroused | hprepared
  · exact quiet hroused
  · have hnone : e.request.prepares e.response id = none := now
    rw [hnone] at hprepared
    nomatch hprepared

/-- To create a task rouses nobody. -/
theorem not_mem_rouses_of_creates {e : Episode} {id : TaskId} (h : e.creates id) :
    id ∉ e.rouses := by
  obtain ⟨d, r, response, d', done⟩ := e
  cases r with
  | newTask => exact List.not_mem_nil
  | _ => nomatch h

theorem Begun.next {e : Episode} {id : TaskId} (hs : e.before.scheduler.Sound)
    (careful : Careful (es ++ [e])) (h : Begun es e.before.scheduler id) :
    Begun (es ++ [e]) e.after.scheduler id := by
  obtain ⟨acts, steps, enacted⟩ := e.enacts hs
  have hlast : beginning e.after.scheduler.idle id (es ++ [e]) =
      (e.prepares id).or (beginning e.before.scheduler.idle id es) := by
    rw [steps.frame.2, beginning_concat]
  cases enacted.outfits hs steps id with
  | prepared asked now done =>
    refine .prepared now ?_ done
    rw [hlast, Episode.prepares, asked]
    rfl
  | created asked fresh creates =>
    -- the task did not exist, so it has never been prepared
    cases h with
    | prepared known last done =>
      rw [fresh] at known
      nomatch known
    | waiting never asleep origin =>
      refine .waiting ?_ ?_ fun _ => ⟨e, List.mem_append_right _ List.mem_cons_self, creates⟩
      · rw [hlast, Episode.prepares, asked, never]
        rfl
      · exact asleep_of_unroused hs asked (not_mem_rouses_of_creates creates) asleep
  | kept asked same =>
    rw [Episode.prepares, asked, Option.none_or] at hlast
    cases h with
    | prepared known last done => exact .prepared (same.trans known) (hlast.trans last) done
    | waiting never asleep origin =>
      refine .waiting (hlast.trans never) ?_ fun hknown => ?_
      · by_cases hmissing : e.before.scheduler.outfit id = none
        · exact station_of_unknown (same.trans hmissing)
        · -- nothing may rouse a task that was created and has not been prepared
          refine asleep_of_unroused hs asked (fun hroused => ?_) asleep
          obtain ⟨f, hf, hprepares⟩ := careful.last hroused (origin hmissing)
          rw [prepares_eq_none never f hf] at hprepares
          nomatch hprepares
      · rw [same] at hknown
        obtain ⟨f, hf, hcreates⟩ := origin hknown
        exact ⟨f, List.mem_append_left _ hf, hcreates⟩

theorem begun_of_story (story : Story es s) (careful : Careful es) {id : TaskId}
    (hid : id ≠ s.main) : Begun es s id := by
  obtain ⟨config, allocate, cr3, first, created, course⟩ := story
  have hfirst := (History.created created).sound
  obtain ⟨idle, rfl, prepared⟩ := History.exists_prepared created
  rw [(course.frame hfirst).1] at hid
  induction course with
  | nil => exact begun_founded prepared hid
  | snoc earlier ih =>
    exact (ih careful.of_append).next (earlier.sound hfirst) careful

/-! ## Handoffs -/

/-- A task other than the main task that is awake has been prepared. -/
theorem prepared_of_awake (story : Story es s) (careful : Careful es) {id : TaskId}
    (hid : id ≠ s.main) (awake : s.station id ≠ none) :
    ∃ t entry data, s.tasks.get? id = some t ∧ beginning s.idle id es = some (entry, data) ∧
      t.outfit.Prepared id entry data := by
  cases begun_of_story story careful hid with
  | prepared known last done =>
    obtain ⟨t, ht, rfl⟩ := Option.map_eq_some_iff.mp known
    exact ⟨t, _, _, ht, last, done⟩
  | waiting never asleep origin => exact absurd asleep awake

end Scheduler

namespace Episode

variable {e : Episode} {change : Handoff}

/-- No request hands over and prepares. -/
theorem prepares_eq_none_of_handoff (told : e.response.handoff = some change) (id : TaskId) :
    e.prepares id = none := by
  unfold prepares Request.prepares
  split
  · rename_i hresponse
    rw [hresponse] at told
    nomatch told
  · rename_i hresponse
    rw [hresponse] at told
    nomatch told
  · rfl

end Episode

namespace Scheduler

variable {s : Scheduler} {es : List Episode}

/-- Once the main task is not the current one, it has been left. -/
theorem main_left (story : Story es s) {current : TaskId} (hc : s.currentId = .ok current)
    (hne : current ≠ s.main) :
    ∃ h ∈ handoffs (es.map Episode.exchange), h.leaving = s.main := by
  obtain ⟨last, hlast, chain⟩ := story.history.chain
  obtain rfl : current = last := Except.ok.inj (hc.symm.trans hlast)
  cases hhandoffs : handoffs (es.map Episode.exchange) with
  | nil =>
    rw [hhandoffs] at chain
    exact absurd chain hne
  | cons h rest =>
    rw [hhandoffs] at chain
    exact ⟨h, List.mem_cons_self, chain.1⟩

/-- **A handoff never leads to nowhere.**  Take any story in which a task that was merely
    created is prepared before anything wakes it or writes to it, whatever else is asked and
    whatever fails in between.  A task that a handoff gives the processor to has the registers
    and the stack of its last successful preparation, so that it begins with its entry routine
    and is told its identifier; or it is the main task, and an earlier handoff of the story has
    left it. -/
theorem handoff_enters_prepared (story : Story es s) (careful : Careful es) {n : Nat}
    (h : n < es.length) {change : Handoff} (told : es[n].response.handoff = some change) :
    (∃ t entry data, es[n].after.scheduler.tasks.get? change.entering = some t ∧
      beginning s.idle change.entering (es.take n) = some (entry, data) ∧
      t.outfit.Prepared change.entering entry data ∧
      t.context.rip = some entry ∧ t.context.rdi = change.entering.val.toUInt64) ∨
    change.entering = s.main ∧
      ∃ g ∈ handoffs ((es.take n).map Episode.exchange), g.leaving = s.main := by
  have split : es.take n ++ es[n] :: es.drop (n + 1) = es := by
    rw [List.getElem_cons_drop, List.take_append_drop]
  obtain ⟨before, hmain, hidle⟩ := Story.reaches (split.symm ▸ story)
  obtain ⟨hmain', hidle'⟩ := es[n].frame before.sound
  obtain ⟨hleaving, hentering, hne⟩ :=
    ((es[n].performed before.sound).tracks before.sound).leads change told
  by_cases hchange : change.entering = s.main
  · -- whoever hands over to the main task is another task
    refine .inr ⟨hchange, ?_⟩
    rw [← hmain]
    exact main_left before hleaving (by rw [hmain, ← hchange]; exact hne)
  · left
    have after : Story (es.take n ++ [es[n]]) es[n].after.scheduler := before.snoc
    have hwhole : Careful ((es.take n ++ [es[n]]) ++ es.drop (n + 1)) := by
      rw [List.append_assoc, List.singleton_append, split]
      exact careful
    have hcareful := hwhole.of_append
    obtain ⟨u, hu, ready, -⟩ := after.sound.current_known hentering
    have awake : es[n].after.scheduler.station change.entering ≠ none := by
      rw [station_of_ready hu ready]
      exact nofun
    obtain ⟨t, entry, data, known, last, done⟩ :=
      prepared_of_awake after hcareful (by rw [hmain', hmain]; exact hchange) awake
    rw [beginning_concat, Episode.prepares_eq_none_of_handoff told, Option.none_or, hidle',
      hidle] at last
    obtain ⟨hrip, hrdi, -⟩ := done.begins
    exact ⟨t, entry, data, known, last, done, hrip, hrdi⟩

/-- A task is created, prepared and woken, and then its turn begins. -/
theorem handoff_enters_prepared_of_new_task : ∃ es s, Story es s ∧ Careful es ∧
    es.map Episode.response =
      [.task ⟨3⟩, .task ⟨3⟩, .done, .change (some ⟨⟨1⟩, ⟨3⟩⟩)] ∧
    ∃ t, s.tasks.get? ⟨3⟩ = some t ∧ t.context.rip = some .idle ∧ t.context.rdi = 3 := by
  have created : (create .standard .heap).outcome = .ok (.ok _) := rfl
  have story := (Story.created created).performAll
    (show (Dispatcher.performAll ⟨_, .create .standard⟩
      [.newTask, .prepare ⟨3⟩ .idle 0 .heap, .wakeup ⟨3⟩ (some 3), .switch]).outcome =
        .ok (_, _) from rfl)
  refine ⟨_, _, story, by decide, rfl, ?_⟩
  have law := handoff_enters_prepared story (by decide) (n := 3) (by decide)
    (show _ = some (⟨⟨1⟩, ⟨3⟩⟩ : Handoff) from rfl)
  rcases law with law | law
  · obtain ⟨t, entry, data, known, last, done, hrip, hrdi⟩ := law
    have hbeginning : some (entry, data) = some (.idle, 0) := last.symm.trans (by decide)
    have hentry : entry = .idle := congrArg Prod.fst (Option.some.inj hbeginning)
    exact ⟨t, known, hrip.trans (congrArg some hentry), hrdi⟩
  · exact absurd law.1 (by decide)

end Scheduler

end PreemptiveKernel

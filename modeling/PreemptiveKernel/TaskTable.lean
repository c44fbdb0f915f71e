/-
  The task table.

  The table keeps the tasks under their identifiers, in the order of creation, which is the
  order of the identifiers.  Nothing is ever taken out.  The key under which a task is kept
  is written beside it and not read off the task, so that the two can be compared.
-/
import PreemptiveKernel.Task

namespace PreemptiveKernel

/-- All tasks, each under its identifier. -/
structure TaskTable where
  /-- The keys and the tasks, in the order of creation. -/
  entries : List (TaskId × Task)
  deriving DecidableEq

namespace TaskTable

/-- No task. -/
def empty : TaskTable := ⟨[]⟩

/-- Looks a key up in a list of entries. -/
def find? : List (TaskId × Task) → TaskId → Option Task
  | [], _ => none
  | (key, task) :: rest, id => if key = id then some task else find? rest id

/-- The task under a key. -/
def get? (table : TaskTable) (id : TaskId) : Option Task :=
  find? table.entries id

/-- Changes the task under a key, if there is one. -/
def modify (table : TaskTable) (id : TaskId) (f : Task → Task) : TaskTable :=
  ⟨table.entries.map fun p => if p.1 = id then (p.1, f p.2) else p⟩

/-- Puts a task under a key: in place of the one that is there, or behind all others. -/
def insert (table : TaskTable) (id : TaskId) (task : Task) : TaskTable :=
  match table.get? id with
  | some _ => table.modify id fun _ => task
  | none => ⟨table.entries ++ [(id, task)]⟩

/-- The keys in order. -/
def keys (table : TaskTable) : List TaskId :=
  table.entries.map Prod.fst

/-- The tasks in the order of their keys. -/
def tasks (table : TaskTable) : List Task :=
  table.entries.map Prod.snd

/-! ## What the operations do to a look-up -/

theorem find?_map (entries : List (TaskId × Task)) (id key : TaskId) (f : Task → Task) :
    find? (entries.map fun p => if p.1 = id then (p.1, f p.2) else p) key =
      if key = id then (find? entries key).map f else find? entries key := by
  induction entries with
  | nil => simp [find?]
  | cons p rest ih =>
    obtain ⟨k, t⟩ := p
    by_cases hk : k = id
    · subst hk
      by_cases hkey : k = key
      · subst hkey
        simp [find?]
      · simp [find?, hkey, Ne.symm hkey, ih]
    · by_cases hkey : k = key
      · subst hkey
        simp [find?, hk]
      · simp only [List.map_cons, hk, if_false, find?, hkey]
        exact ih

theorem find?_append (entries more : List (TaskId × Task)) (key : TaskId) :
    find? (entries ++ more) key = (find? entries key).or (find? more key) := by
  induction entries with
  | nil => simp [find?]
  | cons p rest ih =>
    obtain ⟨k, t⟩ := p
    by_cases hk : k = key <;> simp [find?, hk, ih]

theorem get?_modify (table : TaskTable) (id key : TaskId) (f : Task → Task) :
    (table.modify id f).get? key =
      if key = id then (table.get? key).map f else table.get? key :=
  find?_map table.entries id key f

@[simp] theorem get?_modify_self (table : TaskTable) (id : TaskId) (f : Task → Task) :
    (table.modify id f).get? id = (table.get? id).map f := by
  simp [get?_modify]

theorem get?_modify_of_ne (table : TaskTable) {id key : TaskId} (h : key ≠ id)
    (f : Task → Task) : (table.modify id f).get? key = table.get? key := by
  simp [get?_modify, h]

theorem get?_insert (table : TaskTable) (id key : TaskId) (task : Task) :
    (table.insert id task).get? key = if key = id then some task else table.get? key := by
  unfold insert
  cases h : table.get? id with
  | some old =>
    by_cases hk : key = id
    · subst hk
      simp [h]
    · simp [get?_modify_of_ne, hk]
  | none =>
    show find? (table.entries ++ [(id, task)]) key = _
    rw [find?_append]
    by_cases hk : key = id
    · subst hk
      have : find? table.entries key = none := h
      simp [this, find?]
    · have : ¬ id = key := fun e => hk e.symm
      simp [find?, hk, this, get?]

@[simp] theorem keys_modify (table : TaskTable) (id : TaskId) (f : Task → Task) :
    (table.modify id f).keys = table.keys := by
  simp only [keys, modify, List.map_map]
  congr 1
  funext p
  by_cases h : p.1 = id <;> simp [h]

theorem keys_insert_of_fresh {table : TaskTable} {id : TaskId} (h : table.get? id = none)
    (task : Task) : (table.insert id task).keys = table.keys ++ [id] := by
  simp [insert, h, keys]

end TaskTable

end PreemptiveKernel

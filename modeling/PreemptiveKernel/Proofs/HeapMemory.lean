/-
  The memory of the heap.

  The search for it passes over the memory map once.  What it knows after some of the entries is
  the first of the largest usable ones among them (`Largest`), or that none of them is usable
  (`Finds`); one more entry keeps this so whether it is usable or not (`Finds.usable`,
  `Finds.unusable`), and that is all the induction over the map needs.

  What the heap gets of the entry that was found begins at the first page boundary of the entry and
  ends with it, unless less is wanted (`Carved`).  The boundary may lie behind the end of the entry;
  the heap is then empty, and an empty heap is the only one that begins outside its entry.  A
  boundary is at most a page less one byte away, so no more than that is lost.

  The main result is `heap_in_largest_entry`: a search whose sums are words is answered, it is
  answered in vain only if there is nothing to be found, and otherwise the heap is carved out of
  the first of the largest usable entries.
-/
import PreemptiveKernel.MemoryMap
import PreemptiveKernel.Proofs.Ends

namespace PreemptiveKernel.Word

variable {n unit : Nat}

/-- **Rounding up finds the least multiple** that is not below the number. -/
theorem roundUp_least (n : Nat) (h : 0 < unit) :
    unit ∣ roundUp n unit ∧ n ≤ roundUp n unit ∧ roundUp n unit < n + unit ∧
      ∀ q, unit ∣ q → n ≤ q → roundUp n unit ≤ q := by
  have cut := Nat.div_add_mod (n + (unit - 1)) unit
  have rest := Nat.mod_lt (n + (unit - 1)) h
  rw [Nat.mul_comm] at cut
  unfold roundUp
  refine ⟨Nat.dvd_mul_left _ _, by omega, by omega, ?_⟩
  rintro q ⟨k, rfl⟩ above
  rw [Nat.mul_comm unit k] at above ⊢
  refine Nat.mul_le_mul_right unit (Nat.le_of_lt_succ ((Nat.div_lt_iff_lt_mul h).mpr ?_))
  rw [Nat.succ_mul]
  omega

/-- A multiple is rounded to itself. -/
theorem roundUp_of_dvd (h : 0 < unit) (hn : unit ∣ n) : roundUp n unit = n :=
  Nat.le_antisymm ((roundUp_least n h).2.2.2 n hn (Nat.le_refl n)) (roundUp_least n h).2.1

end PreemptiveKernel.Word

namespace PreemptiveKernel.MemoryMap

open Run

/-! ## The largest entry -/

/-- The entry is the first of the largest usable entries: those in front of it are smaller, and
    those behind it are not larger. -/
def Largest (entries : List Entry) (e : Entry) : Prop :=
  ∃ before after, entries = before ++ e :: after ∧ e.usable = true ∧
    (∀ x ∈ before, x.usable = true → x.length < e.length) ∧
    ∀ x ∈ after, x.usable = true → x.length ≤ e.length

/-- What can be found among the entries: nothing if none of them is usable, and else the first of
    the largest. -/
def Finds (entries : List Entry) : Option Entry → Prop
  | none => ∀ e ∈ entries, e.usable = false
  | some e => Largest entries e

variable {entries rest : List Entry} {best : Option Entry} {e : Entry}

theorem Largest.le (h : Largest entries e) :
    ∀ x ∈ entries, x.usable = true → x.length ≤ e.length := by
  obtain ⟨before, after, rfl, -, smaller, notLarger⟩ := h
  intro x hx usable
  rcases List.mem_append.mp hx with front | back
  · exact Nat.le_of_lt (smaller x front usable)
  · rcases List.mem_cons.mp back with rfl | behind
    · exact Nat.le_refl _
    · exact notLarger x behind usable

theorem Largest.mem (h : Largest entries e) : e ∈ entries ∧ e.usable = true := by
  obtain ⟨before, after, rfl, usable, -⟩ := h
  exact ⟨List.mem_append_right before List.mem_cons_self, usable⟩

/-- An entry that is not usable does not change what is found. -/
theorem Finds.unusable (h : Finds entries best) (he : e.usable = false) :
    Finds (entries ++ [e]) best := by
  cases best with
  | none =>
    intro x hx
    rcases List.mem_append.mp hx with old | new
    · exact h x old
    · rw [List.mem_singleton.mp new]
      exact he
  | some b =>
    obtain ⟨before, after, rfl, usable, smaller, notLarger⟩ := h
    refine ⟨before, after ++ [e], by rw [List.append_assoc, List.cons_append], usable, smaller,
      fun x hx hx' => ?_⟩
    rcases List.mem_append.mp hx with old | new
    · exact notLarger x old hx'
    · rw [List.mem_singleton.mp new, he] at hx'
      nomatch hx'

/-- Of a usable entry and what was found before, the better one is found. -/
theorem Finds.usable (h : Finds entries best) (he : e.usable = true) :
    Finds (entries ++ [e]) (some (better best e)) := by
  cases best with
  | none =>
    refine ⟨entries, [], rfl, he, fun x hx hx' => ?_, List.forall_mem_nil _⟩
    rw [h x hx] at hx'
    nomatch hx'
  | some b =>
    show Largest (entries ++ [e]) (if b.length < e.length then e else b)
    have h : Largest entries b := h
    split
    · rename_i larger
      exact ⟨entries, [], rfl, he, fun x hx hx' => Nat.lt_of_le_of_lt (h.le x hx hx') larger,
        List.forall_mem_nil _⟩
    · rename_i notLarger
      obtain ⟨before, after, rfl, usable, smaller, others⟩ := h
      refine ⟨before, after ++ [e], by rw [List.append_assoc, List.cons_append], usable, smaller,
        fun x hx hx' => ?_⟩
      rcases List.mem_append.mp hx with old | new
      · exact others x old hx'
      · rw [List.mem_singleton.mp new]
        exact Nat.le_of_not_lt notLarger

/-! ## The survey -/

/-- The bytes of the usable entries. -/
def usableBytes (entries : List Entry) : Nat :=
  entries.foldr (fun e total => (if e.usable then e.length else 0) + total) 0

/-- **A survey finds the best entry** among all that it has come to know. -/
theorem survey_finds {known known' : Survey} (h : Finds entries known.best)
    (done : (survey rest known).outcome = .ok known') : Finds (entries ++ rest) known'.best := by
  induction rest generalizing entries known with
  | nil =>
    obtain rfl := Except.ok.inj done
    rw [List.append_nil]
    exact h
  | cons e rest ih =>
    rw [List.append_cons]
    unfold survey at done
    cases he : e.usable with
    | false =>
      rw [he] at done
      exact ih (h.unusable he) done
    | true =>
      rw [he] at done
      obtain ⟨finish, -, later⟩ := outcome_bind_eq_ok_iff.mp done
      obtain ⟨-, -, later⟩ := outcome_bind_eq_ok_iff.mp later
      obtain ⟨total, -, last⟩ := outcome_bind_eq_ok_iff.mp later
      have next : Finds (entries ++ [e]) (Survey.mk total (some (better known.best e))).best :=
        h.usable he
      exact ih next last

/-- A survey whose sums are words is finished. -/
theorem survey_answers {known : Survey} (total : known.usable + usableBytes rest < Word.bound)
    (ends : ∀ e ∈ rest, e.usable = true → e.base + e.length < Word.bound) :
    ∃ known', (survey rest known).outcome = .ok known' := by
  induction rest generalizing known with
  | nil => exact ⟨known, rfl⟩
  | cons e rest ih =>
    have later : ∀ x ∈ rest, x.usable = true → x.base + x.length < Word.bound :=
      fun x hx => ends x (List.mem_cons_of_mem e hx)
    unfold survey
    rw [show usableBytes (e :: rest) = (if e.usable then e.length else 0) + usableBytes rest
      from rfl] at total
    cases he : e.usable with
    | false =>
      rw [he, if_neg Bool.false_ne_true, Nat.zero_add] at total
      exact ih total later
    | true =>
      rw [he, if_pos rfl] at total
      have whole : known.usable + e.length < Word.bound := by omega
      have still : (Survey.mk (known.usable + e.length) (some (better known.best e))).usable +
          usableBytes rest < Word.bound := by
        show known.usable + e.length + usableBytes rest < Word.bound
        omega
      obtain ⟨known', done⟩ := ih still later
      refine ⟨known', outcome_bind_eq_ok_iff.mpr ⟨e.base + e.length, ?_, ?_⟩⟩
      · exact Word.add_of_lt (ends e List.mem_cons_self he)
      · refine outcome_bind_eq_ok_iff.mpr ⟨(), rfl, ?_⟩
        exact outcome_bind_eq_ok_iff.mpr ⟨known.usable + e.length, Word.add_of_lt whole, done⟩

/-! ## Carving -/

/-- **What the heap gets of an entry**: the memory lies at `start`, and is seen at the distance
    `offset`. -/
structure Carved (e : Entry) (offset want start : Nat) (region : Region) : Prop where
  /-- The heap begins where the memory is seen. -/
  seen : region.start = start + offset
  /-- The memory begins at a page boundary. -/
  aligned : pageBytes ∣ start
  /-- The boundary is not in front of the entry. -/
  above : e.base ≤ start
  /-- And it is the first one. -/
  first : ∀ q, pageBytes ∣ q → e.base ≤ q → start ≤ q
  /-- The heap has no more bytes than are wanted. -/
  wanted : region.bytes ≤ want
  /-- All its bytes are bytes of the entry. -/
  within : 0 < region.bytes → start + region.bytes ≤ e.base + e.length
  /-- Less than a page is lost. -/
  enough : min want (e.length - 4095) ≤ region.bytes
  /-- Nothing is lost of an entry that begins at a page boundary. -/
  whole : pageBytes ∣ e.base → region.bytes = min want e.length

/-- Carving is refused only if a sum is not a word. -/
theorem carve_eq (e : Entry) (offset want : Nat) :
    carve e offset want =
      if e.base + pageBytes < Word.bound ∧ e.base + e.length < Word.bound ∧
          Word.roundUp e.base pageBytes + offset < Word.bound then
        .ok ⟨Word.roundUp e.base pageBytes + offset,
          min (e.base + e.length - Word.roundUp e.base pageBytes) want⟩
      else .error .addOverflow := by
  unfold carve
  by_cases ahead : e.base + pageBytes < Word.bound
  · rw [Word.add_of_lt ahead]
    by_cases finish : e.base + e.length < Word.bound
    · rw [Word.add_of_lt finish]
      by_cases seen : Word.roundUp e.base pageBytes + offset < Word.bound
      · rw [if_pos ⟨ahead, finish, seen⟩]
        dsimp only [bind, Except.bind]
        rw [Word.add_of_lt seen]
        rfl
      · rw [if_neg fun h => seen h.2.2]
        dsimp only [bind, Except.bind]
        rw [Word.add_of_le (Nat.le_of_not_lt seen)]
    · rw [if_neg fun h => finish h.2.1, Word.add_of_le (Nat.le_of_not_lt finish)]
      rfl
  · rw [if_neg fun h => ahead h.1, Word.add_of_le (Nat.le_of_not_lt ahead)]
    rfl

/-- **What is carved out** lies in the entry from its first page boundary on. -/
theorem carve_of_ok {offset want : Nat} {region : Region}
    (h : carve e offset want = .ok region) :
    Carved e offset want (Word.roundUp e.base pageBytes) region := by
  have page : 0 < pageBytes := by decide
  obtain ⟨aligned, above, near, first⟩ := Word.roundUp_least e.base page
  have same : pageBytes ∣ e.base → Word.roundUp e.base pageBytes = e.base :=
    Word.roundUp_of_dvd page
  have size : pageBytes = 4096 := rfl
  rw [carve_eq] at h
  by_cases words : e.base + pageBytes < Word.bound ∧ e.base + e.length < Word.bound ∧
      Word.roundUp e.base pageBytes + offset < Word.bound
  · rw [if_pos words] at h
    obtain rfl := Except.ok.inj h
    generalize Word.roundUp e.base pageBytes = start at aligned above near first same ⊢
    refine ⟨rfl, aligned, above, first, Nat.min_le_right _ _, fun some => ?_, ?_,
      fun boundary => ?_⟩
    · have some : 0 < min (e.base + e.length - start) want := some
      show start + min (e.base + e.length - start) want ≤ _
      omega
    · show _ ≤ min (e.base + e.length - start) want
      omega
    · show min (e.base + e.length - start) want = _
      rw [same boundary, Nat.add_sub_cancel_left, Nat.min_comm]
  · rw [if_neg words] at h
    nomatch h

theorem carve_answers {offset : Nat} (want : Nat)
    (ends : e.base + e.length + pageBytes < Word.bound)
    (seen : offset + (e.base + e.length + pageBytes) < Word.bound) :
    ∃ region, carve e offset want = .ok region := by
  have near := (Word.roundUp_least e.base (show 0 < pageBytes by decide)).2.2.1
  rw [carve_eq, if_pos ⟨by omega, by omega, by omega⟩]
  exact ⟨_, rfl⟩

/-! ## The search -/

/-- The sums that the search may form are words. -/
structure Fits (offset : Nat) (entries : List Entry) : Prop where
  /-- The usable bytes are counted in a word. -/
  total : usableBytes entries < Word.bound
  /-- A page behind every usable entry is in memory. -/
  ends : ∀ e ∈ entries, e.usable = true → e.base + e.length + pageBytes < Word.bound
  /-- And it can be seen. -/
  seen : ∀ e ∈ entries, e.usable = true → offset + (e.base + e.length + pageBytes) < Word.bound

theorem fits_of_unusable {offset : Nat} (h : ∀ e ∈ entries, e.usable = false) :
    Fits offset entries := by
  have none : ∀ e ∈ entries, ¬ e.usable = true := fun e he => Bool.eq_false_iff.mp (h e he)
  refine ⟨?_, fun e he usable => absurd usable (none e he),
    fun e he usable => absurd usable (none e he)⟩
  suffices usableBytes entries = 0 by
    rw [this]
    decide
  induction entries with
  | nil => rfl
  | cons e rest ih =>
    show (if e.usable then e.length else 0) + usableBytes rest = 0
    rw [if_neg (none e List.mem_cons_self),
      ih (fun x hx => h x (List.mem_cons_of_mem e hx))
        fun x hx => none x (List.mem_cons_of_mem e hx)]

/-- **What a search comes to** if both reports are there. -/
theorem heapRegion_of_ok {offset want : Nat} {answer : Option Region}
    (h : (heapRegion (some offset) (some entries) want).outcome = .ok answer) :
    match answer with
    | none => ∀ e ∈ entries, e.usable = false
    | some region => ∃ e start, Largest entries e ∧ Carved e offset want start region := by
  obtain ⟨known, surveyed, later⟩ := outcome_bind_eq_ok_iff.mp h
  obtain ⟨-, -, last⟩ := outcome_bind_eq_ok_iff.mp later
  have start : Finds [] (Survey.mk 0 none).best := List.forall_mem_nil _
  have found : Finds entries known.best := survey_finds start surveyed
  cases hbest : known.best with
  | none =>
    rw [hbest] at found last
    obtain rfl := Except.ok.inj last
    exact found
  | some e =>
    rw [hbest] at found last
    obtain ⟨region, carved, pure⟩ := outcome_bind_eq_ok_iff.mp last
    obtain rfl := Except.ok.inj pure
    exact ⟨e, _, found, carve_of_ok carved⟩

theorem heapRegion_answers {offset : Nat} (h : Fits offset entries) (want : Nat) :
    ∃ answer, (heapRegion (some offset) (some entries) want).outcome = .ok answer := by
  have short : ∀ e ∈ entries, e.usable = true → e.base + e.length < Word.bound :=
    fun e he usable => Nat.lt_of_le_of_lt (Nat.le_add_right _ _) (h.ends e he usable)
  have total : (Survey.mk 0 none).usable + usableBytes entries < Word.bound := by
    show 0 + usableBytes entries < Word.bound
    rw [Nat.zero_add]
    exact h.total
  obtain ⟨known, done⟩ := survey_answers total short
  have start : Finds [] (Survey.mk 0 none).best := List.forall_mem_nil _
  have found : Finds entries known.best := survey_finds start done
  suffices last : ∃ answer, (match known.best with
      | none => return none
      | some e => return some (← carve e offset want) :
        Run Effect (Option Region)).outcome = .ok answer by
    obtain ⟨answer, last⟩ := last
    exact ⟨answer, outcome_bind_eq_ok_iff.mpr
      ⟨known, done, outcome_bind_eq_ok_iff.mpr ⟨(), rfl, last⟩⟩⟩
  cases hbest : known.best with
  | none => exact ⟨none, rfl⟩
  | some e =>
    rw [hbest] at found
    obtain ⟨he, usable⟩ := found.mem
    obtain ⟨region, carved⟩ := carve_answers want (h.ends e he usable)
      (h.seen e he usable)
    exact ⟨some region, outcome_bind_eq_ok_iff.mpr ⟨region, carved, rfl⟩⟩

/-- **The heap lies in the first of the largest usable entries.**

    1. A search whose sums are words is answered.
    2. It is answered in vain exactly if one of the reports is missing or nothing is usable.
    3. Whatever region it is answered with is carved out of the first of the largest usable
       entries. -/
theorem heap_in_largest_entry (offset : Option Nat) (entries : Option (List Entry)) (want : Nat) :
    ((∀ o ∈ offset, ∀ es ∈ entries, Fits o es) →
      ∃ answer, (heapRegion offset entries want).outcome = .ok answer) ∧
    ((heapRegion offset entries want).outcome = .ok none ↔
      offset = none ∨ entries = none ∨ ∃ es ∈ entries, ∀ e ∈ es, e.usable = false) ∧
    ∀ region, (heapRegion offset entries want).outcome = .ok (some region) →
      ∃ o ∈ offset, ∃ es ∈ entries, ∃ e start,
        Largest es e ∧ Carved e o want start region := by
  cases offset with
  | none => exact ⟨fun _ => ⟨none, rfl⟩, ⟨fun _ => .inl rfl, fun _ => rfl⟩, nofun⟩
  | some o =>
    cases entries with
    | none => exact ⟨fun _ => ⟨none, rfl⟩, ⟨fun _ => .inr (.inl rfl), fun _ => rfl⟩, nofun⟩
    | some es =>
      refine ⟨fun fits => heapRegion_answers (fits o rfl es rfl) want, ⟨fun vain => ?_, ?_⟩,
        fun region found => ⟨o, rfl, es, rfl, heapRegion_of_ok found⟩⟩
      · exact .inr (.inr ⟨es, rfl, heapRegion_of_ok vain⟩)
      · rintro (missing | missing | ⟨es', here, unusable⟩)
        · nomatch missing
        · nomatch missing
        · obtain rfl := Option.some.inj here
          obtain ⟨answer, done⟩ := heapRegion_answers (fits_of_unusable unusable) want
          cases answer with
          | none => exact done
          | some region =>
            obtain ⟨e, start, largest, -⟩ := heapRegion_of_ok done
            exact absurd largest.mem.2 (Bool.eq_false_iff.mp (unusable e largest.mem.1))

/-- Two usable entries are the largest, and the first of them begins in the middle of a page; a
    larger one is not usable.  The heap gets the first one but for half a page. -/
theorem heap_in_largest_entry_of_two : ∃ es region e start,
    es = [⟨0x1000, 0x3000, 0⟩, ⟨0x100000, 0x90000, 1⟩, ⟨0x200800, 0x5000, 0⟩,
      ⟨0x300000, 0x5000, 0⟩] ∧
    Fits 0xffff_8000_0000_0000 es ∧
    (heapRegion (some 0xffff_8000_0000_0000) (some es) 0x100000).outcome = .ok (some region) ∧
    Largest es e ∧ Carved e 0xffff_8000_0000_0000 0x100000 start region ∧
    region = ⟨0xffff_8000_0020_1000, 0x4800⟩ := by
  obtain ⟨es, hes⟩ : ∃ es : List Entry, es = [⟨0x1000, 0x3000, 0⟩, ⟨0x100000, 0x90000, 1⟩,
    ⟨0x200800, 0x5000, 0⟩, ⟨0x300000, 0x5000, 0⟩] := ⟨_, rfl⟩
  have fits : Fits 0xffff_8000_0000_0000 es := by
    subst hes
    exact ⟨by decide +kernel, by decide +kernel, by decide +kernel⟩
  have found : (heapRegion (some 0xffff_8000_0000_0000) (some es) 0x100000).Ends Stop.Never
      (· = some ⟨0xffff_8000_0020_1000, 0x4800⟩) := by
    subst hes
    decide +kernel
  obtain ⟨answered, -, carved⟩ :=
    heap_in_largest_entry (some 0xffff_8000_0000_0000) (some es) 0x100000
  obtain ⟨answer, done⟩ := answered fun o ho es' hes' => by
    obtain rfl := Option.some.inj ho
    obtain rfl := Option.some.inj hes'
    exact fits
  obtain rfl : answer = some ⟨0xffff_8000_0020_1000, 0x4800⟩ := found.of_ok done
  obtain ⟨o, ho, es', hes', e, start, largest, here⟩ := carved _ done
  obtain rfl := Option.some.inj ho
  obtain rfl := Option.some.inj hes'
  exact ⟨es, _, e, start, hes, fits, done, largest, here, rfl⟩

end PreemptiveKernel.MemoryMap

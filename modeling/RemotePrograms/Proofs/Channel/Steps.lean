import RemotePrograms.Channel.Machine

/-!
# `RemotePrograms.Proofs.Channel.Steps`: what a move does to the table of activities

A move enters one stretch, or does nothing: `step_call`, `step_resume` and `step_answer` say which
stretch that is. The rest of the module reads the three parts of a machine off `enter`: the
registry is the stretch's own (`registry_enter`), only the stretch's activity changes in the
table (`activity?_enter`), and the event is the stretch's progress (`event_enter`). What every
move keeps a run keeps, by `run_induction`.
-/

set_option autoImplicit false

namespace RemotePrograms

/-- What is left of an operation after a stretch. -/
def Progress.activity? : Progress → Option Activity
  | .returned _ => none
  | .continues activity => some activity
  | .waits _ activity => some activity

/-- What the outside sees of the end of a stretch. -/
def Progress.event? (id : ActivityId) : Progress → Option Event
  | .returned result => some (.returned id result)
  | .continues _ => none
  | .waits contact _ => some (.contact id contact)

/-- An operation returns only at the end of its own last stretch. -/
theorem Progress.of_event?_returned {progress : Progress} {id other : ActivityId}
    {result : Result} (h : progress.event? id = some (.returned other result)) :
    other = id ∧ progress = .returned result := by
  cases progress with
  | returned result' =>
    cases h
    exact ⟨rfl, rfl⟩
  | continues activity => cases h
  | waits contact activity => cases h

/-- A key that is taken out of a table is not found any more, and the others are found as before. -/
theorem lookup_filter_ne {α β : Type} [BEq α] [LawfulBEq α] [DecidableEq α] (entries : List (α × β))
    (id other : α) :
    (entries.filter (·.1 ≠ id)).lookup other
      = if other = id then none else entries.lookup other := by
  induction entries with
  | nil => simp
  | cons entry entries ih =>
    obtain ⟨key, value⟩ := entry
    by_cases hkey : key = id
    · subst hkey
      rw [List.filter_cons_of_neg (by simp), ih, List.lookup_cons]
      by_cases hother : other = key
      · simp [hother]
      · have hbeq : (other == key) = false := by simpa using hother
        simp only [hbeq]
    · rw [List.filter_cons_of_pos (by simpa using hkey), List.lookup_cons, List.lookup_cons, ih]
      by_cases hother : other = key
      · subst hother
        simp [hkey]
      · have hbeq : (other == key) = false := by simpa using hother
        simp only [hbeq]

/-- The activity that a move carries on. -/
def Move.activity? : Move → Option ActivityId
  | .call _ => none
  | .resume id => some id
  | .answer id _ => some id

namespace Machine

/-- The machine once the number of a new activity is taken, if the move takes one. -/
def numbered (m : Machine) : Move → Machine
  | .call _ => { m with nextActivity := m.nextActivity + 1 }
  | _ => m

/-- A call enters the first stretch of its operation. -/
theorem step_call (m : Machine) (operation : Operation) :
    m.step (.call operation)
      = (m.numbered (.call operation)).enter m.nextActivity (operation.start m.registry) := rfl

/-- An activity that does not wait for the outside goes on by itself. -/
theorem step_resume {m : Machine} {id : ActivityId} {activity : Activity}
    (h : m.activity? id = some activity) (hout : activity.isOutside = false) :
    m.step (.resume id)
      = m.enter id (activity.resume (fun session => !m.holds session) m.registry) := by
  simp only [step, h, hout, Bool.false_eq_true, if_false]

/-- Nothing goes on by itself while it waits for the outside, or when it is not there. -/
theorem step_resume_idle {m : Machine} {id : ActivityId}
    (h : ∀ activity, m.activity? id = some activity → activity.isOutside = true) :
    m.step (.resume id) = (m, none) := by
  cases hactivity : m.activity? id with
  | none => simp only [step, hactivity]
  | some activity => simp only [step, hactivity, h activity hactivity, if_true]

/-- An activity that waits for the outside goes on with a reply. -/
theorem step_answer {m : Machine} {id : ActivityId} {activity : Activity}
    (reply : Except Error Unit) (h : m.activity? id = some activity)
    (hout : activity.isOutside = true) :
    m.step (.answer id reply) = m.enter id (activity.answer reply m.registry) := by
  simp only [step, h, hout, if_true]

/-- Nothing takes a reply unless it waits for one. -/
theorem step_answer_idle {m : Machine} {id : ActivityId} (reply : Except Error Unit)
    (h : ∀ activity, m.activity? id = some activity → activity.isOutside = false) :
    m.step (.answer id reply) = (m, none) := by
  cases hactivity : m.activity? id with
  | none => simp only [step, hactivity]
  | some activity =>
    simp only [step, hactivity, h activity hactivity, Bool.false_eq_true, if_false]

/-- Letting an activity go on enters its next stretch, if it does not wait for the outside. -/
theorem resume_cases (m : Machine) (id : ActivityId) :
    (∃ activity, m.activity? id = some activity ∧ activity.isOutside = false ∧
      m.step (.resume id)
        = m.enter id (activity.resume (fun session => !m.holds session) m.registry)) ∨
    ((∀ activity, m.activity? id = some activity → activity.isOutside = true) ∧
      m.step (.resume id) = (m, none)) := by
  by_cases hgoes : ∃ activity, m.activity? id = some activity ∧ activity.isOutside = false
  · obtain ⟨activity, hactivity, hout⟩ := hgoes
    exact .inl ⟨activity, hactivity, hout, step_resume hactivity hout⟩
  · have hidle : ∀ activity, m.activity? id = some activity → activity.isOutside = true :=
      fun activity hactivity => by simpa using fun hout => hgoes ⟨activity, hactivity, hout⟩
    exact .inr ⟨hidle, step_resume_idle hidle⟩

/-- Replying to an activity enters its next stretch, if it waits for the outside. -/
theorem answer_cases (m : Machine) (id : ActivityId) (reply : Except Error Unit) :
    (∃ activity, m.activity? id = some activity ∧ activity.isOutside = true ∧
      m.step (.answer id reply) = m.enter id (activity.answer reply m.registry)) ∨
    ((∀ activity, m.activity? id = some activity → activity.isOutside = false) ∧
      m.step (.answer id reply) = (m, none)) := by
  by_cases hgoes : ∃ activity, m.activity? id = some activity ∧ activity.isOutside = true
  · obtain ⟨activity, hactivity, hout⟩ := hgoes
    exact .inl ⟨activity, hactivity, hout, step_answer reply hactivity hout⟩
  · have hidle : ∀ activity, m.activity? id = some activity → activity.isOutside = false :=
      fun activity hactivity => by simpa using fun hout => hgoes ⟨activity, hactivity, hout⟩
    exact .inr ⟨hidle, step_answer_idle reply hidle⟩

/-- To take a number begins nothing. -/
@[simp] theorem activity?_numbered (m : Machine) (move : Move) (id : ActivityId) :
    (m.numbered move).activity? id = m.activity? id := by
  cases move <;> rfl

/-- Only a call takes a number. -/
theorem numbered_of_activity? (m : Machine) {move : Move} {id : ActivityId}
    (hmove : move.activity? = some id) : m.numbered move = m := by
  cases move with
  | call operation => cases hmove
  | resume other | answer other reply => rfl

/-- To take a number changes nothing in the registry. -/
@[simp] theorem registry_numbered (m : Machine) (move : Move) :
    (m.numbered move).registry = m.registry := by
  cases move <;> rfl

/-- The registry is as the stretch leaves it. -/
@[simp] theorem registry_enter (m : Machine) (id : ActivityId) (stretch : Stretch) :
    (m.enter id stretch).1.registry = stretch.1 := by
  obtain ⟨registry, progress⟩ := stretch
  cases progress <;> rfl

/-- A stretch takes no number. -/
@[simp] theorem nextActivity_enter (m : Machine) (id : ActivityId) (stretch : Stretch) :
    (m.enter id stretch).1.nextActivity = m.nextActivity := by
  obtain ⟨registry, progress⟩ := stretch
  cases progress <;> rfl

/-- What is seen is the end of the stretch. -/
@[simp] theorem event_enter (m : Machine) (id : ActivityId) (stretch : Stretch) :
    (m.enter id stretch).2 = stretch.2.event? id := by
  obtain ⟨registry, progress⟩ := stretch
  cases progress <;> rfl

/-- What is seen of a call is the end of its first stretch. -/
theorem event_step_call (m : Machine) (operation : Operation) :
    (m.step (.call operation)).2 = (operation.start m.registry).2.event? m.nextActivity := by
  rw [step_call, event_enter]

/-- A stretch changes what is left of its own operation and of no other. -/
theorem activity?_enter (m : Machine) (id other : ActivityId) (stretch : Stretch) :
    (m.enter id stretch).1.activity? other
      = if other = id then stretch.2.activity? else m.activity? other := by
  obtain ⟨registry, progress⟩ := stretch
  cases progress with
  | returned result =>
    -- Nothing is entered, only the old entry is taken out.
    show (m.activities.filter (·.1 ≠ id)).lookup other = _
    rw [lookup_filter_ne]
    rfl
  | continues activity =>
    -- The new entry stands before the others.
    show ((id, activity) :: m.activities.filter (·.1 ≠ id)).lookup other = _
    rw [List.lookup_cons, lookup_filter_ne]
    by_cases h : other = id
    · simp [h, Progress.activity?]
    · have hbeq : (other == id) = false := by simpa using h
      simp only [hbeq, if_neg h]
      rfl
  | waits contact activity =>
    show ((id, activity) :: m.activities.filter (·.1 ≠ id)).lookup other = _
    rw [List.lookup_cons, lookup_filter_ne]
    by_cases h : other = id
    · simp [h, Progress.activity?]
    · have hbeq : (other == id) = false := by simpa using h
      simp only [hbeq, if_neg h]
      rfl

/-- Of the operation itself there is left what its stretch leaves. -/
@[simp] theorem activity?_enter_self (m : Machine) (id : ActivityId) (stretch : Stretch) :
    (m.enter id stretch).1.activity? id = stretch.2.activity? := by
  rw [activity?_enter, if_pos rfl]

/-- Other operations are as they were. -/
theorem activity?_enter_ne (m : Machine) {id other : ActivityId} (stretch : Stretch)
    (h : other ≠ id) : (m.enter id stretch).1.activity? other = m.activity? other := by
  rw [activity?_enter, if_neg h]

/-- A move enters a stretch of a new activity or of one that is under way, or it does nothing. -/
theorem step_cases (m : Machine) (move : Move) :
    (∃ id stretch, m.step move = (m.numbered move).enter id stretch ∧
      (id = m.nextActivity ∨ (m.activity? id).isSome)) ∨ m.step move = (m, none) := by
  cases move with
  | call operation => exact .inl ⟨_, _, step_call m operation, .inl rfl⟩
  -- Only what is under way and does not wait can go on by itself.
  | resume id =>
    cases hactivity : m.activity? id with
    | none => exact .inr (step_resume_idle fun _ hsome => by rw [hactivity] at hsome; cases hsome)
    | some activity =>
      cases hout : activity.isOutside with
      | false =>
        exact .inl ⟨id, _, step_resume hactivity hout, .inr (by rw [hactivity]; rfl)⟩
      | true =>
        refine .inr (step_resume_idle fun other hother => ?_)
        rw [hactivity] at hother
        cases hother
        exact hout
  -- Only what waits can take a reply.
  | answer id reply =>
    cases hactivity : m.activity? id with
    | none =>
      exact .inr (step_answer_idle reply fun _ hsome => by rw [hactivity] at hsome; cases hsome)
    | some activity =>
      cases hout : activity.isOutside with
      | true =>
        exact .inl ⟨id, _, step_answer reply hactivity hout, .inr (by rw [hactivity]; rfl)⟩
      | false =>
        refine .inr (step_answer_idle reply fun other hother => ?_)
        rw [hactivity] at hother
        cases hother
        exact hout

/-- Numbers are not given out twice. -/
theorem nextActivity_le_step (m : Machine) (move : Move) :
    m.nextActivity ≤ (m.step move).1.nextActivity := by
  have hnumbered : m.nextActivity ≤ (m.numbered move).nextActivity := by
    cases move with
    | call operation => exact Nat.le_succ _
    | _ => exact Nat.le_refl _
  obtain ⟨id, stretch, hstep, -⟩ | hstep := step_cases m move
  · rw [hstep, nextActivity_enter]
    exact hnumbered
  · exact Nat.le_of_eq (by rw [hstep])

/-- Nothing is left of an operation that is finished. -/
theorem activity?_of_returned {m : Machine} {move : Move} {id : ActivityId} {result : Result}
    (h : (m.step move).2 = some (.returned id result)) :
    (m.step move).1.activity? id = none := by
  obtain ⟨other, stretch, hstep, -⟩ | hstep := step_cases m move
  · rw [hstep, event_enter] at h
    obtain ⟨rfl, hprogress⟩ := Progress.of_event?_returned h
    rw [hstep, activity?_enter_self, hprogress]
    rfl
  · rw [hstep] at h
    cases h

/-- What is finished does not begin again, and does not return again. -/
theorem step_finished {m : Machine} {id : ActivityId} (h : m.activity? id = none)
    (hid : id < m.nextActivity) (move : Move) :
    (m.step move).1.activity? id = none ∧
      ∀ result, (m.step move).2 ≠ some (.returned id result) := by
  obtain ⟨other, stretch, hstep, hother⟩ | hstep := step_cases m move
  · -- The number of the stretch is a new one, or something is left under it.
    have hne : id ≠ other := by
      rintro rfl
      obtain hnext | hsome := hother
      · exact Nat.lt_irrefl _ (hnext ▸ hid)
      · rw [h] at hsome
        cases hsome
    rw [hstep, activity?_enter_ne _ stretch hne, activity?_numbered, event_enter]
    exact ⟨h, fun result hevent => hne (Progress.of_event?_returned hevent).1⟩
  · rw [hstep]
    exact ⟨h, fun result => by simp⟩

/-! ### Runs -/

/-- What every move of a run keeps, the run keeps. -/
theorem run_induction {P : Machine → Prop} {m : Machine} {moves : List Move} (h : P m)
    (hstep : ∀ m, P m → ∀ move ∈ moves, P (m.step move).1) : P (m.run moves).1 := by
  induction moves generalizing m with
  | nil => exact h
  | cons move moves ih =>
    exact ih (hstep m h move List.mem_cons_self) fun m hm other hother =>
      hstep m hm other (List.mem_cons_of_mem _ hother)

/-- What is finished does not begin again in any run. -/
theorem run_finished {m : Machine} {id : ActivityId} (h : m.activity? id = none)
    (hid : id < m.nextActivity) (moves : List Move) :
    (m.run moves).1.activity? id = none ∧ id < (m.run moves).1.nextActivity :=
  run_induction (P := fun m => m.activity? id = none ∧ id < m.nextActivity) ⟨h, hid⟩
    fun m ⟨hnone, hlt⟩ move _ => ⟨(step_finished hnone hlt move).1,
      Nat.lt_of_lt_of_le hlt (nextActivity_le_step m move)⟩

/-- A run makes its first move and then the others. -/
theorem run_cons (m : Machine) (move : Move) (moves : List Move) :
    m.run (move :: moves)
      = (((m.step move).1.run moves).1,
        (m.step move).2.toList ++ ((m.step move).1.run moves).2) := rfl

/-- A run goes on where its first part stopped. -/
theorem run_append (m : Machine) (moves later : List Move) :
    m.run (moves ++ later)
      = (((m.run moves).1.run later).1, (m.run moves).2 ++ ((m.run moves).1.run later).2) := by
  induction moves generalizing m with
  | nil => rfl
  | cons move moves ih =>
    simp only [List.cons_append, run, ih, List.append_assoc]

/-- An operation that is begun takes one number. -/
theorem nextActivity_step_call (m : Machine) (operation : Operation) :
    (m.step (.call operation)).1.nextActivity = m.nextActivity + 1 := by
  rw [step_call, nextActivity_enter]
  rfl

/-- Numbers are not given out twice in a run. -/
theorem nextActivity_le_run (m : Machine) (moves : List Move) :
    m.nextActivity ≤ (m.run moves).1.nextActivity :=
  run_induction (P := fun later => m.nextActivity ≤ later.nextActivity) (Nat.le_refl _)
    fun later hle move _ => Nat.le_trans hle (nextActivity_le_step later move)

/-- What has returned does not return again. -/
theorem not_returned_again {m : Machine} (before : List Move) {later : List Move}
    {last move : Move} {id : ActivityId} {result result' : Result}
    (hid : id < ((m.run before).1.step last).1.nextActivity)
    (h : ((m.run before).1.step last).2 = some (.returned id result)) :
    ((m.run (before ++ last :: later)).1.step move).2 ≠ some (.returned id result') := by
  -- The return took the activity out, and its number does not come again.
  rw [run_append]
  obtain ⟨hnone, hnext⟩ := run_finished (activity?_of_returned h) hid later
  exact (step_finished hnone hnext move).2 result'

end Machine

end RemotePrograms

import RemotePrograms.Proofs.Channel.Handshake

/-!
# `RemotePrograms.Proofs.Channel.Alone`: one operation with nobody else about

On a machine on which nothing is under way an operation runs from beginning to end without
anything in between, and `Machine.perform` can be read as plain code. `perform_returned`,
`perform_aborting` and `perform_opening` do so for the three ways in which the first stretch of a
dispatch can end. Of an opening only the sends are left, one after another until one fails:
`deliver`.
-/

set_option autoImplicit false

namespace RemotePrograms

/-- Sends the records of an opening one after another, until one is not sent. -/
def Opening.deliver {σ : Type} (o : Opening) (reply : Contact → σ → Except Error Unit × σ) :
    List ClientOrder → σ → Except Error Unit × σ
  | [], outside => (.ok (), outside)
  | order :: left, outside =>
    match reply (.send o.context o.transport order) outside with
    | (.ok (), outside) => o.deliver reply left outside
    | (.error cause, outside) => (.error cause, outside)

namespace Machine

section Alone

variable {σ : Type} {reply : Contact → σ → Except Error Unit × σ} {r : Registry}
  {id next : ActivityId}

/-- The only activity in the table is found there. -/
private theorem activity?_alone (activity : Activity) :
    Machine.activity? ⟨r, [(id, activity)], next⟩ id = some activity := by
  simp [Machine.activity?]

/-- An opening that nobody else is beside takes the lock. -/
private theorem step_alone_opening (o : Opening) (order : ClientOrder) (left : List ClientOrder) :
    Machine.step ⟨r, [(id, .opening o (order :: left))], next⟩ (.resume id)
      = (⟨r, [(id, .sending o order left)], next⟩,
        some (.contact id (.send o.context o.transport order))) := by
  rw [step_resume (activity?_alone (.opening o (order :: left))) rfl,
    Activity.resume, if_pos (by simp [holds, Activity.lock?])]
  simp [enter, keep, drop]

/-- The only activity goes on with its opening when its record was sent. -/
private theorem step_alone_sent (o : Opening) (order : ClientOrder) (left : List ClientOrder)
    (value : Unit) :
    Machine.step ⟨r, [(id, .sending o order left)], next⟩ (.answer id (.ok value))
      = (⟨r, [(id, .opening o left)], next⟩, none) := by
  rw [step_answer _ (activity?_alone (.sending o order left)) rfl]
  simp [Activity.answer, enter, keep, drop]

/-- When the only activity returns, nothing is under way any more. -/
private theorem enter_alone (activity : Activity) (r' : Registry) (result : Result) :
    Machine.enter ⟨r, [(id, activity)], next⟩ id (r', .returned result)
      = (⟨r', [], next⟩, some (.returned id result)) := by
  simp [enter, drop]

/-- An opening that nobody else is beside: the records are delivered, and then it is completed or
it fails. -/
theorem attend_opening (o : Opening) (left : List ClientOrder) (outside : σ) {r' : Registry}
    {result : Result} (hcomplete : r.completeOpening o = (r', .returned result)) :
    attend reply id (2 * left.length + 1) ⟨r, [(id, .opening o left)], next⟩ none outside
      = match o.deliver reply left outside with
        | (.ok (), outside) => (⟨r', [], next⟩, outside, some result)
        | (.error cause, outside) =>
          (⟨(r.failOpening o.context o.guarded cause).1, [], next⟩, outside,
            some (.error cause)) := by
  -- Each record takes two moves, and the end of the opening one more.
  induction left generalizing outside with
  | nil =>
    have hstep : Machine.step ⟨r, [(id, .opening o [])], next⟩ (.resume id)
        = (⟨r', [], next⟩, some (.returned id result)) := by
      rw [step_resume (activity?_alone (.opening o [])) rfl,
        Activity.resume, hcomplete, enter_alone]
    simp only [attend, hstep, Opening.deliver, List.length_nil, Nat.mul_zero]
  | cons order left ih =>
    rw [show 2 * (order :: left).length + 1 = (2 * left.length + 1) + 1 + 1 by
      rw [List.length_cons]; omega]
    simp only [attend, step_alone_opening, Opening.deliver]
    generalize reply (.send o.context o.transport order) outside = answer
    obtain ⟨answer, outside⟩ := answer
    cases answer with
    | ok value => simp only [step_alone_sent, ih]
    | error cause =>
      -- The rest of the moves is not needed.
      have hstep : Machine.step ⟨r, [(id, .sending o order left)], next⟩ (.answer id (.error cause))
          = (⟨(r.failOpening o.context o.guarded cause).1, [], next⟩,
            some (.returned id (.error cause))) := by
        rw [step_answer _ (activity?_alone (.sending o order left)) rfl]
        exact enter_alone _ _ _
      simp only [hstep, attend]

/-- An operation that returns in its first stretch needs nothing of the outside. -/
theorem perform_returned {operation : Operation} {r' : Registry} {result : Result}
    (h : operation.start r = (r', .returned result)) (outside : σ) :
    perform reply operation ⟨r, [], next⟩ outside
      = (⟨r', [], next + 1⟩, outside, some result) := by
  have hstep : Machine.step ⟨r, [], next⟩ (.call operation)
      = (⟨r', [], next + 1⟩, some (.returned next result)) := by
    rw [step_call, show operation.start (Machine.mk r [] next).registry = _ from h]
    rfl
  simp only [perform, Machine.next, hstep]
  rfl

/-- An operation that ends a session. -/
theorem perform_aborting {operation : Operation} {r' : Registry} {contact : Contact}
    (h : operation.start r = (r', .waits contact .aborting)) (outside : σ) :
    perform reply operation ⟨r, [], next⟩ outside
      = (⟨r', [], next + 1⟩, (reply contact outside).2, some (.ok .done)) := by
  have hstep : Machine.step ⟨r, [], next⟩ (.call operation)
      = (⟨r', [(next, .aborting)], next + 1⟩, some (.contact next contact)) := by
    rw [step_call, show operation.start (Machine.mk r [] next).registry = _ from h]
    rfl
  have hanswer : ∀ answer, Machine.step ⟨r', [(next, .aborting)], next + 1⟩ (.answer next answer)
      = (⟨r', [], next + 1⟩, some (.returned next (.ok .done))) := by
    intro answer
    rw [step_answer answer (activity?_alone .aborting) rfl]
    exact enter_alone _ _ _
  have hfuel : (Machine.activity? ⟨r', [(next, .aborting)], next + 1⟩ next).elim 0
      Activity.stretches = 1 := by
    simp [Machine.activity?, Activity.stretches]
  simp only [perform, Machine.next, hstep, hfuel, attend, hanswer]

/-- An operation that answers a handshake. -/
theorem perform_opening {operation : Operation} {r' r'' : Registry} {o : Opening}
    {left : List ClientOrder} {result : Result}
    (h : operation.start r = (r', .continues (.opening o left)))
    (hcomplete : r'.completeOpening o = (r'', .returned result)) (outside : σ) :
    perform reply operation ⟨r, [], next⟩ outside
      = match o.deliver reply left outside with
        | (.ok (), outside) => (⟨r'', [], next + 1⟩, outside, some result)
        | (.error cause, outside) =>
          (⟨(r'.failOpening o.context o.guarded cause).1, [], next + 1⟩, outside,
            some (.error cause)) := by
  have hstep : Machine.step ⟨r, [], next⟩ (.call operation)
      = (⟨r', [(next, .opening o left)], next + 1⟩, none) := by
    rw [step_call, show operation.start (Machine.mk r [] next).registry = _ from h]
    rfl
  have hfuel : (Machine.activity? ⟨r', [(next, .opening o left)], next + 1⟩ next).elim 0
      Activity.stretches = 2 * left.length + 1 := by
    simp [Machine.activity?, Activity.stretches]
  simp only [perform, Machine.next, hstep, hfuel, attend_opening o left outside hcomplete]

end Alone

end Machine

end RemotePrograms

import RemotePrograms.Proofs.Channel.Continues
import RemotePrograms.Proofs.Channel.Starts

/-!
# `RemotePrograms.Proofs.Channel.Stretches`: how long an operation takes by itself

With nobody else about, every move carries an operation one stretch on, and `Activity.stretches`
bounds how many of them are left. Each stretch lowers that bound (`Activity.left_of_continues`), so
an operation comes to its end within the moves that `Machine.perform` gives it.
-/

set_option autoImplicit false

namespace RemotePrograms

/-- The record that a transport is to send. -/
def Contact.record? : Contact → Option ClientOrder
  | .send _ _ order => some order
  | _ => none

/-- The record that is with a transport. -/
def Activity.record? : Activity → Option ClientOrder
  | .sending _ order _ => some order
  | _ => none

namespace Progress

/-- An activity is left that goes on as the stretch says: by itself, or with the reply to what
was asked. -/
def Suits : Progress → Prop
  | .returned _ => True
  | .continues activity => activity.isOutside = false
  | .waits contact activity => activity.isOutside = true ∧ activity.record? = contact.record?

/-- A bound on the stretches that are left. -/
def left (progress : Progress) : Nat :=
  progress.activity?.elim 0 Activity.stretches

end Progress

namespace Registry

variable (r : Registry)

/-- The first stretch of a call leaves what goes on as the stretch says. -/
theorem suits_call (id : ContextId) (context : Context) (request : ContextCall) :
    (r.call id context request).2.Suits := by
  have hstarts := request.starts r id context
  generalize r.call id context request = stretch at hstarts ⊢
  cases hstarts with
  | opens | sends => rfl
  | hands | aborts => exact ⟨rfl, rfl⟩
  | _ => trivial

/-- The end of an opening leaves nothing to do. -/
theorem left_completeOpening (o : Opening) :
    (r.completeOpening o).2.Suits ∧ (r.completeOpening o).2.left = 0 := by
  obtain ⟨result, hreturns⟩ := r.completeOpening_returns o
  rw [hreturns]
  exact ⟨trivial, rfl⟩

end Registry

/-- The first stretch of an operation leaves what goes on as the stretch says. -/
theorem Operation.suits_start (r : Registry) (operation : Operation) :
    (operation.start r).2.Suits := by
  have hstarts := operation.starts r
  generalize operation.start r = stretch at hstarts ⊢
  cases hstarts with
  | handles => exact r.suits_call _ _ (.dispatch _)
  | calls => exact r.suits_call _ _ _
  | connects | locks => rfl
  | aborts => exact ⟨rfl, rfl⟩
  | _ => trivial

namespace Activity

/-- What is under way has at least one stretch left. -/
theorem stretches_pos (activity : Activity) : 0 < activity.stretches := by
  cases activity <;> simp only [stretches] <;> omega

/-- After a stretch, while all locks are free, an activity has fewer stretches to come. -/
theorem left_of_continues {free : SessionId → Bool} {r : Registry} {activity : Activity}
    {stretch : Stretch} (h : activity.Continues free r stretch)
    (hfree : ∀ session, free session = true) :
    stretch.2.Suits ∧ stretch.2.left < activity.stretches := by
  cases h with
  | blocked hblocked | queues hblocked =>
    rw [hfree] at hblocked
    cases hblocked
  | sends | shows | locks => exact ⟨⟨rfl, rfl⟩, Nat.lt_succ_self _⟩
  | completes =>
    obtain ⟨hsuits, hleft⟩ := r.left_completeOpening _
    exact ⟨hsuits, by rw [hleft]; exact stretches_pos _⟩
  | sent | shown => exact ⟨rfl, Nat.lt_succ_self _⟩
  | arms => exact ⟨rfl, Nat.lt_succ_of_lt (Nat.lt_succ_self _)⟩
  | _ => exact ⟨trivial, stretches_pos _⟩

/-- What goes on by itself holds no lock. -/
theorem lock?_of_not_isOutside {activity : Activity} (h : activity.isOutside = false) :
    activity.lock? = none := by
  cases activity with
  | sending | holding => cases h
  | _ => rfl

end Activity

namespace Machine

variable {m : Machine} {id : ActivityId} {activity : Activity}

/-- With nobody else about, a stretch leaves what is left of its operation and nothing else. -/
theorem activities_enter (r : Registry) {progress : Progress}
    (halone : (m.drop id).activities = []) (h : progress.activity? = some activity) :
    (m.enter id (r, progress)).1.activities = [(id, activity)] := by
  cases progress with
  | returned result => cases h
  | continues _ | waits _ _ =>
    cases h
    exact congrArg _ halone

/-- The one thing under way is found by its number. -/
theorem activity?_of_alone (h : m.activities = [(id, activity)]) :
    m.activity? id = some activity := by
  simp [activity?, h]

/-- When the one thing under way is done with, nothing is left. -/
theorem drop_of_alone (h : m.activities = [(id, activity)]) : (m.drop id).activities = [] := by
  simp [drop, h]

/-- An activity that goes on by itself holds no lock. -/
theorem holds_of_alone (h : m.activities = [(id, activity)]) (hout : activity.isOutside = false)
    (session : SessionId) : m.holds session = false := by
  simp [holds, h, Activity.lock?_of_not_isOutside hout]

end Machine

end RemotePrograms

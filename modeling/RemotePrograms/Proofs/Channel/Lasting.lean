import RemotePrograms.Proofs.Channel.Openings

/-!
# `RemotePrograms.Proofs.Channel.Lasting`: what a run cannot undo

A phase goes on, but it does not come back. A channel that has ended stays so in every regular run,
and one that failed never looks closed instead, whatever an opening that was under way returns
later (`lasts_run`). A channel begins to run at one place only, at the end of an opening whose
records were all sent (`phase_step`).
-/

set_option autoImplicit false

namespace RemotePrograms

namespace Machine

variable {m : Machine} {c : ContextId} {context : Context}

/-- What a regular move does to the phase of a context: what has ended stays so, and the channel
runs only after all records of an opening were sent. -/
theorem phase_step (h : m.Consistent) {move : Move} (hregular : move.isRegular = true)
    (hcontext : m.registry.context? c = some context) :
    ∃ context', (m.step move).1.registry.context? c = some context' ∧
      context.phase.Lasts context'.phase ∧
      (context'.phase = .running → context.phase = .running ∨
        ∃ id o, m.activity? id = some (.opening o []) ∧ o.context = c ∧
          (m.step move).2 = some (.returned id (.ok .done))) := by
  obtain hpasses | htouches := passes_or_touches h hregular c
  · have hdrift := hpasses.drift
    rw [hcontext] at hdrift
    generalize (m.step move).1.registry.context? c = after at hdrift
    cases hdrift with
    | bare _ hbare hlasts =>
      refine ⟨_, rfl, hlasts, fun hrunning => ?_⟩
      obtain hphase | hphase | hphase := hbare.phase_cases
      · rw [hphase] at hrunning
        cases hrunning
      · rw [hphase] at hrunning
        cases hrunning
      · rw [hrunning] at hphase
        cases hphase
    -- An armed channel waits for its handshake, and does not run yet.
    | armed _ _ hgoing hphase =>
      refine ⟨_, rfl, .of_going hgoing _, fun hrunning => ?_⟩
      rw [hphase] at hrunning
      cases hrunning
    | kept =>
      refine ⟨_, rfl, .endedBy _ _, fun hrunning => ?_⟩
      -- An ending can only take the channel out of `running`.
      obtain ⟨-, hsame⟩ | hended := Phase.endedBy_cases (m.ending? c move) context.phase
      · exact .inl (hsame.symm.trans hrunning)
      · rw [show context.phase.endedBy (m.ending? c move) = _ from hrunning] at hended
        cases hended
  · generalize m.step move = next at htouches
    cases htouches with
    | begins hbegins =>
      obtain ⟨context', session, hcontext', -, hphase, -, hstart⟩ := hbegins
      rw [hcontext] at hcontext'
      cases hcontext'
      rw [hstart, registry_enter]
      refine ⟨_, Registry.context?_setPhase_self hcontext _, .of_going ?_ _,
        fun hrunning => by cases hrunning⟩
      obtain hphase | hphase := hphase
      · rw [hphase]
        rfl
      · rw [hphase]
        rfl
    | tries => exact ⟨context, hcontext, .refl _, fun hrunning => .inl hrunning⟩
    | sent => exact ⟨context, hcontext, .refl _, fun hrunning => .inl hrunning⟩
    | fails hc hactivity =>
      obtain ⟨⟨context', hcontext', hfits⟩, -⟩ := h.fits _ _ _ ⟨hactivity, rfl⟩
      subst hc
      rw [Registry.failOpening, hfits.guarded_eq, if_pos rfl, registry_enter]
      exact ⟨_, Registry.context?_setPhase_self hcontext _, .toFailed _,
        fun hrunning => by cases hrunning⟩
    | completes hc hactivity =>
      obtain ⟨⟨context', hcontext', hfits⟩, -⟩ := h.fits _ _ _ ⟨hactivity, rfl⟩
      subst hc
      rw [hcontext] at hcontext'
      cases hcontext'
      -- Only a phase in flight is completed, so the late end of an opening undoes no ending.
      obtain ⟨hphase, hcomplete⟩ | ⟨hphase, hcomplete⟩ :=
        Registry.completeOpening_cases hcontext hfits
      · rw [hcomplete, registry_enter]
        refine ⟨_, Registry.context?_setPhase_self hcontext _, .of_going ?_ _,
          fun _ => .inr ⟨_, _, hactivity, rfl, rfl⟩⟩
        rw [hphase]
        rfl
      · rw [hcomplete, registry_enter]
        exact ⟨context, hcontext, .refl _, fun hrunning => .inl hrunning⟩

/-- In regular runs, what has ended stays so. -/
theorem lasts_run (h : m.Consistent) (hcontext : m.registry.context? c = some context)
    (moves : List Move) (hregular : ∀ move ∈ moves, move.isRegular = true) :
    ∃ context', (m.run moves).1.registry.context? c = some context' ∧
      context.phase.Lasts context'.phase := by
  refine (run_induction (P := fun m => m.Consistent ∧ ∃ context',
    m.registry.context? c = some context' ∧ context.phase.Lasts context'.phase)
    ⟨h, context, hcontext, .refl _⟩ fun m ⟨hm, before, hbefore, hlasts⟩ move hmove => ?_).2
  obtain ⟨next, hnext, hlasts', -⟩ := phase_step hm (hregular move hmove) hbefore
  exact ⟨consistent_step hm (hregular move hmove), next, hnext, hlasts.trans hlasts'⟩

end Machine

end RemotePrograms

import RemotePrograms.Proofs.Stream.Trial

/-!
# `RemotePrograms.Proofs.Stream.Watch`: no end of a session is missed

The turns of a trial leave open when it asks whether its session was ended. In truth one task does
both things. Each time it runs it asks for the signal that the session was ended and serves the
stream for a while, in either order, and then it sleeps until somebody wakes it. It ends the session
itself while it serves, perhaps just before it goes to sleep, and nothing may arrive any more that
would wake it.

`Signal` is what it waits for: a signal that is given while nobody waits is kept, and one that is
given to who waits wakes him. `Vigil` is a trial with such a signal and the sleep of its task. Every
run of a vigil is a run of the trial (`follows_step`), so what is said of all runs of a trial holds
here too. And a vigil does not sleep while an end of the session is to be noticed (`IsAlert`): if it
asked first, it waits, and the signal wakes it; if it serves first, the signal is kept until it
asks.
-/

set_option autoImplicit false

namespace RemotePrograms

/-! ### The signal -/

/-- A signal that one side gives and the other one asks for. -/
structure Signal where
  /-- It was given when nobody waited, and is kept for who asks next. -/
  isKept : Bool := false
  /-- Somebody has asked, and waits. -/
  isAwaited : Bool := false
  /-- It was given to who waited. -/
  isDelivered : Bool := false

namespace Signal

/-- Gives the signal. -/
def give (g : Signal) : Signal :=
  if g.isAwaited then { g with isAwaited := false, isDelivered := true }
  else { g with isKept := true }

/-- Whether who asks now gets the signal. -/
def isGiven (g : Signal) : Bool :=
  g.isKept || g.isDelivered

/-- Asks for the signal, and waits if it is not there. -/
def ask (g : Signal) : Signal :=
  if g.isDelivered then g
  else if g.isKept then { g with isKept := false }
  else { g with isAwaited := true }

/-- A signal that was given is there for who asks. -/
theorem isGiven_give (g : Signal) : g.give.isGiven = true := by
  unfold give
  split
  · simp [isGiven]
  · simp [isGiven]

/-- Who asks in vain waits. -/
theorem ask_of_not {g : Signal} (h : g.isGiven = false) :
    g.ask.isGiven = false ∧ g.ask.isAwaited = true := by
  simp only [isGiven, Bool.or_eq_false_iff] at h
  simp [ask, isGiven, h.1, h.2]

end Signal

/-! ### The task -/

/-- A trial whose task runs and sleeps. -/
structure Vigil where
  trial : Trial
  /-- Given whenever the session is ended. -/
  signal : Signal := {}
  /-- Whether the task will run again without anybody else's doing. -/
  isAwake : Bool := true

namespace Vigil

/-- A vigil that has just begun. -/
def start (settings : Settings) : Vigil where
  trial := .start settings

/-- Gives the signal so many times, and each time wakes the task if it waits. -/
def signalled : Nat → Vigil → Vigil
  | 0, v => v
  | n + 1, v =>
    signalled n
      { v with signal := v.signal.give, isAwake := v.isAwake || v.signal.isAwaited }

/-- One round of the service, which gives the signal as often as the round ends the session. -/
def round (v : Vigil) (branch : Branch) : Vigil :=
  let trial := v.trial.step (.serve (.round branch))
  signalled (trial.service.aborts.length - v.trial.service.aborts.length) { v with trial }

/-- Some rounds of the service. If it ends, the run is over. -/
def serve (branches : List Branch) (v : Vigil) : Vigil :=
  let served := branches.foldl round v
  { served with trial := served.trial.step .join }

/-- Asks for the signal. If it is there, the run is over. -/
def ask (v : Vigil) : Vigil where
  trial := if v.signal.isGiven then v.trial.conclude else v.trial
  signal := v.signal.ask
  isAwake := v.isAwake

/-- The task runs: it asks for the signal and serves the stream, in one order or the other, unless
the first of the two ends the run. Then it sleeps, if nobody has woken it meanwhile. -/
def poll (signalFirst : Bool) (branches : List Branch) (v : Vigil) : Vigil :=
  if v.isAwake && v.trial.result.isNone then
    let asleep := { v with isAwake := false }
    let first := if signalFirst then asleep.ask else asleep.serve branches
    if first.trial.result.isSome then first
    else if signalFirst then first.serve branches
    else first.ask
  else v

/-- What can happen to a vigil. -/
inductive Move where
  | poll (signalFirst : Bool) (branches : List Branch)
  /-- Somebody else wakes the task: the stream, or the task itself when it stopped early. -/
  | wake
  | arrive (arrival : Arrival)
  | failWrites (text : String)

/-- What arrives with a move. -/
def Move.arrival? : Move → Option Arrival
  | .arrive arrival => some arrival
  | _ => none

/-- One move. -/
def step (v : Vigil) : Move → Vigil
  | .poll signalFirst branches => v.poll signalFirst branches
  | .wake => { v with isAwake := true }
  | .arrive arrival => { v with trial := v.trial.step (.serve (.arrive arrival)) }
  | .failWrites text => { v with trial := v.trial.step (.serve (.failWrites text)) }

/-- A run: the moves one after another. -/
def run (v : Vigil) (moves : List Move) : Vigil :=
  moves.foldl step v

/-! ### A run of the trial -/

/-- The trial has made a run of its own, in which all this arrived. -/
def Follows (settings : Settings) (arrived : List Arrival) (p : Trial) : Prop :=
  ∃ turns, (∀ turn ∈ turns, turn.isOwn = true) ∧ turns.filterMap Turn.arrival? = arrived ∧
    p = (Trial.start settings).run turns

variable {settings : Settings} {arrived : List Arrival} {p : Trial} {v : Vigil}

/-- A trial that has just begun has made the empty run. -/
theorem Follows.start (settings : Settings) : Follows settings [] (Trial.start settings) :=
  ⟨[], by simp, rfl, rfl⟩

/-- A turn goes on with the run that the trial has made. -/
theorem Follows.step (h : Follows settings arrived p) {turn : Turn} (hown : turn.isOwn = true) :
    Follows settings (arrived ++ turn.arrival?.toList) (p.step turn) := by
  rcases h with ⟨turns, hturns, rfl, rfl⟩
  refine ⟨turns ++ [turn], fun other hother => ?_, ?_, ?_⟩
  · rcases List.mem_append.mp hother with hother | hother
    · exact hturns other hother
    · rw [List.mem_singleton.mp hother]
      exact hown
  · simp [List.filterMap_eq_flatMap_toList]
  · simp [Trial.run]

/-- A turn with which nothing arrives. -/
theorem Follows.stepQuiet (h : Follows settings arrived p) {turn : Turn}
    (hown : turn.isOwn = true) (hnone : turn.arrival? = none) :
    Follows settings arrived (p.step turn) := by
  have hstep := h.step hown
  rw [hnone, Option.toList_none, List.append_nil] at hstep
  exact hstep

/-- A run of a trial comes to what its orders say. -/
theorem Follows.stands (h : Follows settings arrived p) :
    ∃ taken, p.Stands ⟨0, settings⟩ taken arrived := by
  rcases h with ⟨turns, hturns, rfl, rfl⟩
  exact ⟨_, Trial.stands_run (Trial.stands_start settings) turns hturns⟩

/-- A round puts the ends of the session that it brings behind the others. -/
theorem Follows.aborts_round (h : Follows settings arrived p) (hgoing : p.result = none)
    (branch : Branch) :
    ∃ more, (p.step (.serve (.round branch))).service.aborts = p.service.aborts ++ more := by
  rcases h.stands with ⟨taken, hstands⟩
  have hnext := @Trial.Stands.step _ _ _ _ hstands (.serve (.round branch)) rfl
  have hresult : (p.step (.serve (.round branch))).result = none := by
    simp only [Trial.step, hgoing]
  -- Both before and after the round the ends are those of the orders taken.
  cases hstands with
  | going _ hservice =>
    cases hnext with
    | going _ hservice' =>
      rw [hservice.aborts_eq, hservice'.aborts_eq, Session.failures_append]
      exact ⟨_, rfl⟩
    | failed hfailed =>
      rw [hresult] at hfailed
      cases hfailed
    | concluded hconcluded =>
      rw [hresult] at hconcluded
      cases hconcluded
  | failed hfailed =>
    rw [hgoing] at hfailed
    cases hfailed
  | concluded hconcluded =>
    rw [hgoing] at hconcluded
    cases hconcluded

/-- A trial that goes on after it looked how the service ended is as it was. -/
theorem step_join_of_result (h : (p.step .join).result = none) : p.step .join = p := by
  cases hresult : p.result with
  | some outcome => simp only [Trial.step, hresult]
  | none =>
    cases houtcome : p.service.outcome with
    | none => simp only [Trial.step, hresult, houtcome]
    | some outcome =>
      cases outcome with
      | error cause =>
        simp only [Trial.step, hresult, houtcome] at h
        cases h
      | ok value =>
        simp only [Trial.step, hresult, houtcome, Trial.conclude] at h
        cases h

/-! ### Being alert -/

/-- The signal is there if and only if the session was ended. -/
def Notes (v : Vigil) : Prop :=
  v.signal.isGiven = true ↔ v.trial.service.aborts ≠ []

/-- The task has asked. It waits for the signal, or the signal has woken it. -/
def Waits (v : Vigil) : Prop :=
  (v.signal.isGiven = true → v.isAwake = true) ∧
    (v.signal.isGiven = false → v.signal.isAwaited = true)

/-- While the run goes on, the signal tells whether the session was ended, and a task that it tells
something does not sleep. -/
def IsAlert (v : Vigil) : Prop :=
  v.trial.result = none → v.Notes ∧ (v.signal.isGiven = true → v.isAwake = true)

/-- To give the signal does nothing to the trial. -/
theorem trial_signalled (n : Nat) (v : Vigil) : (signalled n v).trial = v.trial := by
  induction n generalizing v with
  | zero => rfl
  | succ n ih => exact ih _

/-- A signal that is given at least once is there, or it was there before. -/
theorem isGiven_signalled (n : Nat) (v : Vigil) :
    (signalled n v).signal.isGiven = (v.signal.isGiven || decide (n ≠ 0)) := by
  induction n generalizing v with
  | zero => simp [signalled]
  | succ n ih =>
    rw [signalled, ih]
    simp [Signal.isGiven_give]

/-- Who waits is woken by the signal. -/
theorem Waits.signalled (h : v.Waits) (n : Nat) : (Vigil.signalled n v).Waits := by
  induction n generalizing v with
  | zero => exact h
  | succ n ih =>
    refine ih ⟨fun _ => ?_, fun hnot => ?_⟩
    · show (v.isAwake || v.signal.isAwaited) = true
      cases hgiven : v.signal.isGiven with
      | true => rw [h.1 hgiven, Bool.true_or]
      | false => rw [h.2 hgiven, Bool.or_true]
    · have hgiven : v.signal.give.isGiven = false := hnot
      rw [Signal.isGiven_give] at hgiven
      cases hgiven

/-- What a vigil is while its run goes on. -/
structure Goes (settings : Settings) (arrived : List Arrival) (v : Vigil) : Prop where
  result_eq : v.trial.result = none
  follows : Follows settings arrived v.trial
  notes : v.Notes

/-- In a round of the service the run goes on. -/
theorem Goes.round (h : v.Goes settings arrived) (branch : Branch) :
    (v.round branch).Goes settings arrived := by
  have htrial : (v.round branch).trial = v.trial.step (.serve (.round branch)) :=
    trial_signalled _ _
  rcases h.follows.aborts_round h.result_eq branch with ⟨more, hmore⟩
  refine ⟨?_, ?_, ?_⟩
  · rw [htrial]
    simp only [Trial.step, h.result_eq]
  · rw [htrial]
    exact h.follows.stepQuiet rfl rfl
  · -- As many ends as are new give the signal.
    unfold Notes
    rw [htrial, hmore]
    show (Vigil.signalled _ _).signal.isGiven = true ↔ _
    rw [isGiven_signalled, hmore]
    have hnotes : v.signal.isGiven = true ↔ v.trial.service.aborts ≠ [] := h.notes
    cases more with
    | nil => simpa using hnotes
    | cons abort more => simp

/-- In a round of the service who waits is woken by the signal. -/
theorem Waits.round (h : v.Waits) (branch : Branch) : (v.round branch).Waits := by
  have hwaits : ({ v with trial := v.trial.step (.serve (.round branch)) } : Vigil).Waits := h
  exact hwaits.signalled _

/-- In some rounds of the service the run goes on. -/
theorem Goes.rounds (h : v.Goes settings arrived) (branches : List Branch) :
    (branches.foldl Vigil.round v).Goes settings arrived := by
  induction branches generalizing v with
  | nil => exact h
  | cons branch branches ih => exact ih (h.round branch)

/-- In some rounds of the service who waits is woken by the signal. -/
theorem Waits.rounds (h : v.Waits) (branches : List Branch) :
    (branches.foldl Vigil.round v).Waits := by
  induction branches generalizing v with
  | nil => exact h
  | cons branch branches ih => exact ih (h.round branch)

/-- What becomes of a vigil that serves: the run is over, or it goes on as before. -/
theorem Goes.serve (h : v.Goes settings arrived) (branches : List Branch) :
    Follows settings arrived (v.serve branches).trial ∧
      ((v.serve branches).trial.result = none →
        (v.serve branches).Goes settings arrived) := by
  have hrounds := h.rounds branches
  have hfollows : Follows settings arrived (v.serve branches).trial :=
    hrounds.follows.stepQuiet rfl rfl
  refine ⟨hfollows, fun hresult => ⟨hresult, hfollows, ?_⟩⟩
  have hsame : (v.serve branches).trial = (branches.foldl Vigil.round v).trial :=
    step_join_of_result hresult
  unfold Notes
  rw [hsame]
  exact hrounds.notes

/-- While its service has rounds, a task that waits is woken by the signal. -/
theorem Waits.serve (h : v.Waits) (branches : List Branch) : (v.serve branches).Waits :=
  h.rounds branches

/-- What becomes of a vigil that asks: it gets the signal, and the run is over, or it waits. -/
theorem Goes.ask (h : v.Goes settings arrived) :
    Follows settings arrived v.ask.trial ∧
      ((v.signal.isGiven = true ∧ v.ask.trial.result.isSome = true) ∨
        (v.signal.isGiven = false ∧ v.ask.Goes settings arrived ∧ v.ask.Waits)) := by
  cases hgiven : v.signal.isGiven with
  | true =>
    -- The signal is there because the session was ended, so the trial notices it.
    have haborts : v.trial.service.aborts ≠ [] := h.notes.mp hgiven
    have htrial : v.ask.trial = v.trial.step .notice := by
      simp [Vigil.ask, hgiven, Trial.step, h.result_eq, haborts]
    refine ⟨?_, .inl ⟨rfl, ?_⟩⟩
    · rw [htrial]
      exact h.follows.stepQuiet rfl rfl
    · simp [Vigil.ask, hgiven, Trial.conclude]
  | false =>
    have htrial : v.ask.trial = v.trial := by simp [Vigil.ask, hgiven]
    rcases Signal.ask_of_not hgiven with ⟨hnot, hawaited⟩
    have hfollows : Follows settings arrived v.ask.trial := by
      rw [htrial]
      exact h.follows
    refine ⟨hfollows, .inr ⟨rfl, ⟨?_, hfollows, ?_⟩, ?_, fun _ => hawaited⟩⟩
    · rw [htrial]
      exact h.result_eq
    · have hnotes : v.signal.isGiven = true ↔ v.trial.service.aborts ≠ [] := h.notes
      unfold Notes
      rw [htrial, ← hnotes, hgiven]
      show v.signal.ask.isGiven = true ↔ false = true
      rw [hnot]
    · -- Who asks and gets nothing has nothing to miss.
      intro hsome
      have hgiven' : v.signal.ask.isGiven = true := hsome
      rw [hnot] at hgiven'
      cases hgiven'

/-- A signal that was given is not lost while the task serves. -/
theorem isGiven_rounds (h : v.signal.isGiven = true) (branches : List Branch) :
    (branches.foldl Vigil.round v).signal.isGiven = true := by
  induction branches generalizing v with
  | nil => exact h
  | cons branch branches ih =>
    refine ih ?_
    show (Vigil.signalled _ _).signal.isGiven = true
    rw [isGiven_signalled]
    show (v.signal.isGiven || _) = true
    rw [h, Bool.true_or]

/-- What a vigil comes to when its task runs. If the signal was there, the run is over. -/
structure ComesTo (settings : Settings) (arrived : List Arrival) (v after : Vigil) : Prop where
  follows : Follows settings arrived after.trial
  isOver : v.signal.isGiven = true → after.trial.result.isSome = true
  isAlert : after.IsAlert

/-- A vigil whose run is over has nothing to miss. -/
theorem isAlert_of_isSome (h : v.trial.result.isSome = true) : v.IsAlert := by
  intro hnone
  rw [hnone] at h
  cases h

/-- The task asks, and serves if it waits for the signal. -/
theorem Goes.asksFirst (h : v.Goes settings arrived) (branches : List Branch) :
    ComesTo settings arrived v
      (if v.ask.trial.result.isSome then v.ask else v.ask.serve branches) := by
  rcases h.ask with ⟨hfollows, ⟨-, hsome⟩ | ⟨hnot, hgoes, hwaits⟩⟩
  · rw [if_pos hsome]
    exact ⟨hfollows, fun _ => hsome, isAlert_of_isSome hsome⟩
  · rw [if_neg (by simp [hgoes.result_eq])]
    rcases hgoes.serve branches with ⟨hserved, hstill⟩
    refine ⟨hserved, fun hgiven => ?_, fun hnone => ⟨(hstill hnone).notes, ?_⟩⟩
    · rw [hnot] at hgiven
      cases hgiven
    · -- Each end of the session that serving brings wakes the task, which waits already.
      exact (hwaits.serve branches).1

/-- The task serves, and asks if that does not end the run. -/
theorem Goes.servesFirst (h : v.Goes settings arrived) (branches : List Branch) :
    ComesTo settings arrived v
      (if (v.serve branches).trial.result.isSome then v.serve branches
        else (v.serve branches).ask) := by
  rcases h.serve branches with ⟨hserved, hstill⟩
  cases hresult : (v.serve branches).trial.result with
  | some outcome =>
    have hsome : (v.serve branches).trial.result.isSome = true := by rw [hresult]; rfl
    exact ⟨hserved, fun _ => hsome, isAlert_of_isSome hsome⟩
  | none =>
    rw [if_neg (by simp)]
    rcases (hstill hresult).ask with ⟨hfollows, ⟨-, hsome⟩ | ⟨hnot, hgoes, hwaits⟩⟩
    · exact ⟨hfollows, fun _ => hsome, isAlert_of_isSome hsome⟩
    · refine ⟨hfollows, fun hgiven => ?_, fun _ => ⟨hgoes.notes, hwaits.1⟩⟩
      have hkept : (v.serve branches).signal.isGiven = true := isGiven_rounds hgiven branches
      rw [hnot] at hkept
      cases hkept

/-- A task that runs leaves a vigil alert, in whichever order it asks and serves. -/
theorem Goes.poll (h : v.Goes settings arrived) (hawake : v.isAwake = true) (signalFirst : Bool)
    (branches : List Branch) :
    ComesTo settings arrived v (v.poll signalFirst branches) := by
  have hasleep : ({ v with isAwake := false } : Vigil).Goes settings arrived :=
    ⟨h.result_eq, h.follows, h.notes⟩
  have hcomes : ∀ {after : Vigil},
      ComesTo settings arrived { v with isAwake := false } after →
        ComesTo settings arrived v after := fun h => ⟨h.follows, h.isOver, h.isAlert⟩
  unfold Vigil.poll
  rw [if_pos (by simp [hawake, h.result_eq])]
  cases signalFirst with
  | true => exact hcomes (hasleep.asksFirst branches)
  | false => exact hcomes (hasleep.servesFirst branches)

/-- An alert vigil stays alert when something happens to the service that ends no session. -/
theorem IsAlert.serve (h : v.IsAlert) {move : Service.Move}
    (hmove : (v.trial.service.step move).1.aborts = v.trial.service.aborts) :
    ({ v with trial := v.trial.step (.serve move) } : Vigil).IsAlert := by
  intro hnone
  cases hgoing : v.trial.result with
  | some outcome =>
    simp only [Trial.step, hgoing] at hnone
    cases hnone
  | none =>
    rcases h hgoing with ⟨hnotes, hawake⟩
    refine ⟨?_, hawake⟩
    show v.signal.isGiven = true ↔ (v.trial.step (.serve move)).service.aborts ≠ []
    simp only [Trial.step, hgoing, hmove]
    exact hnotes

/-- Each move makes turns of the trial, and leaves the vigil alert. -/
theorem follows_step (hfollows : Follows settings arrived v.trial) (halert : v.IsAlert)
    (move : Move) :
    Follows settings (arrived ++ move.arrival?.toList) (v.step move).trial ∧
      (v.step move).IsAlert := by
  cases move with
  | poll signalFirst branches =>
    rw [show (Move.poll signalFirst branches).arrival?.toList = [] from rfl, List.append_nil]
    show Follows settings arrived (v.poll signalFirst branches).trial ∧
      (v.poll signalFirst branches).IsAlert
    -- A task that sleeps, or whose run is over, does nothing when it is polled.
    by_cases hruns : (v.isAwake && v.trial.result.isNone) = true
    · obtain ⟨hawake, hgoing⟩ := Bool.and_eq_true_iff.mp hruns
      rw [Option.isNone_iff_eq_none] at hgoing
      have hgoes : v.Goes settings arrived := ⟨hgoing, hfollows, (halert hgoing).1⟩
      have hcomes := hgoes.poll hawake signalFirst branches
      exact ⟨hcomes.follows, hcomes.isAlert⟩
    · rw [show v.poll signalFirst branches = v by rw [Vigil.poll, if_neg hruns]]
      exact ⟨hfollows, halert⟩
  | wake =>
    rw [show Move.wake.arrival?.toList = [] from rfl, List.append_nil]
    exact ⟨hfollows, fun hnone => ⟨(halert hnone).1, fun _ => rfl⟩⟩
  | arrive arrival =>
    have harrives : (Turn.serve (.arrive arrival)).isOwn = true := rfl
    exact ⟨hfollows.step harrives, halert.serve rfl⟩
  | failWrites text =>
    rw [show (Move.failWrites text).arrival?.toList = [] from rfl, List.append_nil]
    exact ⟨hfollows.stepQuiet rfl rfl, halert.serve rfl⟩

/-- A run of a vigil makes a run of its trial, and leaves the vigil alert. -/
theorem follows_run (hfollows : Follows settings arrived v.trial) (halert : v.IsAlert)
    (moves : List Move) :
    Follows settings (arrived ++ moves.filterMap Move.arrival?) (v.run moves).trial ∧
      (v.run moves).IsAlert := by
  induction moves generalizing v arrived with
  | nil => simpa [run] using ⟨hfollows, halert⟩
  | cons move moves ih =>
    rcases follows_step hfollows halert move with ⟨hfollows', halert'⟩
    have hlater := ih hfollows' halert'
    rw [List.append_assoc, List.filterMap_eq_flatMap_toList] at hlater
    rw [List.filterMap_eq_flatMap_toList]
    exact hlater

/-- At first there is nothing to notice. -/
theorem isAlert_start (settings : Settings) : (Vigil.start settings).IsAlert :=
  fun _ => ⟨iff_of_false Bool.false_ne_true (not_not_intro rfl), fun _ => rfl⟩

/-- A task that has an end of the session to notice is about to run, and then the run is over. -/
theorem notices (hfollows : Follows settings arrived v.trial) (halert : v.IsAlert)
    (hgoing : v.trial.result = none) (haborts : v.trial.service.aborts ≠ []) :
    v.isAwake = true ∧ ∀ signalFirst branches,
      (v.poll signalFirst branches).trial.result.isSome = true := by
  rcases halert hgoing with ⟨hnotes, hawake⟩
  have hgiven : v.signal.isGiven = true := hnotes.mpr haborts
  have hgoes : v.Goes settings arrived := ⟨hgoing, hfollows, hnotes⟩
  exact ⟨hawake hgiven, fun signalFirst branches =>
    (hgoes.poll (hawake hgiven) signalFirst branches).isOver hgiven⟩

end Vigil

/-! ### The outcome of a trial -/

/-- What a trial comes to, whatever arrives, however it is cut, and whenever the trial asks how the
service ended or whether its session was ended. Loading and connecting do not fail. The orders that
are dispatched before the run ends are the first ones of the stream, and they alone decide the
outcome: the session was aborted if and only if one of them reports that the launch failed, though
the stream may have ended as well. Otherwise the stream has ended, and no octet is left of it. The
run fails only as its service fails.

A task that waits for the signal makes a run of the trial, and it does not sleep while an end of the
session is to be noticed: it will run, and then the run is over. Of several ends of a session only
the first counts. -/
theorem trial_outcome (settings : Settings) :
    (let fresh : Service :=
        { machine := .ofRegistry { available := [remoteProgramsChannel] }
          channel := remoteProgramsChannel }
      let loaded := fresh.perform (.loadRemotePrograms ⟨0, settings⟩)
      let connected := loaded.1.perform (.connect remoteProgramsChannel 0)
      loaded.2 = .ok (.flag true) ∧ connected.2 = .ok (.context 0) ∧
        connected.1 = (Trial.start settings).service) ∧
    (∀ turns : List Turn, (∀ turn ∈ turns, turn.isOwn = true) →
      let p := (Trial.start settings).run turns
      let handed := (Trial.start settings).dispatched turns
      let arrived := turns.filterMap Turn.arrival?
      (∃ (pieces : List Bytes) (more : List Arrival), arrived = pieces.map Arrival.octets ++ more ∧
        handed <+: (transcript pieces.flatten).orders) ∧
      (∀ outcome, p.result = some (.ok outcome) →
        outcome = (if handed.any (·.isFailure) then .aborted .peerUnavailable launchFailedMessage
          else .completed) ∧
        (outcome = .completed → ∃ (pieces : List Bytes) (later : List Arrival),
          arrived = pieces.map Arrival.octets ++ .ended :: later ∧
          transcript pieces.flatten = ⟨handed, .ok ()⟩)) ∧
      ∀ cause, p.result = some (.error cause) → p.service.outcome = some (.error cause)) ∧
    (∀ moves : List Vigil.Move,
      let v := (Vigil.start settings).run moves
      Vigil.Follows settings (moves.filterMap Vigil.Move.arrival?) v.trial ∧
      (v.trial.result = none → v.trial.service.aborts ≠ [] →
        v.isAwake = true ∧ ∀ signalFirst branches,
          (v.poll signalFirst branches).trial.result.isSome = true)) ∧
    ∀ first later, Outcome.ofAborts (first :: later) = .aborted first.reason first.message := by
  refine ⟨⟨rfl, rfl, rfl⟩, fun turns hown => ?_, fun moves => ?_, Outcome.ofAborts_cons⟩
  · -- What the run has come to is settled by the account of it, not by the turns themselves.
    have hstands := Trial.stands_run (Trial.stands_start settings) turns hown
    rw [List.nil_append, List.nil_append] at hstands
    dsimp only
    generalize (Trial.start settings).run turns = p at hstands ⊢
    generalize (Trial.start settings).dispatched turns = handed at hstands ⊢
    generalize turns.filterMap Turn.arrival? = arrived at hstands ⊢
    refine ⟨?_, fun outcome hresult => ?_, fun cause hresult => ?_⟩
    · rcases hstands.exists_leaves with ⟨left, more, pieces, harrived, htaken⟩
      exact ⟨pieces, more, harrived, htaken.isPrefix⟩
    · exact hstands.outcome_cases hresult
    · exact hstands.outcome_eq hresult
  · rcases Vigil.follows_run (.start settings) (Vigil.isAlert_start settings) moves
      with ⟨hfollows, halert⟩
    exact ⟨hfollows, fun hgoing haborts => Vigil.notices hfollows halert hgoing haborts⟩

/-- A report that a program was not found. -/
def notFoundReport : Bytes :=
  [0x80, 0, 16, 0, 0, 0, 3, 0, 0, 0, 0, 0, 0, 0, 0, 0]

/-- The launch fails and the stream ends, and only then the trial looks what became of its
service. -/
def closing : List Turn :=
  [.serve (.arrive (.octets notFoundReport)), .serve (.arrive .ended), .serve (.round .read),
    .serve (.round .read), .join]

/-- The task waits for the signal when the launch fails. -/
def waiting : List Vigil.Move :=
  [.poll true [], .arrive (.octets notFoundReport), .wake, .poll true [.read]]

/-- Both runs come to the abort, although the service of the first one ended well, and the task of
the second one is woken for it. -/
theorem trial_outcome_closing :
    ((Trial.start {}).run closing).service.outcome = some (.ok ()) ∧
      ((Trial.start {}).run closing).result
        = some (.ok (.aborted .peerUnavailable launchFailedMessage)) ∧
      ((Vigil.start {}).run waiting).isAwake = true ∧
      (((Vigil.start {}).run waiting).poll false []).trial.result.isSome = true := by
  obtain ⟨-, hturns, hmoves, -⟩ := trial_outcome {}
  obtain ⟨-, hok, -⟩ := hturns closing (by decide)
  have hresult : ((Trial.start {}).run closing).result
      = some (.ok (.ofAborts ((Trial.start {}).run closing).service.aborts)) := rfl
  obtain ⟨houtcome, -⟩ := hok _ hresult
  have hfails : ((Trial.start {}).dispatched closing).any (·.isFailure) = true := rfl
  rw [hfails, if_pos rfl] at houtcome
  rw [houtcome] at hresult
  obtain ⟨-, hnotices⟩ := hmoves waiting
  obtain ⟨hawake, hends⟩ := hnotices rfl (by decide)
  exact ⟨rfl, hresult, hawake, hends false []⟩

end RemotePrograms

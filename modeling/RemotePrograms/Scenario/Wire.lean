import RemotePrograms.Stream.Trial

/-!
# `RemotePrograms.Scenario.Wire`: scripts for the far end of a stream

The far end of a stream sends octets, closes the stream or lets it fail, and beside it somebody
may act on the channels directly. `serve` plays such a script against a `Service`, and `attempt`
plays it against a `Trial`. After each step the service runs until nothing is ready, and the
report says what was written and done in that step. The reports end with the step at which the
service or the trial has ended.
-/

set_option autoImplicit false

namespace RemotePrograms.Scenario

/-- What happens at the far end of a stream. -/
inductive FarStep where
  | feed (octets : Bytes)
  | ended
  /-- The next read fails, once what has arrived is read. -/
  | readFailure (text : String)
  /-- Every later write fails. -/
  | writeFailure (text : String)
  | idle

/-- One step of a script for a service. -/
inductive ServiceStep where
  | far (step : FarStep)
  /-- Takes the channel away. -/
  | disconnect
  /-- Gives up the way to queue records that was kept beside the channel's own. -/
  | release
  /-- Hands an order to the channel, past the stream. -/
  | dispatch (order : Except Error ServerOrder)
  /-- Queues an order, past the channel. -/
  | send (order : ClientOrder)

/-- What a step at the far end is at the near end. -/
def FarStep.move? : FarStep → Option Service.Move
  | feed octets => some (.arrive (.octets octets))
  | ended => some (.arrive .ended)
  | readFailure text => some (.arrive (.failure text))
  | writeFailure text => some (.failWrites text)
  | idle => none

/-- A step comes to a service, with what it gives back. -/
def ServiceStep.apply (s : Service) : ServiceStep → Service × Result
  | far step => step.move?.elim (s, .ok .done) s.step
  | disconnect => s.step (.perform (.disconnect remoteProgramsChannel))
  | release => s.step .release
  | dispatch (.error cause) => (s, .error cause)
  | dispatch (.ok order) => s.step (.perform (.dispatch remoteProgramsChannel order))
  | send order => s.step (.send order)

/-- What a step of a script for a service came to. -/
structure ServiceReport where
  result : Result
  outcome : Option (Except Error Unit)
  /-- The octets that were written in the step. -/
  written : Bytes
  /-- The phase of the channel for remote programs, if there is one. -/
  phase : Option Phase
  /-- The sessions that were ended in the step. -/
  aborts : List Abort

/-- The phase of the channel for remote programs. -/
def servicePhase (s : Service) : Option Phase :=
  let r := s.machine.registry
  ((r.channel? remoteProgramsChannel).bind r.context?).map Context.phase

/-- Plays a script against a service, until the service ends. -/
def serve (s : Service) : List ServiceStep → List ServiceReport
  | [] => []
  | step :: later =>
    let (moved, result) := step.apply s
    let settled := moved.settle
    let report : ServiceReport :=
      { result
        outcome := settled.outcome
        written := (settled.written.drop s.written.length).flatten
        phase := servicePhase settled
        aborts := settled.aborts.drop s.aborts.length }
    report :: if settled.outcome.isSome then [] else serve settled later

/-- What a step of a script for a trial came to. -/
structure TrialReport where
  result : Option (Except Error Outcome)
  /-- The octets that were written in the step. -/
  written : Bytes

/-- Plays a script against a trial, until the trial ends. -/
def attempt (p : Trial) : List FarStep → List TrialReport
  | [] => []
  | step :: later =>
    let settled := (p.run (step.move?.map .serve).toList).settle
    let report : TrialReport :=
      { result := settled.result
        written := (settled.service.written.drop p.service.written.length).flatten }
    report :: if settled.result.isSome then [] else attempt settled later

end RemotePrograms.Scenario

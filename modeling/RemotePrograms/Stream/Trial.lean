import RemotePrograms.Stream.Service

/-!
# `RemotePrograms.Stream.Trial`: one program launched over one stream

A trial launches the program of a session over a stream and watches what comes of it. It runs a
`Service` and, beside it, waits for the session to be ended. It is over when either of the two
is: with the service's failure, or with an `Outcome`, which is the first end of the session, if
there was one, however often it was ended later. The end of a session is remembered until
somebody asks for it, so it cannot be missed; when it is noticed relative to the rounds of the
service is not settled here, and `Trial.step` takes that as an argument.
-/

set_option autoImplicit false

namespace RemotePrograms

/-- What came of a run. -/
inductive Outcome where
  | completed
  | aborted (reason : AbortReason) (message : String)
  deriving DecidableEq, Repr

namespace Outcome

/-- The outcome when the session is ended once more. Only the first end counts. -/
def after (reason : AbortReason) (message : String) : Outcome → Outcome
  | completed => aborted reason message
  | outcome => outcome

/-- The outcome of a run in which the session was ended so. -/
def ofAborts (aborts : List Abort) : Outcome :=
  aborts.foldl (fun outcome a => outcome.after a.reason a.message) completed

end Outcome

/-- One program launched over one stream. -/
structure Trial where
  service : Service
  /-- How the run ended. -/
  result : Option (Except Error Outcome) := none

/-- What happens next in a trial. -/
inductive Turn where
  /-- Something happens to the service. -/
  | serve (move : Service.Move)
  /-- The trial asks how the service ended. -/
  | join
  /-- The trial asks whether the session was ended. -/
  | notice

namespace Trial

/-- A trial that has just begun. -/
def start (settings : Settings) : Trial where
  service := .start (some ⟨0, settings⟩) remoteProgramsChannel false

/-- Takes the channel away and ends the run with its outcome. -/
def conclude (p : Trial) : Trial :=
  { service := (p.service.perform (.disconnect remoteProgramsChannel)).1
    result := some (.ok (.ofAborts p.service.aborts)) }

/-- One turn. A run that has ended does nothing. -/
def step (turn : Turn) (p : Trial) : Trial :=
  match p.result, turn with
  | some _, _ => p
  | none, .serve move => { p with service := (p.service.step move).1 }
  | none, .join =>
    match p.service.outcome with
    | none => p
    | some (.error cause) => { p with result := some (.error cause) }
    | some (.ok ()) => p.conclude
  | none, .notice => if p.service.aborts.isEmpty then p else p.conclude

/-- A run: the turns one after another. -/
def run (p : Trial) (turns : List Turn) : Trial :=
  turns.foldl (fun p turn => p.step turn) p

/-- Lets the service run until nothing is ready and then looks at how things stand. -/
def settle (p : Trial) : Trial :=
  match p.result with
  | some _ => p
  | none => ({ p with service := p.service.settle }.step .join).step .notice

end Trial

end RemotePrograms

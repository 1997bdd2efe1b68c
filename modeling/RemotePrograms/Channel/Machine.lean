import RemotePrograms.Channel.Operation

/-!
# `RemotePrograms.Channel.Machine`: operations that run into each other

A `Machine` is a registry with the activities that are under way on it. The outside moves it: it
calls an operation, it lets an activity go on, or it replies to an activity that waits for it,
in any order it likes. So a run is a list of moves, `Machine.run`, and a statement about every
run covers calls from inside a send, a callback or a notification as well as calls by others
between them. Each move lets one stretch happen and gives at most one `Event`.

A write lock is held exactly while one of the activities says so (`Machine.holds`). There is no
other record of it.

`Machine.perform` is the plain case: one operation, with surroundings that answer at once and do
not call back.
-/

set_option autoImplicit false

namespace RemotePrograms

/-- What names an activity. -/
abbrev ActivityId := Nat

/-- Channels with the activities that are under way. -/
structure Machine where
  registry : Registry
  activities : List (ActivityId × Activity) := []
  nextActivity : ActivityId := 0
  deriving DecidableEq, Repr

/-- What the outside does. -/
inductive Move where
  /-- Begins an operation. -/
  | call (operation : Operation)
  /-- Lets an activity go on. -/
  | resume (id : ActivityId)
  /-- Replies to an activity. -/
  | answer (id : ActivityId) (reply : Except Error Unit)
  deriving Repr

/-- What the outside sees. -/
inductive Event where
  /-- An activity asks something of the outside. -/
  | contact (id : ActivityId) (contact : Contact)
  /-- An operation is finished. -/
  | returned (id : ActivityId) (result : Result)
  deriving Repr

namespace Machine

/-- A machine on which nothing is under way. -/
def ofRegistry (registry : Registry) : Machine := { registry }

/-- An activity by its number. -/
def activity? (m : Machine) (id : ActivityId) : Option Activity :=
  m.activities.lookup id

/-- Whether somebody holds the write lock of a session. -/
def holds (m : Machine) (session : SessionId) : Bool :=
  m.activities.any fun entry => entry.2.lock? == some session

/-- Ends an activity. -/
def drop (m : Machine) (id : ActivityId) : Machine :=
  { m with activities := m.activities.filter (·.1 ≠ id) }

/-- Enters what is left of an operation. -/
def keep (m : Machine) (id : ActivityId) (activity : Activity) : Machine :=
  { m with activities := (id, activity) :: (m.drop id).activities }

/-- Enters the end of a stretch. -/
def enter (m : Machine) (id : ActivityId) : Stretch → Machine × Option Event
  | (registry, .returned result) => ({ m.drop id with registry }, some (.returned id result))
  | (registry, .continues activity) => ({ m.keep id activity with registry }, none)
  | (registry, .waits contact activity) =>
    ({ m.keep id activity with registry }, some (.contact id contact))

/-- One move of the outside. A move that does not fit the activity, or that names none, changes
nothing. -/
def step (m : Machine) : Move → Machine × Option Event
  | .call operation =>
    { m with nextActivity := m.nextActivity + 1 }.enter m.nextActivity (operation.start m.registry)
  | .resume id =>
    match m.activity? id with
    | none => (m, none)
    | some activity =>
      if activity.isOutside then (m, none)
      else m.enter id (activity.resume (fun session => !m.holds session) m.registry)
  | .answer id reply =>
    match m.activity? id with
    | none => (m, none)
    | some activity =>
      if activity.isOutside then m.enter id (activity.answer reply m.registry) else (m, none)

/-- A run: the moves one after another, with what the outside sees. -/
def run (m : Machine) : List Move → Machine × List Event
  | [] => (m, [])
  | move :: moves =>
    let (next, event) := m.step move
    let (last, events) := next.run moves
    (last, event.toList ++ events)

/-- The number of the activity that the next call begins. -/
def next (m : Machine) : ActivityId := m.nextActivity

/-- Carries an activity on, with surroundings that answer at once, for at most so many moves. No
result means that the activity has not come to its end. -/
def attend {σ : Type} (reply : Contact → σ → Except Error Unit × σ) (id : ActivityId) :
    Nat → Machine → Option Event → σ → Machine × σ × Option Result
  | _, m, some (.returned _ result), outside => (m, outside, some result)
  | 0, m, _, outside => (m, outside, none)
  | fuel + 1, m, some (.contact _ contact), outside =>
    let (answer, outside) := reply contact outside
    let (m, event) := m.step (.answer id answer)
    attend reply id fuel m event outside
  | fuel + 1, m, none, outside =>
    let (m, event) := m.step (.resume id)
    attend reply id fuel m event outside

/-- Runs one operation from beginning to end, with surroundings that answer at once. No result
means that the operation needs a write lock which is held by somebody else. -/
def perform {σ : Type} (reply : Contact → σ → Except Error Unit × σ) (operation : Operation)
    (m : Machine) (outside : σ) : Machine × σ × Option Result :=
  let id := m.next
  let (m, event) := m.step (.call operation)
  attend reply id ((m.activity? id).elim 0 Activity.stretches) m event outside

end Machine

end RemotePrograms

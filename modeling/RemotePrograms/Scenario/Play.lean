import RemotePrograms.Channel.Machine
import RemotePrograms.Scenario.Script
import RemotePrograms.Stream.Outbox

/-!
# `RemotePrograms.Scenario.Play`: a script played against the channels

A `Player` carries a script out. It calls the operations of a `Machine`, looks at what each
stretch asks of the outside, and answers as the script says, after the steps that the script
puts before the answer. What is still to be done is a stack of tasks (`Player.agenda`), so steps
inside steps need no recursion: one task may put others in front of itself. `Player.step` does
one task.

Every step at the top level gives a `Report`: the answer to the step, the log of what the
outside saw meanwhile, the PDUs that were queued, and the state of every context.

A script can run into itself without end, as when a subscriber to new channels connects another
channel each time, and it can wait for ever for a write lock that it holds. So `play?` does a
given number of tasks at most and has no reports if they do not suffice.
-/

set_option autoImplicit false

namespace RemotePrograms.Scenario

/-- What can be seen of a context. -/
structure View where
  name : String
  phase : Phase
  session : Option SessionId
  hasHandler : Bool
  deriving DecidableEq, Repr

/-- What can be seen of this context. -/
def View.ofContext (context : Context) : View where
  name := context.name
  phase := context.phase
  session := context.session.map Session.id
  hasHandler := context.handler.isSome

/-- What a step gives back. -/
inductive Answer where
  | failed (cause : Error)
  | done
  | flag (b : Bool)
  | number (n : Nat)
  | slot (slot : Option Slot)
  | text (text : String)
  | view (view : View)
  | nothing
  deriving DecidableEq, Repr

/-- What the outside saw. -/
inductive Entry where
  /-- A record came to a transport that answers by rules. If the transport watches a session,
  the entry says whether its write lock was held. -/
  | sent (slot : Slot) (order : ClientOrder) (locked : Option Bool)
  | aborted (session : SessionId) (reason : AbortReason) (message : String)
  | shown (label name : String) (phase : Phase)
  | handled (channel : String) (order : ServerOrder)
  /-- A step inside another one was taken. -/
  | inner (step : Step) (answer : Answer)

/-- What a step at the top level came to. -/
structure Report where
  answer : Answer
  log : List Entry
  pdus : List (Slot × List Bytes)
  views : List (Option View)

/-- The state of what carries the records of a context. -/
inductive CarrierState where
  | stream (box : Outbox)
  | ruled (rules : List (Rule Step)) (watched : Option SessionId) (sent : List OrderType)

/-- What carries records before it has carried any. -/
def CarrierState.fresh : Carrier Step → CarrierState
  | .stream => .stream {}
  | .ruled rules watched => .ruled rules watched []

/-- Something to be done. -/
inductive Task where
  /-- A step is to be taken. `shown` is the context that a subscriber is looking at. -/
  | take (step : Step) (shown : Option ContextId) (isInner : Bool)
  /-- An activity is to go on. If it comes to hold a write lock, these steps are to be taken. -/
  | resume (id : ActivityId) (actions : List Step) (shown : Option ContextId)
  /-- An activity is to be answered. -/
  | answer (id : ActivityId) (reply : Except Error Unit)
  /-- The operation of a step has returned. `slot` is the slot that the step fills. -/
  | conclude (step : Step) (slot : Slot) (isInner : Bool)

/-- A script on its way. -/
structure Player where
  machine : Machine
  parties : List Party
  agenda : List Task
  /-- What carries the records of each slot. -/
  carriers : List CarrierState := []
  /-- The context of each slot, once it is there. -/
  slots : List (Option ContextId) := []
  /-- The subscribers, with their labels and actions. -/
  audience : List (String × List Step) := []
  /-- The answers of callbacks that note what they are called with. -/
  replies : List (Except Error Unit) := []
  /-- What the last operation to return has returned. -/
  returned : Result := .ok .done
  /-- What the outside saw during the current step. -/
  log : List Entry := []
  reports : List Report := []

namespace Player

/-- A script that has not begun. -/
def start (setting : Setting) (script : List Step) : Player where
  machine := .ofRegistry { available := setting.available }
  parties := setting.parties
  agenda := script.map fun step => .take step none false

/-- A session of the script. -/
def session (p : Player) (id : SessionId) : Session :=
  ⟨id, (p.parties[id]?.map Party.settings).getD {}⟩

/-- Adds to the log. -/
def note (p : Player) (entry : Entry) : Player :=
  { p with log := p.log ++ [entry] }

/-- Puts tasks in front of the others. -/
def ahead (p : Player) (tasks : List Task) : Player :=
  { p with agenda := tasks ++ p.agenda }

/-- Puts steps inside the current one, and then an answer, in front of all else. -/
def react (p : Player) (steps : List Step) (shown : Option ContextId) (id : ActivityId)
    (reply : Except Error Unit) : Player :=
  p.ahead (steps.map (fun step => .take step shown true) ++ [.answer id reply])

/-- The state of a context, if there is one. -/
def view? (p : Player) (id : Option ContextId) : Option View :=
  (id.bind p.machine.registry.context?).map View.ofContext

/-- The PDUs that are queued in each slot that has any. -/
def queued (p : Player) : List (Slot × List Bytes) :=
  p.carriers.zipIdx.filterMap fun
    | (.stream box, slot) => if box.queue.isEmpty then none else some (slot, box.queue)
    | _ => none

/-- Empties every queue. -/
def emptyQueues (p : Player) : Player :=
  { p with carriers := p.carriers.map fun
      | .stream box => .stream { box with queue := [] }
      | carrier => carrier }

/-- Ends a step with its answer: inside another step by an entry in the log, and otherwise by a
report, after which the log and the queues are empty. -/
def close (p : Player) (step : Step) (isInner : Bool) (answer : Answer) : Player :=
  if isInner then p.note (.inner step answer)
  else
    let report : Report :=
      { answer, log := p.log, pdus := p.queued, views := p.slots.map p.view? }
    { p.emptyQueues with log := [], reports := p.reports ++ [report] }

/-- The first rule that fits a record when these types were sent before. -/
def rule? (rules : List (Rule Step)) (sent : List OrderType) (type : OrderType) :
    Option (Rule Step) :=
  rules.find? fun rule => rule.type == some type && rule.skip ≤ sent.count type

/-- A record comes to the transport of a slot. Each slot has its own, of the same number. -/
def send (p : Player) (id : ActivityId) (slot : Slot) (order : ClientOrder) : Player :=
  match p.carriers[slot]? with
  | none => p.react [] none id (.ok ())
  | some (.stream box) =>
    let (reply, box) := box.send order
    { p with carriers := p.carriers.set slot (.stream box) }.react [] none id reply
  | some (.ruled rules watched sent) =>
    let p := p.note (.sent slot order (watched.map p.machine.holds))
    let p := { p with carriers := p.carriers.set slot (.ruled rules watched (order.type :: sent)) }
    match rule? rules sent order.type with
    | none => p.react [] none id (.ok ())
    | some rule => p.react rule.hooks none id rule.reply

/-- The outside is asked for something. `actions` are the steps to take under a write lock, and
`shown` is the context that their taker is looking at. -/
def contact (p : Player) (id : ActivityId) (actions : List Step) (shown : Option ContextId) :
    Contact → Player
  | .send _ transport order => p.send id transport order
  | .callback context handler order =>
    let name := (p.machine.registry.context? context).elim "" Context.name
    (p.note (.handled name order)).react [] none id (p.replies[handler]?.getD (.ok ()))
  | .abort session reason message =>
    (p.note (.aborted session reason message)).react
      ((p.parties[session]?.map Party.onAbort).getD []) none id (.ok ())
  | .notify context subscriber =>
    match p.audience[subscriber]?, p.machine.registry.context? context with
    | some (label, actions), some c =>
      (p.note (.shown label c.name c.phase)).react actions (some context) id (.ok ())
    | _, _ => p.react [] none id (.ok ())
  | .locked _ => p.react actions shown id (.ok ())

/-- Moves the machine and looks at what comes of it. -/
def move (p : Player) (id : ActivityId) (move : Move) (actions : List Step)
    (shown : Option ContextId) : Player :=
  let (machine, event) := p.machine.step move
  let p := { p with machine }
  match event with
  | none => p.ahead [.resume id actions shown]
  | some (.returned _ result) => { p with returned := result }
  | some (.contact _ contact) => p.contact id actions shown contact

/-- Calls an operation. What it returns ends the step. -/
def call (p : Player) (step : Step) (shown : Option ContextId) (isInner : Bool)
    (operation : Operation) (actions : List Step) : Player :=
  let p := p.ahead [.conclude step p.slots.length isInner]
  p.move p.machine.next (.call operation) actions shown

/-- Takes up the next slot. -/
def newSlot (p : Player) (carrier : Carrier Step) : Player :=
  { p with carriers := p.carriers ++ [.fresh carrier], slots := p.slots ++ [none] }

/-- Does something with a context. -/
def request (p : Player) (step : Step) (shown : Option ContextId) (isInner : Bool)
    (id : ContextId) (request : Request) : Player :=
  let call := fun what => p.call step shown isInner (.call id what) []
  let answer := p.close step isInner
  match request with
  | .view => answer ((p.view? (some id)).elim .nothing .view)
  | .diagnostic =>
    match p.machine.registry.context? id with
    | some context =>
      answer (if context.phase.isRunning then .nothing else .text context.diagnostic)
    | none => answer .nothing
  | .attach session => call (.attach (p.session session))
  | .install .remotePrograms => call (.install .remotePrograms)
  | .install (.noting reply) =>
    { p with replies := p.replies ++ [reply] }.call step shown isInner
      (.call id (.install (.custom p.replies.length))) []
  | .arm session => call (.arm (p.session session))
  | .dispatch (.error cause) => answer (.failed cause)
  | .dispatch (.ok order) => call (.dispatch order)
  | .sendOpening => call .sendOpening
  | .report order => call (.report order)
  | .move transition => call (.move transition)
  | .put phase => call (.put phase)

/-- Takes a step. -/
def take (p : Player) (step : Step) (shown : Option ContextId) (isInner : Bool) : Player :=
  let call := fun operation => p.call step shown isInner operation []
  let answer := p.close step isInner
  match step with
  | .load name => call (.load name)
  | .isLoaded name => answer (.flag (p.machine.registry.isLoaded name))
  | .loadRemotePrograms session => call (.loadRemotePrograms (p.session session))
  | .subscribe label actions =>
    { p with audience := p.audience ++ [(label, actions)] }.call step shown isInner
      (.subscribe p.audience.length) []
  | .connect name carrier =>
    let transport := p.slots.length
    let p := p.ahead [.conclude step transport isInner]
    let p := p.newSlot carrier
    p.move p.machine.next (.call (.connect name transport)) [] shown
  | .create name carrier =>
    let transport := p.slots.length
    let p := p.ahead [.conclude step transport isInner]
    let p := p.newSlot carrier
    p.move p.machine.next (.call (.create name transport)) [] shown
  | .disconnect name => call (.disconnect name)
  | .channel name =>
    answer (.slot ((p.machine.registry.channel? name).bind fun id =>
      (p.machine.registry.context? id).map Context.transport))
  | .dispatch _ (.error cause) => answer (.failed cause)
  | .dispatch name (.ok order) => call (.dispatch name order)
  | .diagnostic => answer (.text p.machine.registry.diagnostic)
  | .sessionDiagnostic session => answer (.text (p.session session).diagnostic)
  | .abort session reason message => call (.abort session reason message)
  | .locked session actions => p.call step shown isInner (.lock session) actions
  | .closeStream slot =>
    match p.carriers[slot]? with
    | some (.stream box) =>
      { p with carriers := p.carriers.set slot (.stream { box.shut with queue := [] }) }.close step
        isInner (.flag box.isOpen)
    | _ => answer (.flag false)
  | .onSlot slot request =>
    match (p.slots[slot]?).join with
    | some id => p.request step shown isInner id request
    | none => answer .nothing
  | .onShown request =>
    match shown with
    | some id => p.request step shown isInner id request
    | none => answer .nothing

/-- The operation of a step has returned: a new context fills its slot, and the step ends. -/
def conclude (p : Player) (step : Step) (slot : Slot) (isInner : Bool) : Player :=
  match p.returned, step with
  | .error cause, _ => p.close step isInner (.failed cause)
  | .ok (.context id), _ =>
    { p with slots := p.slots.set slot (some id) }.close step isInner (.number slot)
  | .ok (.flag b), _ => p.close step isInner (.flag b)
  | .ok .done, .locked _ actions => p.close step isInner (.number actions.length)
  | .ok .done, _ => p.close step isInner .done

/-- Does the first task of the agenda. -/
def step (p : Player) : Player :=
  match p.agenda with
  | [] => p
  | task :: later =>
    let p := { p with agenda := later }
    match task with
    | .take step shown isInner => p.take step shown isInner
    | .resume id actions shown => p.move id (.resume id) actions shown
    | .answer id reply => p.move id (.answer id reply) [] none
    | .conclude step slot isInner => p.conclude step slot isInner

/-- Does so many tasks, or fewer if nothing is left to do. -/
def run : Nat → Player → Player
  | 0, p => p
  | fuel + 1, p => if p.agenda.isEmpty then p else run fuel p.step

end Player

/-- Plays a script with at most so many tasks, and gives the reports of its steps. -/
def play? (fuel : Nat) (setting : Setting) (script : List Step) : Option (List Report) :=
  let p := (Player.start setting script).run fuel
  if p.agenda.isEmpty then some p.reports else none

end RemotePrograms.Scenario

import Mathlib.Data.List.Induction
import RemotePrograms.Proofs.Channel.Handshake
import RemotePrograms.Proofs.Channel.Routing

/-!
# `RemotePrograms.Proofs.Channel.Displaced`: contexts whose name stands for something else

A context that a name stands for can lose the name in two ways. The channel is disconnected, or
another one is connected under the name. Only the first way closes the context. In the second one
the name goes over (`Machine.HandsOver`), and the older context is left as it was
(`context?_of_handsOver`).

`displaced_terminated` says that this is the only gap: as long as phases are left to the table of
transitions, a context that was connected and has lost its name has ended, unless the name went
over from it. `displaced_running` shows what comes through the gap. A channel is connected twice,
and the older context answers another handshake of the server with a whole opening.
-/

set_option autoImplicit false

namespace RemotePrograms

/-! ### Completions -/

namespace Machine

variable {m : Machine} {called : List Operation} {done : List Completion}

/-- What has returned in a run goes on with what returns in the rest of it. -/
theorem completions_append (called : List Operation) (m : Machine) (moves later : List Move) :
    m.completions called (moves ++ later)
      = m.completions called moves
        ++ (m.run moves).1.completions (called ++ moves.filterMap Move.operation?) later := by
  induction moves generalizing m called with
  | nil =>
    show _ = [] ++ m.completions (called ++ []) later
    rw [List.append_nil]
    rfl
  | cons move moves ih =>
    rw [Move.operations_cons, List.cons_append, completions, completions, ih, List.append_assoc,
      List.append_assoc]
    rfl

/-! ### How a name is lost -/

/-- A name goes over from a context to another one. -/
def HandsOver (m : Machine) (name : String) (c : ContextId) (move : Move) : Prop :=
  m.registry.channel? name = some c ∧
    ∃ c', c' ≠ c ∧ (m.step move).1.registry.channel? name = some c'

/-- A move of the run hands the name over. -/
def HandedOver (m : Machine) (name : String) (c : ContextId) (moves : List Move) : Prop :=
  ∃ before move later, moves = before ++ move :: later ∧ (m.run before).1.HandsOver name c move

/-- A name that was handed over stays so when the run goes on. -/
theorem HandedOver.append {name : String} {c : ContextId} {moves : List Move}
    (h : m.HandedOver name c moves) (more : List Move) : m.HandedOver name c (moves ++ more) := by
  obtain ⟨before, move, later, rfl, hmove⟩ := h
  exact ⟨before, move, later ++ more, by simp, hmove⟩

/-- A move that changes what a name stands for publishes a context or takes the channel away. -/
theorem Tells.renames (h : m.Tells called done) {move : Move} {name : String} {c : ContextId}
    (hbefore : m.registry.channel? name = some c)
    (hafter : (m.step move).1.registry.channel? name ≠ some c) :
    (∃ c', c' ≠ c ∧ (m.step move).1.registry = m.registry.publish name c') ∨
      m.registry.disconnect name = some (m.step move).1.registry := by
  obtain ⟨hidle, -⟩ | ⟨id, stretch, operation, shown, hstep, -, hwires, -⟩ := h.wires move
  · rw [hidle] at hafter
    exact absurd hbefore hafter
  · rw [hstep, registry_enter] at hafter ⊢
    cases hwires with
    | keeps hconnected =>
      refine absurd ?_ hafter
      unfold Registry.channel? at hbefore ⊢
      rw [hconnected]
      exact hbefore
    | begins => exact absurd hbefore hafter
    -- Only a context that is given this very name, or the name being taken away, counts.
    | @publishes other transport c' =>
      rw [Registry.channel?_publish] at hafter
      by_cases hname : name = other
      · subst hname
        rw [if_pos rfl] at hafter
        exact .inl ⟨c', fun hc => hafter (congrArg some hc), rfl⟩
      · rw [if_neg hname] at hafter
        exact absurd hbefore hafter
    | @closes other r' _ hdisconnect =>
      rw [Registry.channel?_disconnect hdisconnect] at hafter
      by_cases hname : name = other
      · subst hname
        exact .inr hdisconnect
      · rw [if_neg hname] at hafter
        exact absurd hbefore hafter

/-- What a name goes over from is left as it was. -/
theorem Tells.context?_of_handsOver (h : m.Tells called done) {move : Move} {name : String}
    {c : ContextId} (hmove : m.HandsOver name c move) :
    (m.step move).1.registry.contexts = m.registry.contexts := by
  obtain ⟨hbefore, c', hne, hafter⟩ := hmove
  obtain ⟨other, -, hpublish⟩ | hdisconnect := h.renames hbefore
    (fun heq => hne (Option.some.inj (hafter.symm.trans heq)))
  · rw [hpublish]
    rfl
  · rw [Registry.channel?_disconnect hdisconnect, if_pos rfl] at hafter
    cases hafter

/-! ### What has ended -/

/-- A context of this number has ended. -/
def HasEnded (m : Machine) (c : ContextId) : Prop :=
  ∃ context, m.registry.context? c = some context ∧ context.phase.isTerminated = true

/-- A closed phase has ended, however it ended. -/
theorem Phase.isTerminated_close (phase : Phase) : phase.close.isTerminated = true := by
  cases phase with
  | terminated ending => cases ending <;> rfl
  | _ => rfl

/-- What has ended stays so in every run that puts no context into a phase. -/
theorem HasEnded.run {c : ContextId} (h : m.HasEnded c) (moves : List Move)
    (hputs : ∀ move ∈ moves, move.puts = false) : (m.run moves).1.HasEnded c := by
  obtain ⟨context, hcontext, hended⟩ := h
  obtain ⟨context', hcontext', -, hlasts⟩ := context?_run hcontext moves hputs
  exact ⟨context', hcontext', hlasts.isTerminated hended⟩

/-- The channel that is taken away has ended. -/
theorem hasEnded_of_disconnect {move : Move} {name : String} {c : ContextId}
    (hbears : m.registry.Bears name c) (hbefore : m.registry.channel? name = some c)
    (hdisconnect : m.registry.disconnect name = some (m.step move).1.registry) :
    (m.step move).1.HasEnded c := by
  obtain ⟨context, hcontext, -⟩ := hbears.context
  refine ⟨{ context with phase := context.phase.close }, ?_, Phase.isTerminated_close _⟩
  rw [Registry.context?_disconnect hdisconnect, if_pos hbefore, hcontext]
  rfl

/-- A context that has ended refuses every handshake at once, so no record is sent. -/
theorem step_of_hasEnded {operation : Operation} {c : ContextId} {context : Context}
    (hcontext : m.registry.context? c = some context)
    (hended : context.phase.isTerminated = true)
    (hhandler : context.handler = some .remotePrograms)
    (hhands : m.registry.HandsHandshake c operation) :
    (m.step (.call operation)).1.registry = m.registry ∧
      (m.step (.call operation)).2 = some (.returned m.nextActivity
        (.error (.notAllowed "cannot handshake: channel not awaiting a handshake"))) := by
  have hstart : operation.start m.registry
      = m.registry.refuse (.notAllowed "cannot handshake: channel not awaiting a handshake") := by
    rw [hhands.start_eq hcontext hhandler, Registry.handshake]
    cases hphase : context.phase with
    | terminated ending => rfl
    | _ =>
      rw [hphase] at hended
      cases hended
  rw [step_call, registry_enter, event_enter, hstart]
  exact ⟨rfl, rfl⟩

/-! ### Runs -/

/-- What is known of a context that was connected under a name. -/
def IsSettled (start m : Machine) (moves : List Move) (name : String) (c : ContextId) : Prop :=
  m.registry.channel? name = some c ∨ m.HasEnded c ∨ start.HandedOver name c moves

/-- Whatever the next move is, as much is known behind it. -/
theorem IsSettled.step {start : Machine} {moves : List Move} {name : String} {c : ContextId}
    (h : IsSettled start (start.run moves).1 moves name c)
    (htells : (start.run moves).1.Tells called done) {move : Move} (hputs : move.puts = false) :
    IsSettled start ((start.run moves).1.step move).1 (moves ++ [move]) name c := by
  obtain hbefore | hended | hover := h
  · -- The name is lost by a new context or by a disconnect, if it is lost at all.
    by_cases hafter : ((start.run moves).1.step move).1.registry.channel? name = some c
    · exact .inl hafter
    · obtain ⟨c', hne, hpublish⟩ | hdisconnect := htells.renames hbefore hafter
      · refine .inr (.inr ⟨moves, move, [], rfl, hbefore, c', hne, ?_⟩)
        rw [hpublish, Registry.channel?_publish, if_pos rfl]
      · have hbears := htells.isRouted.named name c (Registry.mem_of_channel? hbefore)
        exact .inr (.inl (hasEnded_of_disconnect hbears hbefore hdisconnect))
  · refine .inr (.inl ?_)
    exact hended.run [move] fun other hother => by rwa [List.mem_singleton.mp hother]
  · exact .inr (.inr (hover.append [move]))

/-- Every context that was connected is settled. -/
theorem isSettled_run (available : List String) (moves : List Move)
    (hputs : ∀ move ∈ moves, move.puts = false) {name : String} {transport : TransportId}
    {c : ContextId}
    (hconnected : (.connect name transport, .ok (.context c))
      ∈ (ofRegistry { available }).completions [] moves) :
    IsSettled (ofRegistry { available }) ((ofRegistry { available }).run moves).1 moves name c := by
  induction moves using List.reverseRecOn with
  | nil => cases hconnected
  | append_singleton moves move ih =>
    have htells := (tells_ofRegistry available).run moves
    have hlater := htells.step move
    rw [completions_append] at hconnected
    have hrun : ((ofRegistry { available }).run (moves ++ [move])).1
        = (((ofRegistry { available }).run moves).1.step move).1 := by
      rw [run_append]
      rfl
    rw [hrun]
    obtain hold | hnew := List.mem_append.mp hconnected
    · exact (ih (fun other hother => hputs other (List.mem_append_left _ hother)) hold).step
        htells (hputs move (by simp))
    · -- What has just been connected has the name.
      refine .inl ?_
      rw [completions, completions, List.append_nil, Option.mem_toList] at hnew
      have hname := hlater.channel?_eq name
      rw [List.nil_append] at hname
      rw [hname, hnew, Option.toList_some, standing?_concat]
      simp [Completion.settles, Completion.context?]

end Machine

/-! ### The property -/

/-- What becomes of the contexts that were connected, in every run that leaves phases to the table
of transitions. The name of such a context still stands for it, or it has ended, or a move handed
the name over to another context. That move leaves every context as it was, whatever phase it is in.
So of the contexts from which no name was handed over, at most one for each name has not ended.

A context that has ended does not come back, and it refuses every handshake without sending
anything. -/
theorem displaced_terminated (available : List String) (moves : List Move)
    (hmoves : ∀ move ∈ moves, move.puts = false) :
    let start : Machine := .ofRegistry { available }
    let m := (start.run moves).1
    let Connected (name : String) (c : ContextId) : Prop :=
      ∃ transport, (.connect name transport, .ok (.context c)) ∈ start.completions [] moves
    (∀ name c, Connected name c → m.registry.channel? name ≠ some c →
      m.HasEnded c ∨ start.HandedOver name c moves) ∧
    (∀ name c move, m.HandsOver name c move →
      (m.step move).1.registry.contexts = m.registry.contexts) ∧
    (∀ name c c', Connected name c → Connected name c' →
      ¬ m.HasEnded c → ¬ m.HasEnded c' →
      ¬ start.HandedOver name c moves → ¬ start.HandedOver name c' moves → c = c') ∧
    ∀ c, m.HasEnded c →
      (∀ later, (∀ move ∈ later, move.puts = false) → (m.run later).1.HasEnded c) ∧
      ∀ context operation, m.registry.context? c = some context →
        context.handler = some .remotePrograms → m.registry.HandsHandshake c operation →
        (m.step (.call operation)).1.registry = m.registry ∧
          (m.step (.call operation)).2 = some (.returned m.nextActivity
            (.error (.notAllowed "cannot handshake: channel not awaiting a handshake"))) := by
  intro start m Connected
  have hsettled : ∀ name c, Connected name c → Machine.IsSettled start m moves name c :=
    fun name c ⟨transport, hconnected⟩ => Machine.isSettled_run available moves hmoves hconnected
  -- Whoever neither ended nor was replaced must still have the name.
  have hnamed : ∀ name c, Connected name c → ¬ m.HasEnded c → ¬ start.HandedOver name c moves →
      m.registry.channel? name = some c := by
    intro name c hconnected hgoing hkept
    obtain hname | hended | hover := hsettled name c hconnected
    · exact hname
    · exact absurd hended hgoing
    · exact absurd hover hkept
  refine ⟨fun name c hconnected hlost => (hsettled name c hconnected).resolve_left hlost,
    fun name c move hover => ?_, fun name c c' hc hc' hgoing hgoing' hkept hkept' => ?_,
    fun c hended => ⟨hended.run, fun context operation hcontext hhandler hhands => ?_⟩⟩
  · exact ((Machine.tells_ofRegistry available).run moves).context?_of_handsOver hover
  · -- One name does not stand for two contexts.
    have hname := hnamed name c hc hgoing hkept
    rw [hnamed name c' hc' hgoing' hkept'] at hname
    exact (Option.some.inj hname).symm
  · obtain ⟨other, hother, hterminated⟩ := hended
    rw [hcontext] at hother
    cases hother
    exact Machine.step_of_hasEnded hcontext hterminated hhandler hhands

section Twice

/-- Support for remote programs is registered, and the channel is connected twice. Between the two
it shakes hands. -/
def connectingTwice : List Move :=
  armingMoves firstRival 5 ++
    [.call (.dispatch remoteProgramsChannel (.handshake ⟨0⟩)),
      .resume 2, .answer 2 (.ok ()), .resume 2, .answer 2 (.ok ()),
      .resume 2, .answer 2 (.ok ()), .resume 2, .answer 2 (.ok ()), .resume 2,
      .call (.connect remoteProgramsChannel 6), .resume 3, .resume 3]

/-- A handshake for the older context. -/
def strayHandshake : List Move :=
  [.call (.call 0 (.dispatch (.handshake ⟨0⟩))),
    .resume 4, .answer 4 (.ok ()), .resume 4, .answer 4 (.ok ()),
    .resume 4, .answer 4 (.ok ()), .resume 4, .answer 4 (.ok ()), .resume 4]

/-- The older context has lost its name and goes on running, so there are two contexts of the name
that have not ended, and the older one answers another handshake with all records of the opening. -/
theorem displaced_running :
    let start : Machine := .ofRegistry { available := [remoteProgramsChannel] }
    let m := (start.run connectingTwice).1
    start.completions [] connectingTwice
        = [(.loadRemotePrograms firstRival, .ok (.flag true)),
          (.connect remoteProgramsChannel 5, .ok (.context 0)),
          (.dispatch remoteProgramsChannel (.handshake ⟨0⟩), .ok .done),
          (.connect remoteProgramsChannel 6, .ok (.context 1))] ∧
      m.registry.channel? remoteProgramsChannel = some 1 ∧
      (m.registry.context? 0).map Context.phase = some .running ∧
      (m.registry.context? 1).map Context.phase = some .awaitingHandshake ∧
      (m.run strayHandshake).2
        = (firstRival.settings.opening.map fun order => .contact 4 (.send 0 5 order))
          ++ [.returned 4 (.ok .done)] :=
  ⟨rfl, rfl, rfl, rfl, rfl⟩

/-- The older context has not ended, so the name was handed over. -/
theorem displaced_terminated_twice :
    (Machine.ofRegistry { available := [remoteProgramsChannel] }).HandedOver
      remoteProgramsChannel 0 connectingTwice := by
  obtain ⟨hsettled, -⟩ :=
    displaced_terminated [remoteProgramsChannel] connectingTwice (by decide)
  have hconnected : (.connect remoteProgramsChannel 5, .ok (.context 0))
      ∈ (Machine.ofRegistry { available := [remoteProgramsChannel] }).completions []
        connectingTwice := .tail _ (.head _)
  refine (hsettled remoteProgramsChannel 0 ⟨5, hconnected⟩ (by decide)).resolve_left ?_
  rintro ⟨context, hcontext, hended⟩
  cases hcontext
  cases hended

end Twice

end RemotePrograms

import RemotePrograms.Proofs.Channel.Handshake
import RemotePrograms.Stream.Service

/-!
# `RemotePrograms.Proofs.Stream.Verdict`: what a list of orders comes to

Nothing here runs a channel. `react` says for one order what a connected channel makes of it: the
phase afterwards, the PDUs that get into the queue, the ends of sessions, and the failure, if it is
one. `judge` goes through the orders of a whole stream with it, up to the first order that is not
handled.

The closed form is `judge_eq`. It cuts the orders at the first report of failure: in front of it
every handshake is answered in full, and behind it none is.
-/

set_option autoImplicit false

namespace RemotePrograms

/-! ### The answer to a handshake -/

/-- What becomes of orders that are sent one after another while the queue is read: the PDUs that
get into it, and whether something stopped them. -/
def ClientOrder.encodeAll : List ClientOrder → Except Error Unit × List Bytes
  | [] => (.ok (), [])
  | order :: left =>
    match order.encode with
    | .ok pdus => ((encodeAll left).1, pdus ++ (encodeAll left).2)
    | .error cause => (.error cause, [])

/-- What becomes of the answer to a handshake. -/
def Settings.answer (s : Settings) : Except Error Unit × List Bytes :=
  ClientOrder.encodeAll s.opening

/-- The three texts of a launch fit into their fields. -/
structure Settings.Fits (s : Settings) : Prop where
  program : (Text.Utf16.encode s.program).length ≤ maxPathSize
  workingDir : (Text.Utf16.encode s.workingDir).length ≤ maxPathSize
  arguments : (Text.Utf16.encode s.arguments).length ≤ maxArgumentsSize

/-- The first text of a launch that does not fit, as it is reported. -/
inductive Settings.Exceeds (s : Settings) : Error → Prop where
  | program : maxPathSize < (Text.Utf16.encode s.program).length →
      Exceeds s (.tooLong "program" (Text.Utf16.encode s.program).length maxPathSize)
  | workingDir : (Text.Utf16.encode s.program).length ≤ maxPathSize →
      maxPathSize < (Text.Utf16.encode s.workingDir).length →
      Exceeds s (.tooLong "working directory" (Text.Utf16.encode s.workingDir).length maxPathSize)
  | arguments : (Text.Utf16.encode s.program).length ≤ maxPathSize →
      (Text.Utf16.encode s.workingDir).length ≤ maxPathSize →
      maxArgumentsSize < (Text.Utf16.encode s.arguments).length →
      Exceeds s (.tooLong "arguments" (Text.Utf16.encode s.arguments).length maxArgumentsSize)

namespace Settings

/-- The PDUs of the system parameters, one for each. -/
def desktop (s : Settings) : List Bytes :=
  [framed OrderType.systemParameters.wire (le32 0x43 ++ (le32 0x7E ++ le32 2 ++ [] ++ [0, 0])),
    framed OrderType.systemParameters.wire (le32 0x21 ++ [0]),
    framed OrderType.systemParameters.wire (le32 0x45 ++ [0]),
    framed OrderType.systemParameters.wire (le32 0x25 ++ [0]),
    framed OrderType.systemParameters.wire (le32 0x100B ++ [0]),
    framed OrderType.systemParameters.wire
      (le32 0x2F ++ (le16 0 ++ le16 0 ++ le16 s.width ++ le16 s.height))]

/-- The PDUs in front of the launch. -/
def preamble (s : Settings) : List Bytes :=
  [Handshake.client.encode, ({} : ClientStatus).encode] ++ s.desktop

/-- The PDU of the launch, when its texts fit. -/
def launchPdu (s : Settings) : Bytes :=
  framed OrderType.launch.wire
    (le16 LaunchFlags.expandArguments.bits ++ sizeField (Text.Utf16.encode s.program)
      ++ sizeField (Text.Utf16.encode s.workingDir) ++ sizeField (Text.Utf16.encode s.arguments)
      ++ Text.Utf16.encode s.program ++ Text.Utf16.encode s.workingDir
      ++ Text.Utf16.encode s.arguments)

/-- The system parameters of a desktop are written as its PDUs. -/
private theorem encode_ofDesktop (s : Settings) :
    (ClientOrder.systemParameters (.ofDesktop s.width s.height)).encode = .ok s.desktop := by
  -- A desktop has all the parameters there are.
  have hall : (SystemParameters.ofDesktop s.width s.height).fields = Parameter.all := by
    have hselects : ∀ p ∈ Parameter.all, ParameterMask.all.selects p.mask = true := by decide
    exact List.filter_eq_self.mpr hselects
  show SystemParameters.encode _ = _
  unfold SystemParameters.encode
  rw [hall]
  rfl

/-- The launch goes into one PDU if its texts fit. -/
private theorem encode_launch (s : Settings) :
    (s.Fits ∧ Launch.encode ⟨.expandArguments, s.program, s.workingDir, s.arguments⟩
      = .ok s.launchPdu) ∨
    ∃ cause, s.Exceeds cause ∧
      Launch.encode ⟨.expandArguments, s.program, s.workingDir, s.arguments⟩ = .error cause := by
  -- The texts are checked in this order, and the first that is too long is reported.
  unfold Launch.encode boundedText
  by_cases hprogram : (Text.Utf16.encode s.program).length ≤ maxPathSize
  · by_cases hworkingDir : (Text.Utf16.encode s.workingDir).length ≤ maxPathSize
    · by_cases harguments : (Text.Utf16.encode s.arguments).length ≤ maxArgumentsSize
      · refine .inl ⟨⟨hprogram, hworkingDir, harguments⟩, ?_⟩
        simp only [if_pos hprogram, if_pos hworkingDir, if_pos harguments]
        rfl
      · refine .inr ⟨_, .arguments hprogram hworkingDir (Nat.lt_of_not_le harguments), ?_⟩
        simp only [if_pos hprogram, if_pos hworkingDir, if_neg harguments]
        rfl
    · refine .inr ⟨_, .workingDir hprogram (Nat.lt_of_not_le hworkingDir), ?_⟩
      simp only [if_pos hprogram, if_neg hworkingDir]
      rfl
  · refine .inr ⟨_, .program (Nat.lt_of_not_le hprogram), ?_⟩
    simp only [if_neg hprogram]
    rfl

/-- The answer to a handshake goes into the queue in full, or up to the launch. -/
theorem answer_cases (s : Settings) :
    (s.Fits ∧ s.answer = (.ok (), s.preamble ++ [s.launchPdu])) ∨
      ∃ cause, s.Exceeds cause ∧ s.answer = (.error cause, s.preamble) := by
  -- The records in front of the launch cannot fail.
  have hopening : s.answer
      = ((ClientOrder.encodeAll [.launch ⟨.expandArguments, s.program, s.workingDir,
            s.arguments⟩]).1,
          s.preamble ++ (ClientOrder.encodeAll [.launch ⟨.expandArguments, s.program,
            s.workingDir, s.arguments⟩]).2) := by
    unfold answer opening
    rw [ClientOrder.encodeAll, ClientOrder.encodeAll, ClientOrder.encodeAll, encode_ofDesktop]
    rfl
  obtain ⟨hfits, hlaunch⟩ | ⟨cause, hexceeds, hlaunch⟩ := s.encode_launch
  · refine .inl ⟨hfits, ?_⟩
    rw [hopening]
    simp only [ClientOrder.encodeAll, ClientOrder.encode, hlaunch, Except.map, List.append_nil]
  · refine .inr ⟨cause, hexceeds, ?_⟩
    rw [hopening]
    simp only [ClientOrder.encodeAll, ClientOrder.encode, hlaunch, Except.map, List.append_nil]

/-- A text that is reported as too long does not fit. -/
theorem Exceeds.not_fits {s : Settings} {cause : Error} (h : s.Exceeds cause) : ¬ s.Fits := by
  intro hfits
  cases h with
  | program hlong => exact Nat.lt_irrefl _ (Nat.lt_of_lt_of_le hlong hfits.program)
  | workingDir _ hlong => exact Nat.lt_irrefl _ (Nat.lt_of_lt_of_le hlong hfits.workingDir)
  | arguments _ _ hlong => exact Nat.lt_irrefl _ (Nat.lt_of_lt_of_le hlong hfits.arguments)

end Settings

/-! ### One order -/

/-- The report that a program could not be executed. -/
def ServerOrder.isFailure (order : ServerOrder) : Bool :=
  order.ending?.isSome

/-- A report is one of failure unless its result is success. -/
@[simp] theorem ServerOrder.isFailure_launchReport (report : LaunchReport) :
    (ServerOrder.launchReport report).isFailure = !report.result.isSuccess := by
  show (if report.result.isSuccess = true then none else some Ending.failed).isSome = _
  cases report.result.isSuccess with
  | true => rfl
  | false => rfl

/-- An order is a handshake, a report of failure, or of no consequence. -/
theorem ServerOrder.kind_cases (order : ServerOrder) :
    (order.isHandshake = true ∧ order.isFailure = false) ∨
    (order.isHandshake = false ∧ order.isFailure = true) ∨
    (order.isHandshake = false ∧ order.isFailure = false) := by
  cases order with
  | handshake order => exact .inl ⟨rfl, rfl⟩
  | extendedHandshake order => exact .inl ⟨rfl, rfl⟩
  | launchReport report =>
    cases hfailure : (ServerOrder.launchReport report).isFailure with
    | true => exact .inr (.inl ⟨rfl, rfl⟩)
    | false => exact .inr (.inr ⟨rfl, rfl⟩)
  | other type body => exact .inr (.inr ⟨rfl, rfl⟩)

/-- How a session is ended when its program could not be executed. -/
def Session.launchFailure (session : Session) : Abort :=
  ⟨session.id, .peerUnavailable, launchFailedMessage⟩

/-- What a channel makes of an order. -/
structure Reaction where
  phase : Phase
  pdus : List Bytes := []
  aborts : List Abort := []
  result : Except Error Unit := .ok ()

/-- What a channel in this phase makes of a handshake. -/
def reactToHandshake (session : Session) (phase : Phase) : Reaction :=
  match phase.beginHandshake with
  | .error cause => { phase, result := .error cause }
  | .ok _ =>
    match session.settings.answer with
    | (.ok (), pdus) => { phase := .running, pdus }
    | (.error cause, pdus) => { phase := .failed, pdus, result := .error cause }

/-- What a channel in this phase makes of an order. -/
def react (session : Session) (phase : Phase) : ServerOrder → Reaction
  | .handshake _ | .extendedHandshake _ => reactToHandshake session phase
  | .launchReport report =>
    if report.result.isSuccess then { phase }
    else { phase := .failed, aborts := [session.launchFailure] }
  | .other _ _ => { phase }

/-- Both kinds of handshake are answered alike. -/
theorem react_of_isHandshake {order : ServerOrder} (h : order.isHandshake = true)
    (session : Session) (phase : Phase) :
    react session phase order = reactToHandshake session phase := by
  cases order with
  | handshake order => rfl
  | extendedHandshake order => rfl
  | _ => cases h

/-- A handshake ends no session. -/
theorem aborts_reactToHandshake (session : Session) (phase : Phase) :
    (reactToHandshake session phase).aborts = [] := by
  unfold reactToHandshake
  split
  · rfl
  · split
    · rfl
    · rfl

/-- A report of failure fails the channel and ends the session once. -/
theorem react_of_isFailure {order : ServerOrder} (h : order.isFailure = true)
    (session : Session) (phase : Phase) :
    react session phase order = { phase := .failed, aborts := [session.launchFailure] } := by
  cases order with
  | launchReport report =>
    have hfailure : report.result.isSuccess = false := by simpa using h
    simp only [react, hfailure, Bool.false_eq_true, if_false]
  | _ => cases h

/-- Any other order leaves the channel as it is. -/
theorem react_of_other {order : ServerOrder} (hhandshake : order.isHandshake = false)
    (hfailure : order.isFailure = false) (session : Session) (phase : Phase) :
    react session phase order = { phase } := by
  cases order with
  | handshake order => cases hhandshake
  | extendedHandshake order => cases hhandshake
  | launchReport report =>
    have hsuccess : report.result.isSuccess = true := by simpa using hfailure
    simp only [react, hsuccess, if_true]
  | other type body => rfl

/-- No order puts more into the queue than the answer to a handshake. -/
theorem length_pdus_react (session : Session) (phase : Phase) (order : ServerOrder) :
    (react session phase order).pdus.length ≤ session.settings.answer.2.length := by
  obtain ⟨hhandshake, -⟩ | ⟨-, hfailure⟩ | ⟨hhandshake, hfailure⟩ := order.kind_cases
  · rw [react_of_isHandshake hhandshake]
    unfold reactToHandshake
    cases phase.beginHandshake with
    | error cause => exact Nat.zero_le _
    | ok phase' =>
      obtain ⟨outcome, pdus⟩ := session.settings.answer
      cases outcome with
      | ok value => exact Nat.le_refl _
      | error cause => exact Nat.le_refl _
  · rw [react_of_isFailure hfailure]
    exact Nat.zero_le _
  · rw [react_of_other hhandshake hfailure]
    exact Nat.zero_le _

/-! ### A list of orders -/

/-- What the orders of a stream come to. -/
structure Verdict where
  phase : Phase
  pdus : List Bytes
  aborts : List Abort
  outcome : Except Error Unit
  /-- Whether all that was queued is written before the end. -/
  drains : Bool

/-- A verdict on orders behind one that had this effect. -/
def Verdict.behind (pdus : List Bytes) (aborts : List Abort) (v : Verdict) : Verdict :=
  { v with pdus := pdus ++ v.pdus, aborts := aborts ++ v.aborts }

/-- What the orders of a stream come to, for a channel in this phase and a stream with this end. -/
def judge (session : Session) (ending : Except Error Unit) : Phase → List ServerOrder → Verdict
  | phase, [] => ⟨phase, [], [], ending, ending.isOk⟩
  | phase, order :: orders =>
    match (react session phase order).result with
    | .ok () =>
      (judge session ending (react session phase order).phase orders).behind
        (react session phase order).pdus (react session phase order).aborts
    | .error cause =>
      ⟨(react session phase order).phase, (react session phase order).pdus,
        (react session phase order).aborts, .error cause, true⟩

/-- The failure with which a handshake is refused. -/
def handshakeRefused : Error :=
  .notAllowed "cannot handshake: channel not awaiting a handshake"

/-- The ends of the session that the reports among some orders bring. -/
def Session.failures (session : Session) (orders : List ServerOrder) : List Abort :=
  List.replicate (orders.countP (·.isFailure)) session.launchFailure

section Judge

variable {session : Session} {ending : Except Error Unit}

/-- A report of failure ends the session before what comes behind it. -/
theorem Session.failures_cons_of_isFailure {order : ServerOrder} (h : order.isFailure = true)
    (orders : List ServerOrder) :
    session.failures (order :: orders) = session.launchFailure :: session.failures orders := by
  unfold failures
  rw [List.countP_cons_of_pos h, List.replicate_succ]

/-- An order that reports no failure ends no session. -/
theorem Session.failures_cons_of_not {order : ServerOrder} (h : order.isFailure = false)
    (orders : List ServerOrder) :
    session.failures (order :: orders) = session.failures orders := by
  unfold failures
  rw [List.countP_cons_of_neg (by simp [h])]

/-- After a report of failure the first handshake is the end, and only reports have an effect in
front of it. -/
theorem judge_failed (orders : List ServerOrder) :
    judge session ending .failed orders =
      { phase := .failed
        pdus := []
        aborts := session.failures (orders.takeWhile (!·.isHandshake))
        outcome := if orders.any (·.isHandshake) then .error handshakeRefused else ending
        drains := orders.any (·.isHandshake) || ending.isOk } := by
  induction orders with
  | nil => rfl
  | cons order orders ih =>
    -- A handshake is refused here, a failure ends the session once more, the rest is nothing.
    obtain ⟨hhandshake, -⟩ | ⟨hnot, hfailure⟩ | ⟨hnot, hfailure⟩ := order.kind_cases
    · rw [judge, react_of_isHandshake hhandshake, List.takeWhile_cons_of_neg (by simp [hhandshake]),
        List.any_cons, hhandshake]
      rfl
    · rw [List.takeWhile_cons_of_pos (by simp [hnot]), List.any_cons, hnot, Bool.false_or, judge,
        react_of_isFailure hfailure, Session.failures_cons_of_isFailure hfailure]
      simp only [ih]
      rfl
    · rw [List.takeWhile_cons_of_pos (by simp [hnot]), List.any_cons, hnot, Bool.false_or, judge,
        react_of_other hnot hfailure, Session.failures_cons_of_not hfailure]
      simp only [ih]
      rfl

/-- A channel that waits for a handshake or is running answers one with its opening. -/
theorem reactToHandshake_of_going {phase : Phase}
    (hphase : phase = .awaitingHandshake ∨ phase = .running) :
    reactToHandshake session phase
      = match session.settings.answer with
        | (.ok (), pdus) => { phase := .running, pdus }
        | (.error cause, pdus) => { phase := .failed, pdus, result := .error cause } := by
  obtain rfl | rfl := hphase
  · rfl
  · rfl

/-- What the orders of a stream come to, when every handshake in front of the first report of
failure is answered in full, or there is none. -/
theorem judge_eq {phase : Phase} (hphase : phase = .awaitingHandshake ∨ phase = .running)
    (orders : List ServerOrder)
    (h : session.settings.answer.1 = .ok () ∨
      (orders.takeWhile (!·.isFailure)).any (·.isHandshake) = false) :
    judge session ending phase orders =
      { phase :=
          if (orders.dropWhile (!·.isFailure)).isEmpty then
            if (orders.takeWhile (!·.isFailure)).any (·.isHandshake) then .running else phase
          else .failed
        pdus := (List.replicate ((orders.takeWhile (!·.isFailure)).countP (·.isHandshake))
          session.settings.answer.2).flatten
        aborts := session.failures
          ((orders.dropWhile (!·.isFailure)).takeWhile (!·.isHandshake))
        outcome :=
          if (orders.dropWhile (!·.isFailure)).any (·.isHandshake) then .error handshakeRefused
          else ending
        drains :=
          (orders.dropWhile (!·.isFailure)).any (·.isHandshake) || ending.isOk } := by
  induction orders generalizing phase with
  | nil => rfl
  | cons order orders ih =>
    obtain ⟨hhandshake, hfailure⟩ | ⟨hnot, hfailure⟩ | ⟨hnot, hfailure⟩ := order.kind_cases
    · -- This handshake is answered in full, and the channel runs behind it.
      rw [List.takeWhile_cons_of_pos (by simp [hfailure])] at h ⊢
      rw [List.dropWhile_cons_of_pos (by simp [hfailure]), judge]
      have hok : session.settings.answer.1 = .ok () := by
        refine h.resolve_right ?_
        rw [List.any_cons, hhandshake, Bool.true_or]
        simp
      have hanswer : session.settings.answer = (.ok (), session.settings.answer.2) := by
        rw [← hok]
      rw [react_of_isHandshake hhandshake, reactToHandshake_of_going hphase, hanswer]
      simp only [ih (.inr rfl) (.inl hok), ite_self]
      rw [List.any_cons, hhandshake, Bool.true_or, List.countP_cons_of_pos hhandshake,
        List.replicate_succ, List.flatten_cons]
      rfl
    · -- The orders are cut here, and the rest of them finds a failed channel.
      rw [List.takeWhile_cons_of_neg (by simp [hfailure]),
        List.dropWhile_cons_of_neg (by simp [hfailure]),
        List.takeWhile_cons_of_pos (by simp [hnot]), List.any_cons, hnot, Bool.false_or, judge,
        react_of_isFailure hfailure, Session.failures_cons_of_isFailure hfailure]
      simp only [judge_failed]
      rfl
    · rw [List.takeWhile_cons_of_pos (by simp [hfailure]), List.any_cons, hnot,
        Bool.false_or] at h ⊢
      rw [List.dropWhile_cons_of_pos (by simp [hfailure]), judge, react_of_other hnot hfailure,
        List.countP_cons_of_neg (by simp [hnot])]
      simp only [ih hphase h]
      rfl

/-- When the answer to a handshake does not go into the queue in full, the first handshake in front
of a report of failure is the end. -/
theorem judge_broken {phase : Phase} (hphase : phase = .awaitingHandshake ∨ phase = .running)
    (orders : List ServerOrder) {cause : Error} {pdus : List Bytes}
    (hanswer : session.settings.answer = (.error cause, pdus))
    (h : (orders.takeWhile (!·.isFailure)).any (·.isHandshake) = true) :
    judge session ending phase orders = ⟨.failed, pdus, [], .error cause, true⟩ := by
  induction orders with
  | nil => cases h
  | cons order orders ih =>
    obtain ⟨hhandshake, -⟩ | ⟨-, hfailure⟩ | ⟨hnot, hfailure⟩ := order.kind_cases
    · rw [judge, react_of_isHandshake hhandshake, reactToHandshake_of_going hphase, hanswer]
    · -- No handshake stands in front of this report.
      rw [List.takeWhile_cons_of_neg (by simp [hfailure])] at h
      cases h
    · rw [List.takeWhile_cons_of_pos (by simp [hfailure]), List.any_cons, hnot, Bool.false_or] at h
      rw [judge, react_of_other hnot hfailure]
      simp only [ih h]
      rfl

end Judge

end RemotePrograms

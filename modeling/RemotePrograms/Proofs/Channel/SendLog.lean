import RemotePrograms.Proofs.Channel.Journal

/-!
# `RemotePrograms.Proofs.Channel.SendLog`: the grammar of the records that are sent

Whatever else happens on the channels meanwhile, the records sent on one context are whole
openings, one after another, and then perhaps the beginning of one more. The settings of the
attached session determine every one of them, and only the last attempt can be without success.

The invariant is `Journal.Kept`. It splits the attempts on a context into complete openings and
a tail, and `Journal.Tail` ties the tail to the state: nothing, the opening that is under way, or
what is left of one that failed. After a failure the phase of the context lets no further opening
begin, so that a broken tail stays the last.
-/

set_option autoImplicit false

namespace RemotePrograms

/-- The opening that a handshake on this context would begin. -/
structure Opening.Suits (o : Opening) (context : Context) : Prop where
  transport_eq : o.transport = context.transport
  session_eq : context.session = some o.session
  guarded_eq : o.guarded = true

/-- The phase of a context plays no part in which opening suits it. -/
theorem Opening.Suits.withPhase {o : Opening} {context : Context} (h : o.Suits context)
    (phase : Phase) : o.Suits { context with phase } :=
  ⟨h.transport_eq, h.session_eq, h.guarded_eq⟩

namespace Journal

/-- The attempts since the last complete opening on a context. -/
inductive Tail (j : Journal) (o : Opening) (context : Context) : List Attempt → Prop where
  | resting :
      (∀ id activity o', o'.context = o.context → ¬ j.machine.Opens id activity o') →
      Tail j o context []
  | going {id : ActivityId} {activity : Activity} {attempts : List Attempt} :
      j.machine.Opens id activity o → activity.Follows id o attempts →
      Tail j o context attempts
  | broken {id : ActivityId} {sent left : List ClientOrder} {order : ClientOrder}
      {cause : Error} :
      (∀ id activity o', o'.context = o.context → ¬ j.machine.Opens id activity o') →
      context.phase = .failed → o.session.settings.opening = sent ++ order :: left →
      Tail j o context (o.sent id sent ++ [o.attempt id (some (.error cause)) order])

variable {j : Journal} {move : Move} {c : ContextId}

/-- A tail waits for a reply only if a record of its opening is with the transport. -/
private theorem Tail.of_reply_none {o : Opening} {context : Context} {tail : List Attempt}
    (h : j.Tail o context tail) {attempt : Attempt} (hmem : attempt ∈ tail)
    (hnone : attempt.reply = none) :
    ∃ activity, j.machine.Opens attempt.activity activity o ∧ activity.isOutside = true := by
  cases h with
  | resting => cases hmem
  | going ho hfollows =>
    obtain ⟨rfl, hout⟩ := hfollows.of_reply_none hmem hnone
    exact ⟨_, ho, hout⟩
  | broken =>
    obtain hmem | hmem := List.mem_append.mp hmem
    · rw [Opening.reply_of_mem_sent hmem] at hnone
      cases hnone
    · rw [List.mem_singleton.mp hmem] at hnone
      cases hnone

end Journal

/-! ### The grammar -/

end RemotePrograms

import RemotePrograms.Order.Framing

/-!
# `RemotePrograms.Scenario.Cutting`: scripts for cutting a stream

Octets are put on a stream that is read and on one that is written, and orders are taken off the
first one, as long as it goes on or as at its end. The report on a step says what the step gave
back and what both streams hold.
-/

set_option autoImplicit false

namespace RemotePrograms.Scenario

/-- One step of a script for cutting a stream. -/
inductive CutStep where
  | feed (octets : Bytes)
  | decode
  | decodeEnd
  | encode (octets : Bytes)

/-- What a step of such a script came to. -/
structure CutReport where
  /-- The order or the failure that decoding gave, or nothing if it waits; no answer from a step
  that does not decode. -/
  result : Option (Except Error (Option ServerOrder))
  buffered : Bytes
  encoded : Bytes

/-- What a step comes to on streams that hold these octets. -/
def CutStep.apply (inbound outbound : Bytes) : CutStep → CutReport
  | feed octets => ⟨none, inbound ++ octets, outbound⟩
  | decode => ⟨some (nextOrder inbound).outcome, (nextOrder inbound).rest inbound, outbound⟩
  | decodeEnd => ⟨some (lastOrder inbound).outcome, (lastOrder inbound).rest inbound, outbound⟩
  | encode octets => ⟨none, inbound, outbound ++ octets⟩

/-- Plays a script on streams that hold these octets. -/
def cut (inbound outbound : Bytes) : List CutStep → List CutReport
  | [] => []
  | step :: later =>
    let report := step.apply inbound outbound
    report :: cut report.buffered report.encoded later

end RemotePrograms.Scenario

import RemotePrograms.Order.Basic
import RemotePrograms.Text.Quoted

/-!
# `RemotePrograms.Error`: what can go wrong

An `Error` is a cause with the figures that belong to it. `Error.message` is the one place that
puts a cause into words, and `Error.status` the one place that turns it into the status which
the host of the channel is told: a transport's own code, or `internalError`.
-/

set_option autoImplicit false

namespace RemotePrograms

/-- Why an operation failed. -/
inductive Error where
  /-- Fewer octets than a part of an order takes. -/
  | truncated (what : String) (needed available : Nat)
  /-- An announced length that does not even hold the header. -/
  | badLength (length : Nat)
  /-- A text whose octets exceed the limit of its field. -/
  | tooLong (field : String) (size max : Nat)
  /-- Octets that should spell a text and do not. -/
  | badText (what : String)
  /-- A transport that did not take an order. -/
  | sendFailed (order : OrderType) (code : UInt32)
  /-- A failure of the byte stream below the channel. -/
  | streamFailed (text : String)
  /-- A channel that is not there. -/
  | noChannel (name : String)
  /-- An event that the state of the channel does not allow. -/
  | notAllowed (text : String)
  /-- Support for a channel that the host does not have. -/
  | unsupported (name : String)
  deriving DecidableEq, Repr

namespace Error

/-- The status for every failure that has no code of its own. -/
def internalError : UInt32 := 0x54F

/-- The failure in words. -/
def message : Error → String
  | truncated what needed available => s!"truncated {what}: need {needed} bytes, have {available}"
  | badLength length => s!"invalid order length: {length}"
  | tooLong field size max => s!"{field} too long: {size} bytes (max {max})"
  | badText what => s!"invalid utf-16 in {what}"
  | sendFailed order code =>
    s!"{order.name} send failed with channel status 0x{Text.hexadecimal code.toNat}"
  | streamFailed text => s!"connection error: {text}"
  | noChannel name => s!"unknown channel: {name}"
  | notAllowed text => s!"protocol violation: {text}"
  | unsupported name => s!"plugin {name} could not be loaded"

/-- The status that the host of the channel is told. -/
def status : Error → UInt32
  | sendFailed _ code => code
  | _ => internalError

end Error

end RemotePrograms

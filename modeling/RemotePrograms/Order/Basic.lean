import RemotePrograms.Bytes
import RemotePrograms.Order.Flags

/-!
# `RemotePrograms.Order.Basic`: the orders of the channel

Client and server exchange orders. Each one has a type, a 16-bit number on the wire. The server
opens with a handshake, plain or extended. The client answers with its own handshake, its
status, the system parameters of its desktop and the program to execute, and the server reports
with a `LaunchReport` how that went. `ClientOrder` holds what a client sends, `ServerOrder`
what it receives. The types that only a client sends, and all the types that have no meaning
here, reach a client as `ServerOrder.other`.
-/

set_option autoImplicit false

namespace RemotePrograms

/-- The order types that have a meaning here. -/
inductive OrderType where
  | launch
  | systemParameters
  | handshake
  | clientStatus
  | extendedHandshake
  | launchReport
  deriving DecidableEq, Repr

namespace OrderType

/-- The number of an order type in an order's header. -/
def wire : OrderType → UInt16
  | launch => 0x0001
  | systemParameters => 0x0003
  | handshake => 0x0005
  | clientStatus => 0x000B
  | extendedHandshake => 0x0013
  | launchReport => 0x0080

/-- Every order type, in the order of the numbers on the wire. -/
def all : List OrderType :=
  [launch, systemParameters, handshake, clientStatus, extendedHandshake, launchReport]

/-- The order type with this number, if there is one. -/
def ofWire? (n : UInt16) : Option OrderType :=
  all.find? fun t => t.wire == n

/-- The name of an order type in messages. -/
def name : OrderType → String
  | launch => "Exec"
  | systemParameters => "SysParam"
  | handshake => "Handshake"
  | clientStatus => "ClientStatus"
  | extendedHandshake => "HandshakeEx"
  | launchReport => "ExecResult"

end OrderType

/-- One side says which build it runs. -/
structure Handshake where
  buildNumber : UInt32
  deriving DecidableEq, Repr

namespace Handshake

/-- The build number that a client reports. -/
def clientBuildNumber : UInt32 := 7600

/-- The handshake that a client answers with. -/
def client : Handshake := ⟨clientBuildNumber⟩

end Handshake

/-- The handshake of a server that has more to tell. -/
structure ExtendedHandshake where
  buildNumber : UInt32
  flags : ServerFeatures
  deriving DecidableEq, Repr

/-- What a client says about itself after the handshake. -/
structure ClientStatus where
  flags : ClientStatusFlags := ⟨0⟩
  deriving DecidableEq, Repr

/-- The colours of a high-contrast desktop. -/
structure HighContrast where
  flags : HighContrastFlags
  colorScheme : String
  deriving DecidableEq, Repr

/-- A rectangle on the desktop, right and bottom edges not included. -/
structure Rect where
  left : UInt16
  top : UInt16
  right : UInt16
  bottom : UInt16
  deriving DecidableEq, Repr

/-- The system parameters of a desktop. Only those that `params` selects are sent. -/
structure SystemParameters where
  params : ParameterMask
  dragFullWindows : Bool
  keyboardCues : Bool
  keyboardPref : Bool
  mouseButtonSwap : Bool
  highContrast : HighContrast
  workArea : Rect
  deriving DecidableEq, Repr

namespace SystemParameters

/-- The parameters of a plain desktop of this size: every one is sent, high contrast is
available but off, and windows may use the whole desktop. -/
def ofDesktop (width height : UInt16) : SystemParameters where
  params := .all
  dragFullWindows := false
  keyboardCues := false
  keyboardPref := false
  mouseButtonSwap := false
  highContrast := ⟨⟨0x7E⟩, ""⟩
  workArea := ⟨0, 0, width, height⟩

end SystemParameters

/-- The program that the server is to execute. -/
structure Launch where
  flags : LaunchFlags
  program : String
  workingDir : String
  arguments : String
  deriving DecidableEq, Repr

/-- How the execution of a program went. A number without a meaning is `unknown`. A value
`unknown n` for a number that has a meaning is still a failure, and differs from what the number
reads as. -/
inductive LaunchResult where
  | ok
  | hookNotLoaded
  | decodeFailed
  | notInAllowList
  | fileNotFound
  | fail
  | sessionLocked
  | unknown (code : UInt16)
  deriving DecidableEq, Repr

namespace LaunchResult

/-- The number of a result on the wire. -/
def code : LaunchResult → UInt16
  | ok => 0
  | hookNotLoaded => 1
  | decodeFailed => 2
  | notInAllowList => 3
  | fileNotFound => 5
  | fail => 6
  | sessionLocked => 7
  | unknown n => n

/-- The results whose numbers have a meaning. -/
def named : List LaunchResult :=
  [ok, hookNotLoaded, decodeFailed, notInAllowList, fileNotFound, fail, sessionLocked]

/-- The result that a number on the wire reads as. -/
def ofCode (n : UInt16) : LaunchResult :=
  (named.find? fun r => r.code == n).getD (unknown n)

/-- Whether the program was started. -/
def isSuccess (r : LaunchResult) : Bool :=
  r == ok

/-- The name of a result in messages. -/
def name : LaunchResult → String
  | ok => "Ok"
  | hookNotLoaded => "HookNotLoaded"
  | decodeFailed => "DecodeFailed"
  | notInAllowList => "NotInAllowList"
  | fileNotFound => "FileNotFound"
  | fail => "Fail"
  | sessionLocked => "SessionLocked"
  | unknown n => s!"Unknown({n.toNat})"

end LaunchResult

/-- The server's report on a launch. -/
structure LaunchReport where
  flags : LaunchFlags
  result : LaunchResult
  rawResult : UInt32
  program : String
  deriving DecidableEq, Repr

/-- An order that a client sends. -/
inductive ClientOrder where
  | handshake (order : Handshake)
  | clientStatus (order : ClientStatus)
  | systemParameters (order : SystemParameters)
  | launch (order : Launch)
  deriving DecidableEq, Repr

namespace ClientOrder

/-- The type that the order travels under. -/
def type : ClientOrder → OrderType
  | handshake _ => .handshake
  | clientStatus _ => .clientStatus
  | systemParameters _ => .systemParameters
  | launch _ => .launch

end ClientOrder

/-- An order that a client receives. -/
inductive ServerOrder where
  | handshake (order : Handshake)
  | extendedHandshake (order : ExtendedHandshake)
  | launchReport (order : LaunchReport)
  /-- An order that has no meaning for a client: its type and its body, as they came. -/
  | other (type : UInt16) (body : Bytes)
  deriving DecidableEq, Repr

end RemotePrograms

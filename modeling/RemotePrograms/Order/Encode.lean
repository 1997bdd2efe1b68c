import RemotePrograms.Error
import RemotePrograms.Text.Utf16

/-!
# `RemotePrograms.Order.Encode`: orders as octets

A PDU is one order on the wire: its type and its whole length, 16 bits each, and then its body.
`framed` puts the header in front of a body, and the `encode` functions write the bodies. Texts
are UTF-16 and bounded: `boundedText` gives the octets of a text or says how far it exceeds its
field. Of the orders only system parameters are several PDUs, one for each parameter that is
selected, in an order of their own (`SystemParameters.fields`); nothing is written if one of them
does not fit.
-/

set_option autoImplicit false

namespace RemotePrograms

/-- The octets of an order's header. -/
def headerSize : Nat := 4

/-- The greatest length that a header can announce. -/
def maxOrderLength : Nat := 0xFFFF

/-- The greatest size in octets of a program's path and of a working directory. -/
def maxPathSize : Nat := 520

/-- The greatest size in octets of a program's arguments. -/
def maxArgumentsSize : Nat := 16000

/-- The greatest size in octets of a colour scheme, its terminator not counted. -/
def maxSchemeSize : Nat := 512

/-- The PDU of an order with this type and body. -/
def framed (type : UInt16) (body : Bytes) : Bytes :=
  le16 type ++ le16 (.ofNat (headerSize + body.length)) ++ body

/-- The octets of a text that has to fit into `max` of them. -/
def boundedText (field text : String) (max : Nat) : Except Error Bytes :=
  let octets := Text.Utf16.encode text
  if octets.length ≤ max then .ok octets else .error (.tooLong field octets.length max)

/-- The 16-bit field that says how many octets a text takes. -/
def sizeField (octets : Bytes) : Bytes :=
  le16 (.ofNat octets.length)

/-- The PDU of a handshake. -/
def Handshake.encode (order : Handshake) : Bytes :=
  framed OrderType.handshake.wire (le32 order.buildNumber)

/-- The PDU of an extended handshake. -/
def ExtendedHandshake.encode (order : ExtendedHandshake) : Bytes :=
  framed OrderType.extendedHandshake.wire (le32 order.buildNumber ++ le32 order.flags.bits)

/-- The PDU of a client's status. -/
def ClientStatus.encode (order : ClientStatus) : Bytes :=
  framed OrderType.clientStatus.wire (le32 order.flags.bits)

/-- The octets of a high-contrast setting. The scheme is closed by a NUL, and the length in
front of it counts that terminator. -/
def HighContrast.encode (setting : HighContrast) : Except Error Bytes :=
  (boundedText "color scheme" setting.colorScheme maxSchemeSize).map fun scheme =>
    le32 setting.flags.bits ++ le32 (.ofNat (scheme.length + 2)) ++ scheme ++ [0, 0]

/-- The octets of a rectangle, its edges in the order left, top, right, bottom. -/
def Rect.encode (rect : Rect) : Bytes :=
  le16 rect.left ++ le16 rect.top ++ le16 rect.right ++ le16 rect.bottom

/-- The octet of a switch. -/
def encodeSwitch (on : Bool) : Bytes :=
  [if on then 1 else 0]

/-- One system parameter. -/
inductive Parameter where
  | highContrast
  | mouseButtonSwap
  | keyboardPref
  | dragFullWindows
  | keyboardCues
  | workArea
  deriving DecidableEq, Repr

namespace Parameter

/-- The parameters in the order in which they are sent. -/
def all : List Parameter :=
  [highContrast, mouseButtonSwap, keyboardPref, dragFullWindows, keyboardCues, workArea]

/-- The number of a parameter in the body of an update. -/
def wire : Parameter → UInt32
  | highContrast => 0x0043
  | mouseButtonSwap => 0x0021
  | keyboardPref => 0x0045
  | dragFullWindows => 0x0025
  | keyboardCues => 0x100B
  | workArea => 0x002F

/-- The mask that selects a parameter and no other. -/
def mask : Parameter → ParameterMask
  | highContrast => .highContrast
  | mouseButtonSwap => .mouseButtonSwap
  | keyboardPref => .keyboardPref
  | dragFullWindows => .dragFullWindows
  | keyboardCues => .keyboardCues
  | workArea => .workArea

/-- The octets of a parameter's value in an order. -/
def encodeValue (order : SystemParameters) : Parameter → Except Error Bytes
  | highContrast => order.highContrast.encode
  | mouseButtonSwap => .ok (encodeSwitch order.mouseButtonSwap)
  | keyboardPref => .ok (encodeSwitch order.keyboardPref)
  | dragFullWindows => .ok (encodeSwitch order.dragFullWindows)
  | keyboardCues => .ok (encodeSwitch order.keyboardCues)
  | workArea => .ok order.workArea.encode

/-- The PDU that carries one parameter of an order. -/
def encode (order : SystemParameters) (param : Parameter) : Except Error Bytes :=
  (param.encodeValue order).map fun value =>
    framed OrderType.systemParameters.wire (le32 param.wire ++ value)

end Parameter

/-- The parameters that an order carries. -/
def SystemParameters.fields (order : SystemParameters) : List Parameter :=
  Parameter.all.filter fun param => order.params.selects param.mask

/-- The PDUs of an update of system parameters, one for each parameter that it carries. -/
def SystemParameters.encode (order : SystemParameters) : Except Error (List Bytes) :=
  order.fields.mapM (Parameter.encode order)

/-- The PDU of an execute order. Of several texts that do not fit the first one is reported. -/
def Launch.encode (order : Launch) : Except Error Bytes := do
  let program ← boundedText "program" order.program maxPathSize
  let workingDir ← boundedText "working directory" order.workingDir maxPathSize
  let arguments ← boundedText "arguments" order.arguments maxArgumentsSize
  return framed OrderType.launch.wire
    (le16 order.flags.bits ++ sizeField program ++ sizeField workingDir ++ sizeField arguments
      ++ program ++ workingDir ++ arguments)

/-- The PDU of a server's report. Two octets of padding stand before the program's size. -/
def LaunchReport.encode (order : LaunchReport) : Except Error Bytes := do
  let program ← boundedText "program" order.program maxPathSize
  return framed OrderType.launchReport.wire
    (le16 order.flags.bits ++ le16 order.result.code ++ le32 order.rawResult ++ le16 0
      ++ sizeField program ++ program)

/-- The PDUs of an order that a client sends. -/
def ClientOrder.encode : ClientOrder → Except Error (List Bytes)
  | handshake order => .ok [order.encode]
  | clientStatus order => .ok [order.encode]
  | systemParameters order => order.encode
  | launch order => order.encode.map fun pdu => [pdu]

/-- The PDU of an order that a server sends. No program writes an order without a meaning. Such an
order is put together here from its type and its body, so that it is known of every order which
octets it stands for. -/
def ServerOrder.encode : ServerOrder → Except Error Bytes
  | handshake order => .ok order.encode
  | extendedHandshake order => .ok order.encode
  | launchReport order => order.encode
  | other type body => .ok (framed type body)

end RemotePrograms

/-!
# `RemotePrograms.Order.Flags`: words of independent switches

An order carries several words whose bits are switches. Only some of the bits have a meaning
here. A peer may set others, and they are kept, so a word is its bits and never a set of named
switches. `Switch` gives a bit its name, and the `switches` of a word list the known ones in the
order in which the protocol defines them. `names`, `known` and `unknown` describe a word by such
a list.
-/

set_option autoImplicit false

namespace RemotePrograms

/-- A bit of a flag word, with the name that the protocol gives it. -/
structure Switch where
  name : String
  bit : UInt32
  deriving DecidableEq, Repr

namespace Switch

/-- The bits of a word that have a name in the list. -/
def known (switches : List Switch) (bits : UInt32) : UInt32 :=
  bits &&& switches.foldl (fun mask s => mask ||| s.bit) 0

/-- The bits of a word that have no name in the list. -/
def unknown (switches : List Switch) (bits : UInt32) : UInt32 :=
  bits ^^^ known switches bits

/-- The names of the switches that are on in a word, in the order of the list. -/
def names (switches : List Switch) (bits : UInt32) : List String :=
  (switches.filter fun s => bits &&& s.bit == s.bit).map Switch.name

end Switch

/-- How a desktop shows its high-contrast colours. -/
structure HighContrastFlags where
  bits : UInt32
  deriving DecidableEq, Repr

namespace HighContrastFlags

/-- The switches of a high-contrast setting. -/
def switches : List Switch :=
  [⟨"HIGH_CONTRAST_ON", 0x01⟩, ⟨"AVAILABLE", 0x02⟩, ⟨"HOTKEY_ACTIVE", 0x04⟩,
    ⟨"CONFIRM_HOTKEY", 0x08⟩, ⟨"HOTKEY_SOUND", 0x10⟩, ⟨"INDICATOR", 0x20⟩,
    ⟨"HOTKEY_AVAILABLE", 0x40⟩]

end HighContrastFlags

/-- Which system parameters an update carries. -/
structure ParameterMask where
  bits : UInt32
  deriving DecidableEq, Repr

namespace ParameterMask

def dragFullWindows : ParameterMask := ⟨0x01⟩
def keyboardCues : ParameterMask := ⟨0x02⟩
def keyboardPref : ParameterMask := ⟨0x04⟩
def mouseButtonSwap : ParameterMask := ⟨0x08⟩
def workArea : ParameterMask := ⟨0x10⟩
def highContrast : ParameterMask := ⟨0x80⟩

/-- The switches of a mask. -/
def switches : List Switch :=
  [⟨"DRAG_FULL_WINDOWS", dragFullWindows.bits⟩, ⟨"KEYBOARD_CUES", keyboardCues.bits⟩,
    ⟨"KEYBOARD_PREF", keyboardPref.bits⟩, ⟨"MOUSE_BUTTON_SWAP", mouseButtonSwap.bits⟩,
    ⟨"WORK_AREA", workArea.bits⟩, ⟨"HIGH_CONTRAST", highContrast.bits⟩]

/-- Whether every parameter of `part` is selected. -/
def selects (mask part : ParameterMask) : Bool :=
  mask.bits &&& part.bits == part.bits

/-- The mask that selects every known parameter and nothing else. -/
def all : ParameterMask :=
  ⟨Switch.known switches 0xFFFFFFFF⟩

end ParameterMask

/-- How the peer reads the texts of an execute order. -/
structure LaunchFlags where
  bits : UInt16
  deriving DecidableEq, Repr

namespace LaunchFlags

/-- The arguments hold names of variables, which the peer replaces by their values. -/
def expandArguments : LaunchFlags := ⟨0x08⟩

/-- The switches of an execute order. -/
def switches : List Switch :=
  [⟨"EXPAND_WORKING_DIRECTORY", 0x01⟩, ⟨"TRANSLATE_FILES", 0x02⟩, ⟨"FILE", 0x04⟩,
    ⟨"EXPAND_ARGUMENTS", 0x08⟩, ⟨"APP_USER_MODEL_ID", 0x10⟩]

end LaunchFlags

/-- What a client says about itself. -/
structure ClientStatusFlags where
  bits : UInt32
  deriving DecidableEq, Repr

namespace ClientStatusFlags

/-- The switches of a client's status. -/
def switches : List Switch :=
  [⟨"ALLOW_LOCAL_MOVE_SIZE", 0x001⟩, ⟨"AUTO_RECONNECT", 0x002⟩, ⟨"ZORDER_SYNC", 0x004⟩,
    ⟨"WINDOW_RESIZE_MARGIN_SUPPORTED", 0x010⟩, ⟨"HIGH_DPI_ICONS_SUPPORTED", 0x020⟩,
    ⟨"APPBAR_REMOTING_SUPPORTED", 0x040⟩, ⟨"POWER_DISPLAY_REQUEST_SUPPORTED", 0x080⟩,
    ⟨"BIDIRECTIONAL_CLOAK_SUPPORTED", 0x200⟩]

end ClientStatusFlags

/-- What a server that sends the extended handshake supports. -/
structure ServerFeatures where
  bits : UInt32
  deriving DecidableEq, Repr

namespace ServerFeatures

/-- The switches of an extended handshake. -/
def switches : List Switch :=
  [⟨"HIDEF", 0x01⟩, ⟨"EXTENDED_SPI_SUPPORTED", 0x02⟩, ⟨"SNAP_ARRANGE_SUPPORTED", 0x04⟩,
    ⟨"TEXT_SCALE_SUPPORTED", 0x08⟩, ⟨"CARET_BLINK_SUPPORTED", 0x10⟩,
    ⟨"EXTENDED_SPI_2_SUPPORTED", 0x20⟩]

end ServerFeatures

end RemotePrograms

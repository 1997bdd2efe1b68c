import RemotePrograms.Text.Quoted

/-!
# `RemotePrograms.Session`: the session that a channel works for

A `Session` is a desktop session of a client. Its `Settings` say how large the desktop is and
which program to execute on the server. A channel may end a session with an `AbortReason`. A
session also has a write lock, which keeps the records of two senders apart; who holds it is
part of the state of the channels (`RemotePrograms.Channel.Machine`), not of the session.
-/

set_option autoImplicit false

namespace RemotePrograms

/-- What a session asks of the server. -/
structure Settings where
  width : UInt16 := 1024
  height : UInt16 := 768
  program : String := ""
  workingDir : String := ""
  arguments : String := ""
  deriving DecidableEq, Repr, Inhabited

/-- Why a session is ended from outside. -/
inductive AbortReason where
  | serverError
  | peerTimeout
  | peerError
  | peerUnavailable
  deriving DecidableEq, Repr

namespace AbortReason

/-- The number of a reason. -/
def code : AbortReason → UInt16
  | serverError => 0x0200
  | peerTimeout => 0x0202
  | peerError => 0x0203
  | peerUnavailable => 0x0208

/-- A reason in words. -/
def text : AbortReason → String
  | serverError => "server error"
  | peerTimeout => "upstream timeout"
  | peerError => "upstream error"
  | peerUnavailable => "upstream unavailable"

end AbortReason

/-- What names a session. -/
abbrev SessionId := Nat

/-- A session, with the settings that it keeps for as long as it lives. -/
structure Session where
  id : SessionId
  settings : Settings
  deriving DecidableEq, Repr

namespace Session

/-- The session in diagnostics. -/
def diagnostic (session : Session) : String :=
  let s := session.settings
  "SessionContext \x7b settings: SessionSettings \x7b width: " ++ toString s.width.toNat
    ++ ", height: " ++ toString s.height.toNat
    ++ ", remote_app: " ++ Text.quoted s.program
    ++ ", remote_app_dir: " ++ Text.quoted s.workingDir
    ++ ", remote_app_args: " ++ Text.quoted s.arguments ++ " \x7d, .. \x7d"

end Session

end RemotePrograms

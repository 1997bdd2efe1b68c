import RemotePrograms.Config.Datum
import RemotePrograms.Session
import RemotePrograms.Toml.Document
import RemotePrograms.Toml.Quoted

/-!
# `RemotePrograms.Config.Basic`: the configuration of a trial

A trial is configured by a TOML file with three sections: the session it asks for, the peer it
connects to, and how much it logs. Every section and every field may be missing and has a
default. A file that cannot be read, or that has a fault anywhere, counts as a whole as missing.
`Config.render` writes a configuration as such a file.
-/

set_option autoImplicit false

namespace RemotePrograms

namespace Settings

/-- The names of the fields, in their order. -/
def fieldNames : List String :=
  ["width", "height", "remote_app", "remote_app_dir", "remote_app_args"]

/-- The settings that a value spells. -/
def ofDatum? (surplus : Bool) (value : Datum) : Option Settings := do
  let fields ← value.fields? fieldNames surplus
  let d : Settings := {}
  return {
    width := ← Datum.field? fields "width" Datum.uint16? d.width
    height := ← Datum.field? fields "height" Datum.uint16? d.height
    program := ← Datum.field? fields "remote_app" Datum.text? d.program
    workingDir := ← Datum.field? fields "remote_app_dir" Datum.text? d.workingDir
    arguments := ← Datum.field? fields "remote_app_args" Datum.text? d.arguments }

end Settings

/-- Where a trial connects to. -/
structure Network where
  peer : String := "127.0.0.1:3390"
  connectTimeout : UInt64 := 5000
  deriving DecidableEq, Repr

/-- What a trial logs. -/
structure Logging where
  level : String := "info"
  deriving DecidableEq, Repr

/-- The configuration of a trial. -/
structure Config where
  session : Settings := {}
  network : Network := {}
  logging : Logging := {}
  deriving DecidableEq, Repr

/-- The network section that a value spells. -/
def Network.ofDatum? (surplus : Bool) (value : Datum) : Option Network := do
  let fields ← value.fields? ["peer", "connect_timeout_ms"] surplus
  let d : Network := {}
  return {
    peer := ← Datum.field? fields "peer" Datum.text? d.peer
    connectTimeout := ← Datum.field? fields "connect_timeout_ms" Datum.uint64? d.connectTimeout }

/-- The logging section that a value spells. -/
def Logging.ofDatum? (surplus : Bool) (value : Datum) : Option Logging := do
  let fields ← value.fields? ["level"] surplus
  let d : Logging := {}
  return { level := ← Datum.field? fields "level" Datum.text? d.level }

namespace Config

/-- The configuration that a value spells. -/
def ofDatum? (surplus : Bool) (value : Datum) : Option Config := do
  let fields ← value.fields? ["session", "network", "logging"] surplus
  return {
    session := ← Datum.field? fields "session" (Settings.ofDatum? surplus) {}
    network := ← Datum.field? fields "network" (Network.ofDatum? surplus) {}
    logging := ← Datum.field? fields "logging" (Logging.ofDatum? surplus) {} }

/-- The configuration in a text, if the text has no fault. -/
def parse? (text : String) : Option Config :=
  (Toml.parse? text).bind (ofDatum? true)

/-- The configuration in a text. -/
def ofText (text : String) : Config :=
  (parse? text).getD {}

/-- The configuration in a file, of which there may be none. -/
def ofFile (contents : Option ByteArray) : Config :=
  ((contents.bind String.fromUTF8?).map ofText).getD {}

/-- How long to wait for a connection, in milliseconds: at least one. -/
def connectTimeout (c : Config) : UInt64 :=
  max c.network.connectTimeout 1

/-- A line that gives a field its value. -/
def renderField (name value : String) : String :=
  name ++ " = " ++ value ++ "\n"

/-- A configuration as a text. -/
def render (c : Config) : String :=
  "[session]\n"
    ++ renderField "width" (toString c.session.width.toNat)
    ++ renderField "height" (toString c.session.height.toNat)
    ++ renderField "remote_app" (Toml.quoted c.session.program)
    ++ renderField "remote_app_dir" (Toml.quoted c.session.workingDir)
    ++ renderField "remote_app_args" (Toml.quoted c.session.arguments)
    ++ "\n[network]\n"
    ++ renderField "peer" (Toml.quoted c.network.peer)
    ++ renderField "connect_timeout_ms" (toString c.network.connectTimeout.toNat)
    ++ "\n[logging]\n"
    ++ renderField "level" (Toml.quoted c.logging.level)

end Config

end RemotePrograms

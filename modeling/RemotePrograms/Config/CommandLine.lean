import RemotePrograms.Config.Basic

/-!
# `RemotePrograms.Config.CommandLine`: what a trial is started with

A command line is a list of words, read from left to right. Options with a value are the file
with the configuration, the peer and the program; a value is part of the option's word, or it is
the next word, which then must not look like an option. Each option may stand once. A request
for help ends the reading where it stands, and so does the first fault; whichever comes first
decides.

`Plan.ofWords` reads a command line, and `Request.configure` puts what the words say on top of
what the file says.
-/

set_option autoImplicit false

namespace RemotePrograms.CommandLine

/-- An option that takes a value. -/
inductive Setting where
  | config
  | peer
  | app
  deriving DecidableEq, Repr

namespace Setting

/-- The option with this long name. -/
def ofName? : String → Option Setting
  | "config" => some config
  | "peer" => some peer
  | "app" => some app
  | _ => none

/-- The option with this letter. -/
def ofLetter? : Char → Option Setting
  | 'c' => some config
  | 'p' => some peer
  | 'a' => some app
  | _ => none

/-- Whether an option takes this value. A file needs a name. -/
def takes (setting : Setting) (value : String) : Bool :=
  setting != config || !value.isEmpty

end Setting

/-- What a command line says. -/
structure Request where
  values : List (Setting × String) := []
  /-- Whether a configuration is to be printed. -/
  generate : Bool := false
  deriving DecidableEq, Repr

/-- What a command line asks for. -/
inductive Plan where
  /-- The command line has a fault. -/
  | refuse
  /-- Help is to be printed. -/
  | help
  | carryOut (request : Request)
  deriving DecidableEq, Repr

/-- One word of a command line, or its first half. -/
inductive Word where
  | help
  | generate
  /-- An option with its value. -/
  | set (setting : Setting) (value : String)
  /-- An option whose value is the next word. -/
  | await (setting : Setting)
  /-- The mark behind which no options stand. -/
  | mark
  /-- A word that means nothing here. -/
  | stray
  deriving DecidableEq, Repr

namespace Word

/-- A word that begins with two hyphens, without them. -/
def ofLong (name : List Char) : Word :=
  let key := String.ofList (name.takeWhile (· ≠ '='))
  match name.dropWhile (· ≠ '='), Setting.ofName? key with
  | _ :: value, some setting => set setting (.ofList value)
  | [], some setting => await setting
  | _ :: _, none => stray
  | [], none =>
    if key = "help" then help else if key = "gen-config" then generate else stray

/-- A word that begins with one hyphen, without it. -/
def ofShort (letter : Char) (value : List Char) : Word :=
  if letter = 'h' then help
  else
    match Setting.ofLetter? letter, value with
    | none, _ => stray
    | some setting, [] => await setting
    | some setting, '=' :: value => set setting (.ofList value)
    | some setting, value => set setting (.ofList value)

/-- What a word means. -/
def ofString (word : String) : Word :=
  match word.toList with
  | ['-', '-'] => mark
  | '-' :: '-' :: name => ofLong name
  | '-' :: letter :: value => ofShort letter value
  | _ => stray

end Word

/-- Whether a word can be the value of the option before it. -/
def isValue (word : String) : Bool :=
  word = "-" || !word.startsWith "-"

namespace Request

/-- Gives an option its value, if it takes it and has none yet. -/
def give (request : Request) (setting : Setting) (value : String) : Option Request :=
  if setting.takes value && (request.values.lookup setting).isNone then
    some { request with values := request.values ++ [(setting, value)] }
  else none

/-- The name of the file with the configuration. -/
def configFile (request : Request) : String :=
  (request.values.lookup .config).getD "rail-probe.toml"

/-- Puts what a command line says on top of a configuration. -/
def configure (request : Request) (config : Config) : Config :=
  { config with
    session :=
      { config.session with program := (request.values.lookup .app).getD config.session.program }
    network :=
      { config.network with peer := (request.values.lookup .peer).getD config.network.peer } }

end Request

/-- Reads the words that are left. -/
def read (request : Request) : List String → Plan
  | [] => .carryOut request
  | word :: words =>
    match Word.ofString word with
    | .help => .help
    | .stray => .refuse
    | .mark => if words.isEmpty then .carryOut request else .refuse
    | .generate =>
      if request.generate then .refuse else read { request with generate := true } words
    | .set setting value =>
      match request.give setting value with
      | some request => read request words
      | none => .refuse
    | .await setting =>
      match words with
      | [] => .refuse
      | value :: words =>
        if isValue value then
          match request.give setting value with
          | some request => read request words
          | none => .refuse
        else .refuse

/-- Reads a command line. -/
def Plan.ofWords (words : List String) : Plan :=
  read {} words

/-- What a trial does that cannot connect to its peer: the status it ends with, and the text that
it writes, if it writes one. -/
def Plan.unconnected : Plan → UInt32 × Option String
  | refuse => (2, none)
  | help => (0, none)
  | carryOut request =>
    if request.generate then (0, some (Config.render {} ++ "\n")) else (1, none)

end RemotePrograms.CommandLine

import RemotePrograms.Config.CommandLine

/-!
# `RemotePrograms.Main`: the command line of a trial

The program reads its command line, prints a configuration if it is asked for one, and otherwise
loads its configuration and says what it is to launch. There is no network below this program,
so no connection is ever made, and it ends as a trial does that cannot connect.
-/

set_option autoImplicit false

namespace RemotePrograms.CommandLine

/-- What the options are. -/
def usage : String :=
  "Launch a RemoteApp over a raw RAIL stream\n\n"
    ++ "Usage: rail-probe [OPTIONS]\n\nOptions:\n"
    ++ "  -c, --config <CONFIG>  [default: rail-probe.toml]\n"
    ++ "  -p, --peer <PEER>\n"
    ++ "  -a, --app <APP>\n"
    ++ "      --gen-config\n"
    ++ "  -h, --help             Print help\n"

/-- The contents of a file, if there is one. -/
def contents? (name : String) : IO (Option ByteArray) := do
  try return some (← IO.FS.readBinFile name)
  catch _ => return none

/-- Does what a command line asks for. -/
def execute (plan : Plan) : IO UInt32 := do
  let (status, output) := plan.unconnected
  match plan with
  | .refuse => IO.eprint usage
  | .help => IO.print usage
  | .carryOut request =>
    match output with
    | some text => IO.print text
    | none =>
      let config := request.configure (.ofFile (← contents? request.configFile))
      IO.eprintln ("cannot connect to " ++ config.network.peer ++ " to launch "
        ++ Text.quoted config.session.program)
  return status

end RemotePrograms.CommandLine

def main (words : List String) : IO UInt32 :=
  RemotePrograms.CommandLine.execute (.ofWords words)

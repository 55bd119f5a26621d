import SwitchBench.CommandLine.Request
import SwitchBench.Program.Run

/-!
# The command line program

Reads the settings and the journal directives, runs the program, and writes its journal. The bench
is simulated in virtual time, so that a run takes no longer than its calculation.
-/

namespace SwitchBench.CommandLine

def usage : String := "\n".intercalate
  ["Key switch actuation and edge timing bench (simulated)",
    "",
    "Usage: keypecker [OPTIONS]",
    "",
    "Options:",
    "  -c, --config <CONFIG>  Path to the configuration TOML [default: config/keypecker.toml]",
    "      --passes <N>       Number of passes, overriding the configured `check.passes`",
    "  -v, --verbose          Enable verbose logging (DEBUG level)",
    "      --json             Output logs in JSON format",
    "  -h, --help             Print help",
    "  -V, --version          Print version",
    ""]

/-- Looks at what is found under a path. -/
def readSettings (path : String) : IO SettingsFile := do
  try
    return .holding (← IO.FS.readBinFile path)
  catch
    | .noFileOrDirectory .. => return .missing
    | _ => return .unreadable

end SwitchBench.CommandLine

open SwitchBench

def main (arguments : List String) : IO UInt32 := do
  match Request.ofArguments arguments with
  | .help =>
    IO.print CommandLine.usage
    return 0
  | .version =>
    IO.println Program.versionLine
    return 0
  | .misuse =>
    IO.eprintln "error: invalid arguments, see '--help'"
    return 2
  | .run o =>
    let file ← CommandLine.readSettings o.settingsPath
    let directives := (← IO.getEnv "RUST_LOG").getD ""
    let report := Program.report file o.passes o.verbose directives []
    for e in report.entries do
      IO.println (if o.json then e.json else e.plainText)
    return report.exitCode.toUInt32

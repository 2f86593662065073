import Reconciliation.CommandLine.Arguments

/-! # Help

The texts that explain the program and its commands.
-/
namespace Reconciliation.CommandLine

def Command.summary : Command → String
  | run => "Start the engine, submit the manifest, wait for the pass and print the status"
  | check => "Resolve the manifest once without deploying anything and print the status"

def helpSummary : String :=
  "Print this message or the help of the given subcommand(s)"

def columns (rows : List (String × String)) : List String :=
  let width := (rows.map fun r => r.1.length).foldl max 0
  rows.map fun r => "  " ++ r.1 ++ String.ofList (List.replicate (width - r.1.length + 2) ' ') ++ r.2

def titled (title : String) (rows : List (String × String)) : List String :=
  if rows.isEmpty then [] else "" :: (title ++ ":") :: columns rows

def verboseRow : String := "Log at debug level"

def Topic.explanation : Topic → String
  | program => lines "Reconciles whiteboard registrations into deployed applications"
      "switchyard [OPTIONS] <COMMAND>" <|
    titled "Commands" [("run", Command.run.summary), ("check", Command.check.summary),
      ("help", helpSummary)] ++
    titled "Options" [("-v, --verbose", verboseRow), ("-h, --help", "Print help"),
      ("-V, --version", "Print version")]
  | command c => lines c.summary s!"switchyard {c.text} [OPTIONS] <MANIFEST>" <|
    titled "Arguments" [("<MANIFEST>", "Manifest that lists the registrations under `provider`")] ++
    titled "Options" [
      ("-c, --config <PATH>", "Whiteboard configuration file (defaults apply when omitted)"),
      ("    --compact", "Print the status as a single line of JSON"),
      ("-v, --verbose", verboseRow), ("-h, --help", "Print help")]
  | help => lines helpSummary "switchyard help [COMMAND]..." <|
    titled "Arguments" [("[COMMAND]...", "Print help for the subcommand(s)")]
where
  lines (summary usage : String) (sections : List String) : String :=
    String.join (([summary, "", "Usage: " ++ usage] ++ sections).map fun l => l ++ "\n")

end Reconciliation.CommandLine

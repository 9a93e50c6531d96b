import Switchboard.CommandLine

/-!
The program: reads its arguments and the configuration file, runs the command, and writes the
report.
-/

namespace Switchboard.CommandLine

/-- The arguments of the program. -/
structure Arguments where
  config : String
  command : Command

/-- Read the arguments: options first, then the command. -/
def readArguments (config : String) : List String → Option Arguments
  | "--config" :: path :: rest => readArguments path rest
  | "-c" :: path :: rest => readArguments path rest
  | "--verbose" :: rest => readArguments config rest
  | "-v" :: rest => readArguments config rest
  | ["list"] => some ⟨config, .list⟩
  | ["eval", source] => some ⟨config, .eval source⟩
  | ["eval", "--", source] => some ⟨config, .eval source⟩
  | _ => none

/-- What is found under a path. -/
def lookUp (path : String) : IO File.Content := do
  try
    let data ← IO.FS.readBinFile path
    return .bytes data.toList
  catch
    | .noFileOrDirectory .. => return .nothing
    | .inappropriateType .. => return .directory
    | _ => return .sealed

/-- Run the program on its arguments. -/
def perform (arguments : List String) : IO UInt32 := do
  match readArguments "config.json" arguments with
  | none =>
      IO.eprintln "usage: [--config FILE] (list | eval EXPRESSION)"
      return 2
  | some arguments =>
      let report := run arguments.config (← lookUp arguments.config) arguments.command
      IO.print report.out
      IO.eprint report.err
      return report.code.toUInt32

end Switchboard.CommandLine

def main (arguments : List String) : IO UInt32 :=
  Switchboard.CommandLine.perform arguments

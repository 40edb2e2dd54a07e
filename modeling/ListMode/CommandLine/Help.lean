import ListMode.CommandLine.Arguments

/-!
# Help texts of the command line
-/

namespace ListMode.CommandLine

def Topic.lines : Topic → List String
  | everything => [
      "List-mode spectroscopy acquisition",
      "",
      "Usage: spectro_daq <COMMAND>",
      "",
      "Commands:",
      "  run      Boot the configured producers and run one acquisition",
      "  drivers  List registered producer drivers",
      "  help     Print this message or the help of the given subcommand(s)",
      "",
      "Options:",
      "  -h, --help  Print help"]
  | run => [
      "Boot the configured producers and run one acquisition",
      "",
      "Usage: spectro_daq run [OPTIONS]",
      "",
      "Options:",
      "      --config <CONFIG>          Configuration file [default: config/daq.toml]",
      "      --timeout <TIMEOUT>        Run length in seconds (overrides session.timeout_secs)",
      "      --log-format <LOG_FORMAT>  Log output format: pretty, compact or json [default: compact]",
      "  -h, --help                     Print help"]
  | drivers => [
      "List registered producer drivers",
      "",
      "Usage: spectro_daq drivers",
      "",
      "Options:",
      "  -h, --help  Print help"]
  | help => [
      "Print this message or the help of the given subcommand(s)",
      "",
      "Usage: spectro_daq help [COMMAND]...",
      "",
      "Arguments:",
      "  [COMMAND]...  Print help for the subcommand(s)"]

end ListMode.CommandLine

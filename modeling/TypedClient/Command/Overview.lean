import TypedClient.Command.Arguments

/-! The texts that explain the command. -/
namespace TypedClient.Request

def versionText : String :=
  "apigen 0.1.0\n"

def overviewText : String :=
  "Typed client generator for OpenAPI documents

Usage: apigen [COMMAND]

Commands:
  generate  Generate client code from an API document
  help      Print this message or the help of the given subcommand(s)

Options:
  -h, --help     Print help
  -V, --version  Print version
"

def generateText : String :=
  "Generate client code from an API document

Usage: apigen generate [OPTIONS]

Options:
  -i, --input <FILE>     API document (`.json`, `.yaml` or `.yml`)
  -o, --output <FILE>    Output file; stdout when omitted
      --flavor <FLAVOR>  Client flavor: `fetch` or `react-query`
      --aggregate        Render all operations as one block
      --config <FILE>    Config file (default: ./apigen.toml when present)
  -h, --help             Print help
"

def helpText : String :=
  "Print this message or the help of the given subcommand(s)

Usage: apigen help [COMMAND]...

Arguments:
  [COMMAND]...  Print help for the subcommand(s)
"

end TypedClient.Request

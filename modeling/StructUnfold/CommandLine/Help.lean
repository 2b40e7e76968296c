import StructUnfold.CommandLine.Arguments

/-!
# Help on the command line

The help on a command says what it does, how it is called and which operands and options it takes.
-/

namespace StructUnfold.CommandLine

/-- A row of a help text: what is explained, and the explanation. -/
abbrev HelpRow := String × String

/-- The rows under a heading. All explanations begin in one column. -/
def helpSection (heading : String) (rows : List HelpRow) : String :=
  let width := (rows.map fun row => row.1.length).foldl max 0
  let line (row : HelpRow) : String :=
    "  " ++ row.1 ++ String.ofList (List.replicate (width - row.1.length + 2) ' ') ++ row.2 ++ "\n"
  "\n" ++ heading ++ ":\n" ++ String.join (rows.map line)

/-- The option to log more. -/
def verboseRow : HelpRow :=
  ("-v, --verbose", "")

/-- The option to ask for help. -/
def helpRow : HelpRow :=
  ("-h, --help", "Print help")

/-- The directories to scan, as an option with an explanation. -/
def rootRow (explanation : String) : HelpRow :=
  ("    --root <ROOTS>", explanation)

namespace Topic

/-- What a command does. -/
def purpose : Topic → String
  | program => "Flattens nested C/C++ struct definitions into a single indented field listing"
  | serve => "Run the language server on stdio (default)"
  | expand => "Scan the roots and print the flattened expansion of one struct"
  | symbols => "List struct and alias names matching QUERY (all when omitted)"
  | help => "Print this message or the help of the given subcommand(s)"

/-- How a command is called. -/
def usage : Topic → String
  | program => "destructify [OPTIONS] [COMMAND]"
  | serve => "destructify serve [OPTIONS]"
  | expand => "destructify expand [OPTIONS] <SYMBOL>"
  | symbols => "destructify symbols [OPTIONS] [QUERY]"
  | help => "destructify help [COMMAND]..."

/-- What else is to be said of a command. -/
def sections : Topic → String
  | program =>
    helpSection "Commands"
      [("serve", serve.purpose), ("expand", expand.purpose), ("symbols", symbols.purpose),
        ("help", help.purpose)] ++
    helpSection "Options" [verboseRow, helpRow, ("-V, --version", "Print version")]
  | serve => helpSection "Options" [("    --log-file <LOG_FILE>", ""), verboseRow, helpRow]
  | expand =>
    helpSection "Arguments" [("<SYMBOL>", "")] ++
    helpSection "Options" [
      rootRow "Directory to scan; repeatable. Defaults to the current directory",
      verboseRow,
      ("    --config <CONFIG>",
        "Settings file to use instead of the discovered `destructify.toml`"),
      ("    --output <OUTPUT>", "Write the expansion to this file instead of stdout"),
      helpRow]
  | symbols =>
    helpSection "Arguments" [("[QUERY]", "")] ++
    helpSection "Options" [rootRow "", verboseRow, helpRow]
  | help => helpSection "Arguments" [("[COMMAND]...", "Print help for the subcommand(s)")]

/-- The help on a command. -/
def text (topic : Topic) : String :=
  topic.purpose ++ "\n\nUsage: " ++ topic.usage ++ "\n" ++ topic.sections

end Topic

end StructUnfold.CommandLine

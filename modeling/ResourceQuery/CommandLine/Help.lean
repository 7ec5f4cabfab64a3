/-! The pages of help: how the program and each of its commands are called. -/

namespace ResourceQuery.CommandLine

/-- What there is a page of help about. -/
inductive Topic where
  /-- The program as a whole. -/
  | program
  | check
  | tokens
  | docs
  | doc
  /-- The command that shows the pages. -/
  | help
  deriving DecidableEq

/-- The topic of a command. -/
def Topic.ofCommand? : String → Option Topic
  | "check" => some check
  | "tokens" => some tokens
  | "docs" => some docs
  | "doc" => some doc
  | "help" => some help
  | _ => none

/-! ## Pages -/

def programPage : String :=
"RQL - A resource query language for filter predicates

Usage: rql [OPTIONS] <COMMAND>

Commands:
  check   Parse an RQL statement and print its canonical form
  tokens  Print the token stream of an RQL statement
  docs    List documentation categories
  doc     Show documentation for a specific category
  help    Print this message or the help of the given subcommand(s)

Options:
  -v, --verbose  Log parser activity to stderr (RUST_LOG overrides the level)
  -h, --help     Print help
  -V, --version  Print version
"

def checkPage : String :=
"Parse an RQL statement and print its canonical form

Usage: rql check [OPTIONS] [STATEMENT]

Arguments:
  [STATEMENT]  The RQL statement ('-' or omitted reads from stdin)

Options:
  -n, --name <NAME>  Name reported in error messages [default: root]
  -v, --verbose      Log parser activity to stderr (RUST_LOG overrides the level)
  -j, --json         Print the syntax tree as JSON
  -p, --pretty       Pretty-print JSON output
      --syntax-only  Only validate syntax, don't print the tree
  -h, --help         Print help
"

def tokensPage : String :=
"Print the token stream of an RQL statement

Usage: rql tokens [OPTIONS] [STATEMENT]

Arguments:
  [STATEMENT]  The RQL statement ('-' or omitted reads from stdin)

Options:
  -v, --verbose  Log parser activity to stderr (RUST_LOG overrides the level)
  -h, --help     Print help
"

def docsPage : String :=
"List documentation categories

Usage: rql docs [OPTIONS]

Options:
  -v, --verbose  Log parser activity to stderr (RUST_LOG overrides the level)
  -h, --help     Print help
"

def docPage : String :=
"Show documentation for a specific category

Usage: rql doc [OPTIONS] <CATEGORY>

Arguments:
  <CATEGORY>  Category name (use 'rql docs' to list categories)

Options:
  -v, --verbose  Log parser activity to stderr (RUST_LOG overrides the level)
  -h, --help     Print help
"

def helpPage : String :=
"Print this message or the help of the given subcommand(s)

Usage: rql help [COMMAND]...

Arguments:
  [COMMAND]...  Print help for the subcommand(s)
"

/-- The page about a topic. -/
def Topic.page : Topic → String
  | program => programPage
  | check => checkPage
  | tokens => tokensPage
  | docs => docsPage
  | doc => docPage
  | help => helpPage

/-- The name of the program and its version. -/
def versionLine : String := "rql 0.1.0\n"

end ResourceQuery.CommandLine

import Schemata.Command.Arguments

/-!
# What the program says about itself
-/

namespace Schemata.Command

/-- Name and version. -/
def versionLine : String := "jsv 0.1.0"

/-- How the program is used. -/
def usage : List String :=
  ["Builds schemas with inheritance and validates JSON or YAML documents against them.",
    "",
    "Usage: jsv [OPTIONS] build NAME [--pretty]",
    "       jsv [OPTIONS] validate INSTANCE|- --schema NAME [--allow-additional-fields]",
    "",
    "Options:",
    "  -v, --verbose           say more; may be repeated",
    "      --config PATH       a YAML or JSON file with settings",
    "      --schema-dir PATH   where the schema documents are",
    "      --cache-dir PATH    where built schemas are kept",
    "      --no-cache          neither read nor keep built schemas",
    "  -h, --help              show this text",
    "  -V, --version           show the version"]

namespace Stop

/-- Help and version are no mistakes. -/
def exitCode : Stop → Nat
  | help => 0
  | version => 0
  | misuse => 2

/-- What is printed. -/
def output : Stop → String
  | help => String.intercalate "\n" usage ++ "\n"
  | version => versionLine ++ "\n"
  | misuse => ""

end Stop
end Schemata.Command

/-!
# Help

What a command line may look like, and the version of the program.
-/

namespace DocumentDb.Command

/-- The lines of the help. -/
def helpLines : List String :=
  ["Read and write a directory of documents with a schema.",
    "",
    "Options in front of a command:",
    "  --data-dir DIRECTORY     (the current one unless given)",
    "  --format yaml|json       (yaml unless given)",
    "",
    "Commands:",
    "  get COLLECTION ID",
    "  find COLLECTION [--where E] [--and E] [--or E] [--include FIELD | --exclude FIELD]",
    "       [--sort FIELD [--desc]] [--offset N] [--limit N] [--populate PATH]",
    "  insert COLLECTION [--json OBJECT] [--field KEY=VALUE]",
    "  update COLLECTION ID [--json OBJECT] [--field KEY=VALUE]",
    "  delete COLLECTION ID",
    "  push COLLECTION ID FIELD ITEMS",
    "  pull COLLECTION ID FIELD ITEMS",
    "  update-array COLLECTION ID FIELD (--key KEY | --expr E) UPDATES",
    "  status"]

/-- The help of a program of a given name. -/
def help (program : String) : String :=
  "\n".intercalate (("Usage: " ++ program ++ " [OPTIONS] COMMAND") :: "" :: helpLines) ++ "\n"

/-- The version. -/
def version : String := "0.3.0"

/-- The line with the version of a program of a given name. -/
def versionLine (program : String) : String := program ++ " " ++ version ++ "\n"

end DocumentDb.Command

import ArkRoutes.CommandLine.Arguments

namespace ArkRoutes.CommandLine

def programName : String := "auto-router-gen"

def versionText : String := programName ++ " 0.1.0\n"

def listing (items : List (String × String)) : String :=
  String.join (items.map fun (item, meaning) => item ++ "\n          " ++ meaning ++ "\n")

def programSwitches : List (String × String) :=
  [("      --analyzer-config <ANALYZER_CONFIG>",
      "Analyzer settings (JSON5): resolution depth, manifest and extension lists, decorator keys"),
    ("      --trace-resolution", "Log every constant resolution step at debug level")]

def generateSwitches : List (String × String) :=
  [("  -c, --config <CONFIG>", "Plugin options file (JSON5)"),
    ("      --module-path <MODULE_PATH>", "Module root, overrides the config file"),
    ("      --module-name <MODULE_NAME>", "Module name, overrides the config file"),
    ("      --scan-file <SCAN_FILES>",
      "Additional file to scan, relative to the module root (repeatable)"),
    ("      --main-target", "Treat the module as the entry module (no Index.ets export)"),
    ("      --annotation <ANNOTATION>", "Route decorator name")]

def helpSwitch : List (String × String) := [("  -h, --help", "Print help")]

def helpText : Level → String
  | .program =>
    "Generate @AppRouter route builders and route maps\n\nUsage: " ++ programName ++
      " [OPTIONS] <COMMAND>\n\nCommands:\n" ++
      "  generate  Scan the module and write RouterBuilder.ets, route_map.json and the Index.ets export\n" ++
      "  scan      Print the routes found in one file as JSON\n" ++
      "  help      Print this message or the help of the given subcommand(s)\n\nOptions:\n" ++
      listing (programSwitches ++ helpSwitch ++ [("  -V, --version", "Print version")])
  | .generate =>
    "Scan the module and write RouterBuilder.ets, route_map.json and the Index.ets export\n\nUsage: " ++
      programName ++ " generate [OPTIONS]\n\nOptions:\n" ++
      listing (programSwitches ++ generateSwitches ++ helpSwitch)
  | .scan =>
    "Print the routes found in one file as JSON\n\nUsage: " ++ programName ++
      " scan [OPTIONS] <FILE>\n\nArguments:\n" ++ listing [("  <FILE>", "Source file")] ++
      "\nOptions:\n" ++ listing (programSwitches ++ helpSwitch)

def misuseText : String := "error: invalid arguments\n\nFor more information, try '--help'.\n"

end ArkRoutes.CommandLine

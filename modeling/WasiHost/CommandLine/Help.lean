/-!
# Help

The fixed texts of the command line.
-/

namespace WasiHost

/-- The name of the command. -/
def commandName : String := "freestanding-wasi-shim"

/-- The version of the command. -/
def commandVersion : String := "0.3.0"

/-- What is printed when the version is asked for. -/
def versionText : String :=
  commandName ++ " " ++ commandVersion ++ "\n"

/-- How the command is used. -/
def usageText : String :=
  "Usage: " ++ commandName ++ " [OPTIONS] --program <FILE>\n"

/-- What is printed when help is asked for. -/
def helpText : String :=
  commandName ++ ": runs a WASM program against the WASI shim, serving a host directory as the " ++
    "program's flat filesystem.  This can be used to test and develop WASM programs offline.\n\n" ++
    usageText ++
    "
Options:
  -p, --program <FILE>     The WASM program to execute.
  -r, --root <DIRECTORY>   The host directory served to the program as `/`. [default: .]
      --config <FILE>      A JSON file of runtime options.  Options given on the command line are
                           applied on top of it.
      --stdin-file <FILE>  A file whose contents are queued on the program's stdin.
      --arg <ARG>          A command-line argument for the program.  May be repeated.
      --env <VAR=VAL>      Specify an environment variable and value (VAR=VAL).
      --disable-clock      Make clock functions (`clock_getres()`, `clock_gettime()`) fail and report
                           file timestamps as zero.
      --strace             Enable strace-like output for WASI calls.
  -h, --help               Print help
  -V, --version            Print version
"

end WasiHost

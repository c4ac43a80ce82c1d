import RegisterMachine.Text.Lines

/-! The texts that the command line shows about itself. -/
namespace RegisterMachine.CommandLine

def versionText : String := "0.2.0"

def usageLines : List String := [
  "usage: regvm [-h] [-o OUTPUT] [--registers REGISTERS] [--word-bits WORD_BITS]",
  "             [--on-error \x7bskip,abort\x7d] [--no-comments] [--regs] [--dump]",
  "             [--example] [--interactive] [--verbose] [--log-file LOG_FILE]",
  "             [--version]",
  "             [program]"]

def helpLines : List String := usageLines ++ [
  "",
  "Run LOAD/ADD/PRINT programs on a tiny register VM",
  "",
  "positional arguments:",
  "  program               Program file, or '-' for stdin",
  "",
  "options:",
  "  -h, --help            show this help message and exit",
  "  -o OUTPUT, --output OUTPUT",
  "                        Write the trace to a file (default: stdout)",
  "  --registers REGISTERS",
  "                        Comma-separated register names (default: R1,R2,R3)",
  "  --word-bits WORD_BITS",
  "                        Register width in bits, 0 for unbounded (default: 32)",
  "  --on-error \x7bskip,abort\x7d",
  "                        After a failing line: skip to the next one, or abort",
  "                        the run",
  "  --no-comments         Treat '//' and ';' as ordinary text",
  "  --regs                Print final register values after the trace",
  "  --dump                Print parsed instructions and exit (debug)",
  "  --example             Print the example program and exit",
  "  --interactive, -i     Start an interactive session",
  "  --verbose, -v         Log every step to stderr",
  "  --log-file LOG_FILE   Also write a debug log to this file",
  "  --version             show program's version number and exit",
  "",
  "Opcodes: LOAD <reg> <int>, ADD <reg> <reg>, PRINT <reg>"]

def usage : String := Text.unlines usageLines ++ "\n"

def helpText : String := Text.unlines helpLines ++ "\n"

end RegisterMachine.CommandLine

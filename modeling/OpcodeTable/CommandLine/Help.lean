/-!
# Help and version texts
-/

namespace OpcodeTable.CommandLine

def version : String := "opgen 0.1.0\n"

def help : String :=
  "opgen 0.1.0\n" ++
  "  Kanade <kanade.k.1228@gmail.com>\n" ++
  "  Generate opcode constants and a name table from an instruction definition file\n" ++
  "\n" ++
  "Usage:\n" ++
  "  opgen [OPTIONS] [INPUT]\n" ++
  "\n" ++
  "Arguments:\n" ++
  "  [INPUT]  Instruction definition file [default: ins.txt]\n" ++
  "\n" ++
  "Options:\n" ++
  "  -o, --output <OUTPUT>            Output file [default: standard output]\n" ++
  "  -c, --config <CONFIG>            Emit config file (YAML)\n" ++
  "  -t, --opcode-type <OPCODE_TYPE>  Type of the opcode constants: u8 or u16\n" ++
  "      --lenient                    Keep the first two fields of an instruction line and ignore the rest\n" ++
  "  -d, --dump                       Dump parsed lines\n" ++
  "  -v, --verbose                    Print progress\n" ++
  "  -h, --help                       Print help\n" ++
  "  -V, --version                    Print version\n"

end OpcodeTable.CommandLine

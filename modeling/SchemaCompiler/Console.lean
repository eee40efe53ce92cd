import SchemaCompiler.Compiler
import SchemaCompiler.Generator.Pages
import SchemaCompiler.Generator.Plugin

/-!
The compiler as a command: what it is set up with, and what it tells the user at the end.
-/

namespace SchemaCompiler.Console

/-- What the names of plugin executables begin with. -/
def pluginPrefix : String := "sdlc-gen-"

/-- The registry that holds the generator of documentation pages. -/
def pagesRegistry : Registry Generator :=
  match Registry.empty.register Pages.generator "doc_out" (some "doc_opt")
      "Generate Markdown documentation" with
  | .ok registry => registry
  | .error _ => .empty

/-- The generator of documentation pages, and plugins that may run for `timeout`. -/
def compiler (timeout : Option Nat) : Compiler :=
  { registry := pagesRegistry.allowPlugins pluginPrefix
    plugin := fun namePrefix name => (Plugin.mk namePrefix name timeout).generator
    logging := none }

def version : String := "sdlc 0.1.0"

/-- How the command is used, with the generators' switches of one command line. -/
def help (switches : List Binding.SwitchHelp) : String :=
  let row (h : Binding.SwitchHelp) : String :=
    "  --" ++ h.switch ++ " <" ++ h.valueName ++ ">  " ++ h.help ++ "\n"
  "Usage: sdlc [OPTIONS] <FILES>...\n\n" ++
    "Options:\n" ++
    "  -I, --import_path <DIR>  Directories searched for input files\n" ++
    "  -v, --verbose            Log progress to stderr\n" ++
    "  -j, --jobs <N>           Generator invocations to run in parallel\n" ++
    "  -h, --help               Print help\n" ++
    "  -V, --version            Print version\n\n" ++
    "Generator Flags:\n" ++ String.join (switches.map row)

/-- What a finished run leaves behind. -/
structure Report where
  status : Nat
  output : String
  messages : String
deriving DecidableEq, Repr

/-- The report on a run, where `help` is the text that explains the command line. -/
def report {α : Type} (help : String) : Except CompileError α → Report
  | .ok _ => ⟨0, "", ""⟩
  | .error (.usage .displayVersion) => ⟨0, version ++ "\n", ""⟩
  | .error (.usage .displayHelp) => ⟨0, help, ""⟩
  | .error (.usage _) => ⟨2, "", help⟩
  | .error e => ⟨1, "", "error: " ++ e.message ++ "\n"⟩

end SchemaCompiler.Console

import SchemaCompiler.Check
import SchemaCompiler.CommandLine
import SchemaCompiler.Registry
import SchemaCompiler.SourceError

/-!
The errors that a run of the compiler can end with.
-/

namespace SchemaCompiler

/-- Errors sorted by what the user has to mend. -/
inductive ErrorKind where
  | invalidInput
  | duplicateGenerator
  | danglingOptions
  | parseError
  | typeCheckError
  | pluginNotFound
  | pluginProtocolError
  | generatorReported
  | invalidPath
  | ioError
  | cancelled
  | internalFault
deriving DecidableEq, Repr

def ErrorKind.name : ErrorKind → String
  | invalidInput => "InvalidInput"
  | duplicateGenerator => "DuplicateGenerator"
  | danglingOptions => "DanglingOptions"
  | parseError => "ParseError"
  | typeCheckError => "TypeCheckError"
  | pluginNotFound => "PluginNotFound"
  | pluginProtocolError => "PluginProtocolError"
  | generatorReported => "GeneratorReported"
  | invalidPath => "InvalidPath"
  | ioError => "IOError"
  | cancelled => "Cancelled"
  | internalFault => "InternalFault"

inductive CompileError where
  /-- Something was wrong before any file was looked at. -/
  | invalidInput (message : String)
  | registry (error : RegistryError)
  | parse (error : SourceError)
  | typeCheck (diagnostics : List Diagnostic)
  | generator (error : GeneratorError)
  | cancelled
  | internalFault (fault : InternalFault)
  /-- An input could not be read. -/
  | unreadable (path : Path) (error : IoError)
  | usage (error : UsageError)
deriving Repr

namespace RegistryError

def kind : RegistryError → ErrorKind
  | duplicateSwitch _ => .duplicateGenerator
  | danglingOptions _ _ => .danglingOptions
  | invalidOptions _ _ => .invalidInput

end RegistryError

namespace GenerateError

def kind : GenerateError → ErrorKind
  | pluginNotFound _ => .pluginNotFound
  | pluginProtocol _ => .pluginProtocolError
  | reported _ | invalidOptions _ => .generatorReported
  | output (.invalidName _ _) => .invalidPath
  | output _ => .ioError
  | cancelled => .cancelled

end GenerateError

namespace CompileError

def kind : CompileError → ErrorKind
  | invalidInput _ | usage _ => .invalidInput
  | registry e => e.kind
  | parse _ => .parseError
  | typeCheck _ => .typeCheckError
  | generator e => e.cause.kind
  | cancelled => .cancelled
  | internalFault _ => .internalFault
  | unreadable _ _ => .ioError

/-- All diagnostics, each on a line of its own. -/
def diagnosticsMessage (diagnostics : List Diagnostic) : String :=
  diagnostics.foldl (fun text d => text ++ "\n  " ++ d.message)
    ("type check failed with " ++ toString diagnostics.length ++ " error(s)")

/-- What the user is told. The text of a usage error is the help of the command line and not
written here. -/
def message : CompileError → String
  | invalidInput message => "invalid input: " ++ message
  | registry e => e.message
  | parse e => "parse error: " ++ e.message
  | typeCheck diagnostics => diagnosticsMessage diagnostics
  | generator e => e.message
  | cancelled => "cancelled"
  | internalFault fault => "internal fault: " ++ fault.message ++ "\n" ++ fault.stack
  | unreadable path e => "failed to read " ++ path.text ++ ": " ++ e.text
  | usage e => e.name

end CompileError

end SchemaCompiler

import SchemaCompiler.Path
import SchemaCompiler.Text.Quoted

/-!
What a run reports about its progress.
-/

namespace SchemaCompiler

inductive Event where
  | compiling (files : Nat) (generators : List String) (jobs : Nat)
  | parsing (input : String) (path : Path)
  | checkFailed (count : Nat)
  | generating (generator document : String) (directory : Path)
  | writingPage (document file : String) (bytes : Nat)
  | startingPlugin (plugin : Path) (document : String)
  | pluginMessages (plugin : Path) (text : String)
  | pluginFinished (plugin : Path) (files : Nat)
deriving DecidableEq, Repr

namespace Event

/-- What happened, then the particulars, each behind its name. -/
def text : Event → String
  | compiling files generators jobs =>
    "starting compile files=" ++ toString files ++ " generators=" ++ Text.quoteStrings generators ++
      " jobs=" ++ toString jobs
  | parsing input path => "parsing input=" ++ input ++ " path=" ++ path.text
  | checkFailed count => "type check failed count=" ++ toString count
  | generating generator document directory =>
    "generating generator=" ++ generator ++ " document=" ++ document ++ " out_dir=" ++
      directory.text
  | writingPage document file bytes =>
    "writing doc page document=" ++ document ++ " file=" ++ file ++ " bytes=" ++ toString bytes
  | startingPlugin plugin document =>
    "spawning plugin plugin=" ++ plugin.text ++ " document=" ++ document
  | pluginMessages plugin text =>
    "plugin wrote to stderr plugin=" ++ plugin.text ++ " stderr=" ++ text
  | pluginFinished plugin files =>
    "plugin finished plugin=" ++ plugin.text ++ " files=" ++ toString files

/-- The event as a line of a log. -/
def line (e : Event) : String := "DEBUG " ++ e.text

end Event

end SchemaCompiler

import SchemaCompiler.FileSystem.Disk
import SchemaCompiler.Program
import SchemaCompiler.Shell.Format
import SchemaCompiler.Shell.Script

/-!
Processes that run shell scripts.

A process reads its input and writes its output and its messages, uses files, and takes time when it
sleeps. It is stopped once its deadline has passed. It has ended when it and everything it left
running in the background are done with its output and its messages.
-/

namespace SchemaCompiler.Shell

/-- How a script comes to an end. -/
inductive End where
  | exited (status : Nat)
  | signalled
  | stopped
deriving DecidableEq, Repr

/-- Where what a command writes goes. -/
inductive Sink where
  | output
  | messages
  | pipe
  | file (handle : Handle)
  | nowhere
deriving DecidableEq, Repr

/-- A command left running in the background. -/
structure Job where
  id : Nat
  finish : Instant
  /-- Whether it writes to the output or the messages of the process. -/
  attached : Bool
deriving DecidableEq, Repr

structure State where
  /-- The script's own path. -/
  script : String
  /-- Where relative paths begin. -/
  directory : Path
  input : Bytes
  output : Bytes
  messages : Bytes
  /-- What the next command of a pipeline reads. -/
  piped : Bytes
  now : Instant
  deadline : Deadline
  status : Nat
  values : List (String × String)
  jobs : List Job
deriving Repr

/-- The number of the process itself. -/
def processId : Nat := 1000

namespace State

def start (script : String) (directory : Path) (input : Bytes) (now : Instant)
    (deadline : Deadline) : State :=
  { script, directory, input, output := [], messages := [], piped := [], now, deadline,
    status := 0, values := [], jobs := [] }

def lookUp? (s : State) (name : String) : Option String :=
  match name with
  | "$" => some (toString processId)
  | "?" => some (toString s.status)
  | "!" => (s.jobs.head?).map fun job => toString job.id
  | "0" => some s.script
  | "#" => some "0"
  | _ => s.values.lookup name

/-- The text of a word; an empty one counts only between quotes. -/
def expand? (s : State) (w : Word) : Option String :=
  let text := String.join (w.parts.map fun
    | .text text => text
    | .variable name => (s.lookUp? name).getD "")
  if text.isEmpty ∧ ¬ w.quoted then none else some text

def expand (s : State) (w : Word) : String := (s.expand? w).getD ""

/-- A message of the shell about a line of the script. -/
def complaint (s : State) (line : Nat) (message : String) : String :=
  s.script ++ ": " ++ toString line ++ ": " ++ message

end State

/-- Where a command reads and writes. -/
structure Streams where
  input : Bytes
  /-- Whether the input is that of the process. -/
  own : Bool
  output : Sink
  messages : Sink
deriving Repr

/-- What a command did. -/
structure Outcome where
  status : Nat
  output : Bytes
  messages : Bytes
  /-- What it left of its input. -/
  rest : Bytes
deriving Repr

namespace Outcome

def quiet (status : Nat) (input : Bytes) : Outcome := ⟨status, [], [], input⟩

def complain (status : Nat) (message : String) (input : Bytes) : Outcome :=
  ⟨status, [], Text.encode (message ++ "\n"), input⟩

end Outcome

/-! ## Times and signals -/

/-- Nanoseconds in a decimal number of seconds. -/
def seconds? (text : String) : Option Nat :=
  match text.splitOn "." with
  | [whole] => whole.toNat?.map (· * 1000000000)
  | [whole, fraction] => do
    let digits := fraction.toList.take 9
    let n ← (String.ofList digits).toNat?
    let w ← if whole.isEmpty then some 0 else whole.toNat?
    return w * 1000000000 + n * Nat.pow 10 (9 - digits.length)
  | _ => none

/-- A time with a unit, which is seconds if none is given. -/
def duration? (text : String) : Option Nat :=
  let number (factor : Nat) : Option Nat :=
    (seconds? (String.ofList text.toList.dropLast)).map (· * factor)
  match text.toList.getLast? with
  | some 's' => number 1
  | some 'm' => number 60
  | some 'h' => number 3600
  | _ => seconds? text

/-- Whether a signal leaves a process alone. -/
def isHarmless (signal : String) : Bool :=
  ["0", "17", "18", "23", "28", "CHLD", "CONT", "URG", "WINCH"].contains signal

/-- The signal and the processes that `kill` is told. -/
def killArguments (args : List String) : String × List String :=
  match args with
  | "-s" :: signal :: ids => (signal, ids)
  | "-n" :: signal :: ids => (signal, ids)
  | first :: ids =>
    match first.toList with
    | '-' :: signal => (String.ofList signal, ids)
    | _ => ("TERM", args)
  | [] => ("TERM", [])

/-! ## Commands -/

abbrev ShellT (m : Type → Type) (α : Type) := ExceptT End (StateT State m) α

variable {m : Type → Type} [Monad m]

/-- Performs an operation of the file system. -/
def onFiles {α : Type} (operation : m α) : ShellT m α := ExceptT.lift (StateT.lift operation)

/-- Lets time pass. -/
def wait (time : Nat) : ShellT m Unit := do
  modify fun s => { s with now := s.now + time }
  let s ← get
  if s.deadline.isPast s.now then throw .stopped

/-- The words of a file error. -/
def errorWords (e : IoError) : String :=
  match SystemError.all.find? fun known => known.ioError == e with
  | some known => known.words
  | none => e.text

/-- The content of a file that is named to a command. -/
def readNamed (fs : FileSystem m) (name : String) : ShellT m (Except IoError Bytes) :=
  if name = "/dev/null" then return .ok [] else onFiles (fs.read ⟨name⟩)

/-- The contents of the named files, the input standing for `-`. -/
def cat (fs : FileSystem m) (input : Bytes) : List String → ShellT m Outcome
  | [] => return .quiet 0 input
  | name :: names => do
    let content ← if name = "-" then pure (.ok input) else readNamed fs name
    let input := if name = "-" then [] else input
    let others ← cat fs input names
    match content with
    | .ok bytes => return { others with output := bytes ++ others.output }
    | .error e =>
      let message := Text.encode ("cat: " ++ name ++ ": " ++ errorWords e ++ "\n")
      return { others with status := 1, messages := message ++ others.messages }

/-- The first bytes of the input, as many as asked for. -/
def head (input : Bytes) (args : List String) : Outcome :=
  let count := match args with
    | ["-c", n] => n.toNat?
    | [option] => if option.startsWith "-c" then (option.drop 2).toNat? else none
    | _ => none
  match count with
  | some n => ⟨0, input.take n, [], input.drop n⟩
  | none => .complain 1 "head: unsupported" input

/-- Sends a signal. One to the process itself ends it. -/
def kill (input : Bytes) (args : List String) : ShellT m Outcome := do
  let (signal, ids) := killArguments args
  if isHarmless signal then return .quiet 0 input
  if ids.contains (toString processId) then throw .signalled
  let s ← get
  let isMeant (job : Job) : Bool := ids.contains (toString job.id)
  let killed (job : Job) : Job :=
    if isMeant job then { job with finish := min job.finish s.now } else job
  if s.jobs.any isMeant then
    set { s with jobs := s.jobs.map killed }
    return .quiet 0 input
  else return .complain 1 "kill: No such process" input

/-- Waits for everything in the background. -/
def waitForJobs (input : Bytes) : ShellT m Outcome := do
  let s ← get
  wait ((s.jobs.foldl (fun latest job => max latest job.finish) s.now) - s.now)
  return .quiet 0 input

/-- Whether a condition on texts holds. -/
def testTexts : List String → Bool
  | ["-n", a] => !a.isEmpty
  | ["-z", a] => a.isEmpty
  | [a, "=", b] => a == b
  | [a, "!=", b] => a != b
  | [a, "-eq", b] => a.toInt? == b.toInt?
  | [a, "-ne", b] => a.toInt? != b.toInt?
  | [a] => !a.isEmpty
  | _ => false

/-- Whether a condition on texts or files holds. -/
def test (fs : FileSystem m) : List String → ShellT m Bool
  | ["-f", name] | ["-e", name] => onFiles (fs.isFile ⟨name⟩)
  | "!" :: args => return !testTexts args
  | args => return testTexts args

/-- The name that a command is known by. -/
def commandName (word : String) : String :=
  match Path.mk word with
  | p => if p.isAbsolute then p.fileName?.getD word else word

/-- Carries a command out. Messages call it `command`. -/
def invoke (fs : FileSystem m) (line : Nat) (command word : String) (args : List String)
    (input : Bytes) : ShellT m Outcome := do
  let s ← get
  match commandName word with
  | "cat" => cat fs input (if args.isEmpty then ["-"] else args)
  | "echo" => return ⟨0, echo args, [], input⟩
  | "printf" => return ⟨0, printf args, [], input⟩
  | "true" | ":" => return .quiet 0 input
  | "false" => return .quiet 1 input
  | "exit" => throw (.exited (((args.head?.bind (·.toNat?)).getD s.status) % 256))
  | "sleep" =>
    match args.head?.bind duration? with
    | some time => do
      wait time
      return .quiet 0 input
    | none => return .complain 1 "sleep: invalid time interval" input
  | "kill" => kill input args
  | "wait" => waitForJobs input
  | "head" => return head input args
  | "pwd" => return ⟨0, Text.encode (s.directory.text ++ "\n"), [], input⟩
  | "test" => return .quiet (if ← test fs args then 0 else 1) input
  | "[" => return .quiet (if ← test fs args.dropLast then 0 else 1) input
  | _ => return .complain 127 (s.complaint line (command ++ ": not found")) input

/-! ## Redirections -/

/-- The sink that a descriptor leads to. -/
def Streams.sink (streams : Streams) : Nat → Sink
  | 1 => streams.output
  | 2 => streams.messages
  | _ => .nowhere

def Streams.setSink (streams : Streams) (descriptor : Nat) (sink : Sink) : Streams :=
  match descriptor with
  | 1 => { streams with output := sink }
  | 2 => { streams with messages := sink }
  | _ => streams

/-- Opens a file that a command writes to. -/
def openSink (fs : FileSystem m) (name : String) (keep : Bool) :
    ShellT m (Except IoError Sink) := do
  match name with
  | "/dev/null" => return .ok .nowhere
  | "/dev/stdout" => return .ok .output
  | "/dev/stderr" => return .ok .messages
  | _ =>
    let before ← if keep then onFiles (fs.read ⟨name⟩) else pure (.ok [])
    match ← onFiles (fs.create ⟨name⟩) with
    | .error e => return .error e
    | .ok handle =>
      let _ ← onFiles (fs.write handle (before.toOption.getD []))
      return .ok (.file handle)

/-- Why a redirection fails, in the shell's words. -/
def redirectMessage (verb name absent : String) (e : IoError) : String :=
  let words := errorWords e
  let missing := [SystemError.noEntry.words, SystemError.notDirectory.words].contains words
  "cannot " ++ verb ++ " " ++ name ++ ": " ++ (if missing then absent else words)

def redirect (fs : FileSystem m) (streams : Streams) :
    List Redirection → ShellT m (Except String Streams)
  | [] => return .ok streams
  | r :: rs => do
    let name := (← get).expand r.target
    match r.direction with
    | .input =>
      match ← readNamed fs name with
      | .ok bytes => redirect fs { streams with input := bytes, own := false } rs
      | .error e => return .error (redirectMessage "open" name "No such file" e)
    | .same =>
      redirect fs (streams.setSink r.descriptor (streams.sink (name.toNat?.getD 0))) rs
    | .output | .append =>
      match ← openSink fs name (r.direction = .append) with
      | .ok sink => redirect fs (streams.setSink r.descriptor sink) rs
      | .error e => return .error (redirectMessage "create" name "Directory nonexistent" e)

/-- Hands what a command wrote on. -/
def emit (fs : FileSystem m) (sink : Sink) (bytes : Bytes) : ShellT m Unit := do
  match sink with
  | .output => modify fun s => { s with output := s.output ++ bytes }
  | .messages => modify fun s => { s with messages := s.messages ++ bytes }
  | .pipe => modify fun s => { s with piped := s.piped ++ bytes }
  | .file handle =>
    let _ ← onFiles (fs.write handle bytes)
  | .nowhere => return ()

def closeSink (fs : FileSystem m) (sink : Sink) : ShellT m Unit := do
  if let .file handle := sink then
    onFiles (fs.drop handle)

/-! ## Scripts -/

/-- Runs a command. A command behind `exec` takes the place of the script. -/
def runCommand (fs : FileSystem m) (streams : Streams) (c : Command) : ShellT m Streams := do
  for (name, value) in c.assignments do
    modify fun s => { s with values := (name, s.expand value) :: s.values }
  match ← redirect fs streams c.redirections with
  | .error message =>
    emit fs streams.messages (Text.encode ((← get).complaint c.line message ++ "\n"))
    modify fun s => { s with status := 2 }
    return streams
  | .ok streams =>
    let s ← get
    let words := c.words.filterMap s.expand?
    let (last, words) := match words with
      | "exec" :: words => (!words.isEmpty, words)
      | words => (false, words)
    let outcome ← match words with
      | [] => pure (.quiet 0 streams.input)
      | word :: args =>
        invoke fs c.line (if last then "exec: " ++ word else word) word args streams.input
    emit fs streams.output outcome.output
    emit fs streams.messages outcome.messages
    closeSink fs streams.output
    closeSink fs streams.messages
    modify fun s => { s with
      status := outcome.status, input := if streams.own then outcome.rest else s.input }
    if last then throw (.exited outcome.status)
    return streams

/-- Runs the commands of a pipeline, each on the output of the one before it. -/
def runPipeline (fs : FileSystem m) (attached : Bool) :
    (first : Bool) → List Command → ShellT m Bool
  | _, [] => return false
  | first, c :: rest => do
    let s ← get
    let input := if first then (if attached then s.input else []) else s.piped
    let sink := if rest.isEmpty then Sink.output else .pipe
    set { s with piped := [] }
    let streams ← runCommand fs ⟨input, first && attached, sink, .messages⟩ c
    let writes := streams.output = .output || streams.messages = .messages
    return (← runPipeline fs attached false rest) || writes

/-- Runs the pipelines of a chain whose conditions hold. Says whether any of them wrote to the
output or the messages of the process. -/
def runChain (fs : FileSystem m) (attached : Bool) :
    List (Condition × List Command) → ShellT m Bool
  | [] => return false
  | (condition, commands) :: rest => do
    let status := (← get).status
    let due := match condition with
      | .always => true
      | .success => status = 0
      | .failure => status ≠ 0
    let writes ← if due then runPipeline fs attached true commands else pure false
    return (← runChain fs attached rest) || writes

/-- Runs a chain beside the script, which does not wait for it. -/
def runInBackground (fs : FileSystem m) (pipelines : List (Condition × List Command)) :
    ShellT m Unit := do
  let before ← get
  set { before with deadline := none }
  let attached ← tryCatch (runChain fs false pipelines) fun _ => pure true
  modify fun after => { after with
    now := before.now
    deadline := before.deadline
    status := 0
    values := before.values
    jobs := ⟨processId + 1 + before.jobs.length, after.now, attached⟩ :: before.jobs }

def runScript (fs : FileSystem m) : List Chain → ShellT m Unit
  | [] => return ()
  | chain :: chains => do
    if chain.background then runInBackground fs chain.pipelines
    else
      let _ ← runChain fs true chain.pipelines
    runScript fs chains

/-- Runs `script` as a process. Gives how it ended and when. -/
def run (fs : FileSystem m) (path directory : Path) (script : String) (input : Bytes)
    (now : Instant) (deadline : Deadline) : m (Ending × Instant) := do
  let start := State.start path.text directory input now deadline
  let (result, s) ← (runScript fs (parse script)).run.run start
  let finish := s.jobs.foldl (fun t job => if job.attached then max t job.finish else t) s.now
  let exited (status : Option Nat) : Ending × Instant :=
    let ending := if deadline.isPast finish then .stopped else .exited status s.output s.messages
    (ending, finish)
  return match result with
    | .ok () => exited (some s.status)
    | .error (.exited status) => exited (some status)
    | .error .signalled => exited none
    | .error .stopped => (.stopped, s.now)

/-! ## Executables -/

/-- The directories with the programs of the system. -/
def systemDirectories : List String := ["/bin/", "/usr/bin/"]

/-- The name of a program of the system, given its path. -/
def systemProgram? (path : String) : Option String :=
  systemDirectories.findSome? fun directory =>
    if path.startsWith directory then some (path.drop directory.length).toString else none

/-- The programs that run scripts. -/
def shells : List String := ["sh", "dash", "bash"]

/-- The programs that may stand behind `#!` other than shells. -/
def interpreters : List String := ["cat", "echo", "true", "false"]

/-- The path behind `#!` on the first line, and the argument behind that. -/
def interpreterLine? (script : String) : Option (String × String) :=
  match script.toList with
  | '#' :: '!' :: rest =>
    let isGap (c : Char) : Bool := c == ' ' || c == '\t'
    let line := (rest.takeWhile (· ≠ '\n')).dropWhile isGap
    let word := line.takeWhile fun c => !isGap c
    some (String.ofList word, Text.trim (String.ofList (line.drop word.length)))
  | _ => none

/-- What takes the place of a script whose interpreter is no shell. -/
def stand (program argument : String) : String :=
  program ++ (if argument.isEmpty then "" else " '" ++ argument ++ "'") ++ " \"$0\""

/-- Starts an executable file, whose first line names its interpreter. -/
def start (fs : FileSystem m) (path directory : Path) (input : Bytes) (now : Instant)
    (deadline : Deadline) : m (Ending × Instant) := do
  let failed (e : SystemError) : Ending × Instant := (.notStarted e.ioError, now)
  match ← fs.read path with
  | .error e => return (.notStarted e, now)
  | .ok bytes =>
    let script := Text.decodeLossy bytes
    match interpreterLine? script with
    | none | some ("", _) => return failed .formatError
    | some (word, argument) =>
      let program := match systemProgram? word with
        | some "env" => some argument
        | program => program
      match program with
      | none =>
        if systemDirectories.contains (word ++ "/") then return failed .permissionDenied
        else return failed .noEntry
      | some program =>
        if shells.contains program then run fs path directory script input now deadline
        else if interpreters.contains program then
          run fs path directory (stand program argument) input now deadline
        else return failed .noEntry

end SchemaCompiler.Shell

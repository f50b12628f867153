import SealedGraph.Command.Arguments
import SealedGraph.Command.EnvFile
import SealedGraph.Command.LogFilter
import SealedGraph.Fresh
import SealedGraph.Secret
import SealedGraph.Store.Accounts
import SealedGraph.Text.Hidden

/-!
# Running a command

What the program does with its arguments, as work on a host. Settings come from the file of
settings, the configuration is loaded and the options are put over it before any command runs. A
command prints its lines as it goes, so those before a failure stay.
-/

namespace SealedGraph.Command

open Host (Work)

/-- Why a command fails. -/
inductive Failure
  | configuration
  | logFilter
  | secret
  | user (name : String)
  | address (address : String)
  | keyFile (e : KeyFileError)
  /-- a file that cannot be written -/
  | file (path : String)
  | noCommand
  /-- a fault that no command expects -/
  | fault
  | stopped (s : Stop)
  deriving DecidableEq, Repr

/-- A character of a path in quotes. -/
def quotedChar (c : Char) : List Char :=
  match c with
  | '"' => ['\\', '"']
  | '\\' => ['\\', '\\']
  | '\n' => ['\\', 'n']
  | '\r' => ['\\', 'r']
  | '\t' => ['\\', 't']
  | '\x00' => ['\\', '0']
  | c =>
    if Text.isHidden c then ['\\', 'u', '\x7b'] ++ Text.hexText c.toNat ++ ['\x7d'] else [c]

/-- A path in quotes. -/
def quotedPath (path : String) : String :=
  String.ofList ('"' :: path.toList.flatMap quotedChar ++ ['"'])

/-- What is printed of a failure. -/
def Failure.message : Failure → String
  | configuration => "Error: Failed to load configuration"
  | logFilter => "Error: Failed to create log filter"
  | secret => "Error: Failed to load master secret"
  | user name => "Error: Failed to add user '" ++ name ++ "'"
  | address a => "Error: Failed to bind to " ++ a
  | keyFile e => "Error: " ++ e.message
  | file path => "Error: Failed to write config to " ++ quotedPath path
  | noCommand => "No command specified. Use --help for usage."
  | fault => ""
  | stopped _ => "Usage: cogged [OPTIONS] [COMMAND]"

/-- The status with which the program ends after a failure. -/
def Failure.status : Failure → Nat
  | stopped .misuse => 2
  | stopped _ => 0
  | fault => 101
  | _ => 1

/-- Work that may fail. -/
abbrev Attempted := ExceptT Failure Work

namespace Attempted

/-- Prints a line. -/
def say (line : String) : Attempted Unit := ExceptT.lift (Work.sayLine line)

/-- Work that fails for one reason only. -/
def orFail {ε α : Type} (work : Work (Except ε α)) (failure : ε → Failure) : Attempted α :=
  ExceptT.mk do
    match ← work with
    | .ok a => return .ok a
    | .error e => return .error (failure e)

end Attempted

open Attempted (say orFail)

/-- The mark of success. -/
def check : String := "✓ "

/-! ## Commands -/

/-- The setting of the host for a passphrase. -/
def passphraseSetting : String := "COGGED_KEY"

/-- The setting of the host for the filter of the log. -/
def logSetting : String := "RUST_LOG"

/-- The number of random bytes of a first password. -/
def passwordLength : Nat := 18

/-- A store with some new users, whose passwords are printed. -/
def addUsers : Store → List NewUser → Attempted Store
  | store, [] => return store
  | store, u :: us => do
    let password := Fresh.password (← ExceptT.lift (Work.randomBytes passwordLength))
    match store.createAccount ⟨u.username, password, u.role, none⟩ with
    | (.ok _, store) =>
      say (check ++ u.username ++ " (" ++ u.role ++ ") password: " ++ password)
      addUsers store us
    | (.error _, _) => throw (.user u.username)

/-- Takes requests with the users that the command line names. -/
def serve (c : Config) (users : List NewUser) : Attempted Unit := do
  let passphrase ← ExceptT.lift (Work.settingOf passphraseSetting)
  let _ ← orFail (MasterSecret.load passphrase c.keyFile) fun _ => .secret
  let _ ← addUsers .empty users
  let address := c.network.address ++ ":" ++ decimal c.network.port
  if ← ExceptT.lift (Work.listenAt address) then return else throw (.address address)

/-- Writes a new file with a secret. -/
def keygen (path : String) : Attempted Unit := do
  orFail (MasterSecret.writeKeyFile path) .keyFile
  say (check ++ "Master secret written: " ++ path)
  say "  Point secret.key_file at it, or keep it next to the config as cogged.key."

/-- The lines of a text, each with its end. -/
def linesOf (text : String) : List String :=
  let lines := (Text.split '\n' text.toList).map String.ofList
  if lines.getLast? = some "" then lines.dropLast else lines

/-- What stands for a path that is not given. -/
def notSet : String := "(not set)"

/-- Prints where a configuration is looked for. -/
def showPaths (named : Option String) : Attempted Unit := do
  say "Configuration discovery paths:"
  say ("  1. --config flag: " ++ named.getD notSet)
  let setting ← ExceptT.lift (Work.settingOf Config.pathSetting)
  say ("  2. COGGED_CONFIG_PATH: " ++ setting.getD notSet)
  say ("  3. " ++ Config.localPath)
  say ("  4. " ++ Config.userPath "~")
  say ("  5. " ++ Config.systemPath)
  say ""

/-- Prints a configuration. -/
def showConfig (c : Config) (named : Option String) (paths : Bool) : Attempted Unit := do
  if paths then showPaths named
  (linesOf c.text).forM say

/-- Loads a configuration for no other reason than to see whether it is valid. -/
def validate (path : Option String) : Attempted Unit := do
  say "Validating configuration..."
  let _ ← orFail (Config.load path) fun _ => .configuration
  say (check ++ "Configuration is valid")

/-- Writes the default configuration into a file. -/
def generate (path : String) : Attempted Unit := do
  if ← ExceptT.lift (Work.writeAt path (bytesOf Config.default.text)) then
    say (check ++ "Configuration generated: " ++ path)
  else throw (.file path)

/-- Does what an invocation asks for, given the configuration. -/
def act (c : Config) (i : Invocation) : Attempted Unit :=
  match i.action with
  | some (.serve users) => serve c users
  | some (.keygen path) => keygen path
  | some (.showConfig paths) => showConfig c i.config paths
  | some (.validate path) => validate (path.or i.config)
  | some (.generate path) => generate path
  | none => throw .noCommand

/-! ## The program -/

/-- The configuration with the options of an invocation over it. -/
def withOptions (c : Config) (i : Invocation) : Config :=
  { c with
    network := ⟨i.host.getD c.network.address, i.port.getD c.network.port⟩
    logging := { c.logging with level := i.logLevel.getD c.logging.level } }

/-- Reads the filter for the log: the one of the host, or else the level. -/
def readLogFilter (setting : Option String) (level : String) : Except Failure Unit :=
  match (setting.map LogFilter.read).getD (.error .malformed) with
  | .ok () => .ok ()
  | .error .torn => .error .fault
  | .error .malformed => match LogFilter.read level with
    | .ok () => .ok ()
    | .error .torn => .error .fault
    | .error .malformed => .error .logFilter

/-- The settings of the host for options. -/
def optionSettings : List Opt → Work (List (Opt × String))
  | [] => return []
  | o :: os => do
    let value ← match o.setting? with
      | some name => Work.settingOf name
      | none => pure none
    return value.toList.map (o, ·) ++ (← optionSettings os)

/-- The invocation of some arguments, unless they ask for the version. -/
def invocation (args : List String) : Attempted Invocation := do
  let settings ← ExceptT.lift (optionSettings Opt.everywhere)
  match Invocation.ofArguments (fun o => settings.lookup o) args with
  | .ok i => return i
  | .error s => throw (.stopped s)

/-- Does what the arguments ask for. -/
def perform (args : List String) : Attempted Unit := do
  unless ← ExceptT.lift EnvFile.load do throw .fault
  let i ← invocation args
  let c := withOptions (← orFail (Config.load i.config) fun _ => .configuration) i
  let filter ← ExceptT.lift (Work.settingOf logSetting)
  ExceptT.mk (pure (readLogFilter filter c.logging.level))
  act c i

/-- How a run of the program ends: its status, and what it complains of. -/
structure Ending where
  status : Nat
  complaint : Option String
  deriving DecidableEq, Repr

/-- Runs the program. -/
def run (args : List String) : Work Ending := do
  match ← (perform args).run with
  | .ok () => return ⟨0, none⟩
  | .error (.stopped (.version words)) =>
    Work.sayLine (versionLine words)
    return ⟨0, none⟩
  | .error (.stopped .help) =>
    Work.sayLine (Failure.stopped .help).message
    return ⟨0, none⟩
  | .error e => return ⟨e.status, some e.message⟩

end SealedGraph.Command

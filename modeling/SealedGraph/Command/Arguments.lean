import SealedGraph.Command.NewUser
import SealedGraph.Config.Load
import SealedGraph.Text.Digits

/-!
# Arguments of the command line

The words of a command line as an invocation. Commands lie in levels, each with options of its own
and with those of all levels, a value behind an option or behind its equals sign, and nothing but
words behind two dashes. An option may stand once on a level unless it is made to be repeated; of
several levels the deepest counts. A value behind its option is looked at only before the next
option of its level or when all the levels below are read. An option of all levels that is not given
can have a value in a setting of the host, which has to be valid on every level where the option is
not given.
-/

namespace SealedGraph.Command

/-- A level of commands. -/
inductive Level
  | program | serve | keygen | config | show_ | validate | generate
  deriving DecidableEq, Repr

/-- An option. -/
inductive Opt
  | config | port | host | logLevel | addUser | out | paths | output
  deriving DecidableEq, Repr

namespace Opt

/-- The options of all levels. -/
def everywhere : List Opt := [config, port, host, logLevel]

/-- The word of an option, behind two dashes. -/
def word : Opt → String
  | config => "config"
  | port => "port"
  | host => "host"
  | logLevel => "log-level"
  | addUser => "add-user"
  | out => "out"
  | paths => "paths"
  | output => "output"

/-- The letter of an option, behind one dash. -/
def letter? : Opt → Option Char
  | config => some 'c'
  | output => some 'o'
  | _ => none

/-- Whether a value belongs to an option. -/
def hasValue : Opt → Bool
  | paths => false
  | _ => true

/-- Whether an option may stand on a level more than once. -/
def repeats : Opt → Bool
  | addUser => true
  | _ => false

/-- The setting of the host in which an option can have a value. -/
def setting? : Opt → Option String
  | config => some Config.pathSetting
  | port => some "COGGED_PORT"
  | host => some "COGGED_HOST"
  | logLevel => some "COGGED_LOG_LEVEL"
  | _ => none

/-- A port: a number, with a sign perhaps, that fits sixteen bits. -/
def portOf? (s : String) : Option Nat :=
  (Text.readSigned 10 0 (Text.maxUnsigned 16) s.toList).map Int.toNat

/-- Whether an option can have a value. -/
def accepts (o : Opt) (s : String) : Bool :=
  match o with
  | config | out | output => s ≠ ""
  | port => (portOf? s).isSome
  | addUser => (NewUser.ofText s).isOk
  | host | logLevel | paths => true

end Opt

namespace Level

/-- The word of a level. -/
def word : Level → String
  | program => "cogged"
  | serve => "serve"
  | keygen => "keygen"
  | config => "config"
  | show_ => "show"
  | validate => "validate"
  | generate => "generate"

/-- The levels below a level. -/
def below : Level → List Level
  | program => [serve, keygen, config]
  | config => [show_, validate, generate]
  | _ => []

/-- The options of a level. -/
def options : Level → List Opt
  | serve => Opt.addUser :: Opt.everywhere
  | keygen => Opt.out :: Opt.everywhere
  | show_ => Opt.paths :: Opt.everywhere
  | generate => Opt.output :: Opt.everywhere
  | _ => Opt.everywhere

/-- The number of words that a level takes. -/
def places : Level → Nat
  | validate => 1
  | _ => 0

end Level

/-- What is given on a level. -/
structure Given where
  level : Level
  /-- the options with their values, last first -/
  options : List (Opt × String)
  /-- the last option, if its value stands behind it and was not looked at yet -/
  pending : Option (Opt × String)
  /-- the words, last first -/
  words : List String
  deriving DecidableEq, Repr

/-- Why a command line is no invocation. -/
inductive Stop
  /-- it asks for help -/
  | help
  /-- it asks for the version, on a level reached through these words -/
  | version (words : List String)
  /-- it is not understood -/
  | misuse
  deriving DecidableEq, Repr

/-- The version of the program. -/
def programVersion : String := "0.1.0"

namespace Given

/-- A level on which nothing is given. -/
def start (level : Level) : Given := ⟨level, [], none, []⟩

/-- One more option with its value. -/
def set (g : Given) (o : Opt) (v : String) : Except Stop Given :=
  if !o.accepts v || !o.repeats && (g.options.lookup o).isSome then .error .misuse
  else .ok { g with options := (o, v) :: g.options }

/-- The same with the last option among the others. -/
def settle (g : Given) : Except Stop Given :=
  match g.pending with
  | none => .ok g
  | some (o, v) => { g with pending := none }.set o v

/-- One more word. -/
def place (g : Given) (w : String) : Except Stop Given :=
  if g.words.length < g.level.places && w ≠ "" then .ok { g with words := w :: g.words }
  else .error .misuse

end Given

/-- The words that ask for help and for the version, and their letters. -/
def helpWord : String := "help"

/-- The letter that asks for help. -/
def helpLetter : Char := 'h'

/-- The word that asks for the version. -/
def versionWord : String := "version"

/-- The letter that asks for the version. -/
def versionLetter : Char := 'V'

/-- What kind of word an argument is. -/
inductive Argument
  /-- nothing but words comes behind it -/
  | dashes
  /-- the word of an option, and what follows its equals sign -/
  | long (name : String) (value : Option String)
  /-- the letter of an option, and what follows it -/
  | short (letter : Char) (rest : List Char)
  | word (w : String)

namespace Argument

/-- The kind of an argument. -/
def of (s : String) : Argument :=
  match s.toList with
  | ['-', '-'] => dashes
  | '-' :: '-' :: cs =>
    let name := cs.takeWhile (· ≠ '=')
    long (String.ofList name) ((cs.drop name.length).tail?.map String.ofList)
  | '-' :: c :: cs => short c cs
  | _ => word s

end Argument

/-- The name of the program with the words that lead to a level, as its version names it. -/
def versionLine (words : List String) : String :=
  String.intercalate "-" words ++ " " ++ programVersion

/-- Whether words behind the word for help name a level. -/
def isHelpTopic : Level → List String → Bool
  | _, [] => true
  | level, w :: ws =>
    match level.below.find? fun l => l.word = w with
    | some l => isHelpTopic l ws
    | none => !level.below.isEmpty && w = helpWord && ws.isEmpty

/-- What an option in front of further arguments is given. -/
inductive Value
  | none
  | attached (v : String)
  | next

/-- An option with its value, or what is asked for instead. -/
def optionOf (g : Given) (path : List String) : Argument → Except Stop (Opt × Value)
  | .long name value =>
    match g.level.options.find? fun o => o.word = name with
    | some o => match o.hasValue, value with
      | true, some v => .ok (o, .attached v)
      | true, none => .ok (o, .next)
      | false, none => .ok (o, .none)
      | false, some _ => .error .misuse
    | none =>
      if value.isSome then .error .misuse
      else if name = helpWord then .error .help
      else if name = versionWord then .error (.version path)
      else .error .misuse
  | .short letter rest =>
    if letter = helpLetter then .error .help
    else if letter = versionLetter then .error (.version path)
    else match g.level.options.find? fun o => o.letter? = some letter with
      | some o => match rest with
        | [] => .ok (o, .next)
        | '=' :: v => .ok (o, .attached (String.ofList v))
        | v => .ok (o, .attached (String.ofList v))
      | none => .error .misuse
  | _ => .error .misuse

/-- Reads arguments on a level, which is reached from the levels in `above`, the last first. -/
def readLevels : (above : List Given) → Given → List String → Except Stop (List Given)
  | above, g, [] => .ok (g :: above)
  | above, g, a :: rest =>
    let path := (g :: above).reverse.map fun g => g.level.word
    match Argument.of a with
    | .dashes => do
      let g ← rest.foldlM Given.place g
      return g :: above
    | .word w =>
      match g.level.below.find? fun l => l.word = w with
      | some l => readLevels (g :: above) (.start l) rest
      | none =>
        if !g.level.below.isEmpty && w = helpWord then
          .error (if isHelpTopic g.level rest then .help else .misuse)
        else do readLevels above (← g.place w) rest
    | option => do
      let g ← g.settle
      match ← optionOf g path option with
      | (o, .none) => readLevels above (← g.set o "") rest
      | (o, .attached v) => readLevels above (← g.set o v) rest
      | (o, .next) =>
        match rest with
        | v :: rest =>
          match Argument.of v with
          | .word v => readLevels above { g with pending := some (o, v) } rest
          | _ => .error .misuse
        | [] => .error .misuse

/-- What the program is to do. -/
inductive Action
  | serve (users : List NewUser)
  | keygen (path : String)
  | showConfig (paths : Bool)
  | validate (path : Option String)
  | generate (path : String)
  deriving DecidableEq, Repr

/-- A command line that is understood. -/
structure Invocation where
  config : Option String
  port : Option Nat
  host : Option String
  logLevel : Option String
  action : Option Action
  deriving DecidableEq, Repr

namespace Invocation

/-- The value of an option on the deepest level where it is given. -/
def valueOf? (levels : List Given) (o : Opt) : Option String :=
  levels.findSome? fun g => g.options.lookup o

/-- The action of the deepest level. -/
def actionOf : List Given → Except Stop (Option Action)
  | [] => .error .misuse
  | g :: _ =>
    let values (o : Opt) := (g.options.filter fun x => x.1 = o).reverse.map Prod.snd
    match g.level with
    | .program => .ok none
    | .config => .error .misuse
    | .serve =>
      .ok (some (.serve ((values .addUser).filterMap fun s => (NewUser.ofText s).toOption)))
    | .keygen => match values .out with
      | path :: _ => .ok (some (.keygen path))
      | [] => .error .misuse
    | .show_ => .ok (some (.showConfig !(values .paths).isEmpty))
    | .validate => .ok (some (.validate g.words.head?))
    | .generate => .ok (some (.generate ((values .output).head?.getD Config.localPath)))

/-- Whether the setting of an option is valid on every level where the option is not given. -/
def isSound (settings : Opt → Option String) (levels : List Given) (o : Opt) : Bool :=
  (settings o).all o.accepts || levels.all fun g => (g.options.lookup o).isSome

/-- The invocation of a command line, given the settings for its options. -/
def ofArguments (settings : Opt → Option String) (args : List String) :
    Except Stop Invocation := do
  let levels ← (← readLevels [] (.start .program) args).mapM Given.settle
  let action ← actionOf levels
  if !Opt.everywhere.all (isSound settings levels) then .error .misuse
  let value? (o : Opt) := (valueOf? levels o).or (settings o)
  return ⟨value? .config, (value? .port).bind Opt.portOf?, value? .host, value? .logLevel, action⟩

end Invocation

end SealedGraph.Command

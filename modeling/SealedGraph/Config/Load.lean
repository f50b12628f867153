import SealedGraph.Config.Yaml
import SealedGraph.Host.Work
import SealedGraph.Text.Utf8

/-!
# Loading a configuration

A configuration is read from the file that is named, or from the first that is found where
configurations are looked for, or it is the default. Settings from outside come next, and what comes
out must be without flaw.
-/

namespace SealedGraph.Config

open Host (Work)

/-- Why there is no configuration. -/
inductive LoadError
  /-- the file is not there, or it is no text -/
  | unreadable
  | malformed
  | flawed (flaw : Flaw)
  deriving DecidableEq, Repr

/-- The setting from outside for the file of the configuration. -/
def pathSetting : String := "COGGED_CONFIG_PATH"

/-- The setting of a host for the directory of its user. -/
def homeSetting : String := "HOME"

/-- The file of a configuration in the directory of a command. -/
def localPath : String := "./cogged-config.yaml"

/-- The file of a configuration below the directory of a user. -/
def userPath (home : String) : String := home ++ "/.cogged/config.yaml"

/-- The file of the configuration of a host. -/
def systemPath : String := "/etc/cogged/config.yaml"

/-- The first of some paths that leads to something. -/
def firstFound : List String → Work (Option String)
  | [] => return none
  | path :: paths => do
    if (← Work.entryAt path).isSome then return some path else firstFound paths

/-- The file of a configuration that is not named. -/
def discover : Work (Option String) := do
  let named ← Work.settingOf pathSetting
  let home ← Work.settingOf homeSetting
  firstFound (named.toList ++ [localPath] ++
    (home.filter fun h => h ≠ "").toList.map userPath ++ [systemPath])

/-- The configuration in a file. -/
def ofEntry : Option Host.Entry → Except LoadError Config
  | some (.file bytes _) => match stringOf? bytes with
    | none => .error .unreadable
    | some text => match ofText? text with
      | none => .error .malformed
      | some c => .ok c
  | _ => .error .unreadable

/-- The configuration unless it has a flaw. -/
def checked (c : Config) : Except LoadError Config :=
  match c.flaw? with
  | some flaw => .error (.flawed flaw)
  | none => .ok c

/-- The configuration of a named file, or else the one that is found. -/
def load (path : Option String) : Work (Except LoadError Config) := do
  let path ← match path with
    | some path => pure (some path)
    | none => discover
  let written ← match path with
    | some path => ofEntry <$> Work.entryAt path
    | none => pure (.ok default)
  let lifetime ← Work.settingOf lifetimeSetting
  let failures ← Work.settingOf failuresSetting
  return written.bind fun c => (c.override lifetime failures).checked

end SealedGraph.Config

import SealedGraph.Registry.Operation
import SealedGraph.Text.Blank

/-!
# Configuration

The settings of a server, each with a default, and what has to hold of them. Two of them can be
given from outside, where a lifetime that is no positive number stands for the default and a limit
that is no number is passed over.

* `flaw?_default`: the defaults are without flaw.
* `flaw?_eq_none_iff`: what has to hold of settings without flaw.
-/

namespace SealedGraph

namespace Config

/-- Where requests are taken. -/
structure Network where
  address : String
  port : Nat
  deriving DecidableEq, Repr

/-- How long a session lasts, and how many logins may fail in a row; zero for any number. -/
structure Auth where
  lifetime : Nat
  maxFailures : Nat
  deriving DecidableEq, Repr

/-- What is logged, and in which form. -/
structure Logging where
  level : String
  format : String
  deriving DecidableEq, Repr

/-- Whether counters are published, and where. -/
structure Counters where
  enabled : Bool
  port : Nat
  deriving DecidableEq, Repr

end Config

/-- The settings of a server. -/
structure Config where
  network : Config.Network
  auth : Config.Auth
  registry : Registry.Settings
  /-- the file of the master secret -/
  keyFile : Option String
  logging : Config.Logging
  counters : Config.Counters
  deriving DecidableEq, Repr

namespace Config

/-- The lifetime of a session in seconds unless something else is said. -/
def defaultLifetime : Nat := 600

/-- The settings unless something else is said. -/
def default : Config :=
  ⟨⟨"127.0.0.1", 8090⟩, ⟨defaultLifetime, 5⟩, .default, some "cogged.key", ⟨"info", "text"⟩,
    ⟨false, 9090⟩⟩

/-- What is wrong with some settings. -/
inductive Flaw
  | noCapacity
  | noTimeout
  | noWindow
  | unknownFormat (format : String)
  deriving DecidableEq, Repr

/-- The flaw in words. -/
def Flaw.message : Flaw → String
  | noCapacity => "registry.mailbox_capacity must be greater than zero"
  | noTimeout => "registry.call_timeout_ms must be greater than zero"
  | noWindow => "registry.login_failure_window_seconds must be greater than zero"
  | unknownFormat format => "Invalid logging.format: '" ++ format ++ "'. Must be 'text' or 'json'"

/-- The forms of a log. -/
def logFormats : List String := ["text", "json"]

/-- The first flaw of some settings. -/
def flaw? (c : Config) : Option Flaw :=
  if c.registry.capacity = 0 then some .noCapacity
  else if c.registry.timeout = 0 then some .noTimeout
  else if c.registry.window = 0 then some .noWindow
  else if !logFormats.contains c.logging.format then some (.unknownFormat c.logging.format)
  else none

theorem flaw?_default : default.flaw? = none := by decide

theorem flaw?_eq_none_iff (c : Config) :
    c.flaw? = none ↔ 0 < c.registry.capacity ∧ 0 < c.registry.timeout ∧ 0 < c.registry.window ∧
      c.logging.format ∈ logFormats := by
  unfold flaw?
  repeat' split
  all_goals simp_all
  omega

/-- The lifetime that a text stands for: a positive number of seconds, or else the default. -/
def lifetimeOf (text : String) : Nat :=
  match Text.readSigned 10 1 (Text.maxSigned 64) (Text.trim text.toList) with
  | some seconds => seconds.toNat
  | none => defaultLifetime

/-- The setting from outside for the lifetime of a session. -/
def lifetimeSetting : String := "COGGED_TOKEN_TTL"

/-- The setting from outside for the number of logins that may fail. -/
def failuresSetting : String := "COGGED_MAX_FAILED_LOGINS"

/-- The settings after those from outside. -/
def override (c : Config) (lifetime maxFailures : Option String) : Config :=
  { c with
    auth :=
      ⟨(lifetime.map lifetimeOf).getD c.auth.lifetime,
        (maxFailures.bind fun s => Text.readWord 32 (Text.trim s.toList)).getD c.auth.maxFailures⟩ }

end Config

end SealedGraph

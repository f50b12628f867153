import SealedGraph.Config.Basic
import SealedGraph.Yaml.Printer
import SealedGraph.Yaml.Shape

/-!
# Configurations as documents

The settings as sections of members, read and written. Everything may be left out, the whole text
too. The lifetime of a session may be any value: a positive number counts, a text that says one as
well, and all else stands for the default.
-/

namespace SealedGraph.Config

open Yaml (Shape Leaf)

/-- The lifetime that a value stands for. -/
def lifetimeOfMeaning : Yaml.Meaning × String → Nat
  | (.integer i, _) => if 0 < i ∧ i ≤ Text.maxSigned 64 then i.toNat else defaultLifetime
  | (.text, s) => lifetimeOf s
  | _ => defaultLifetime

/-- The lifetime of a session, two collections deep in its document. -/
def lifetimeShape : Shape Nat := fun d t => do
  let value ← Shape.option (Shape.any 2) d t
  return (value.bind fun m => m.map lifetimeOfMeaning).getD defaultLifetime

/-- The section for the network. -/
def Network.shape : Shape Network := fun d t => do
  let ms ← Shape.members d t
  return ⟨← Shape.member ms "bind_address" Shape.text default.network.address d,
    ← Shape.member ms "port" (Shape.word 16) default.network.port d⟩

/-- The section for sessions and logins. -/
def Auth.shape : Shape Auth := fun d t => do
  let ms ← Shape.members d t
  return ⟨← Shape.member ms "token_ttl_seconds" lifetimeShape default.auth.lifetime d,
    ← Shape.member ms "max_failed_logins" (Shape.word 32) default.auth.maxFailures d⟩

/-- The section for the registry. -/
def registryShape : Shape Registry.Settings := fun d t => do
  let ms ← Shape.members d t
  return ⟨← Shape.member ms "mailbox_capacity" (Shape.word 64) default.registry.capacity d,
    ← Shape.member ms "call_timeout_ms" (Shape.word 64) default.registry.timeout d,
    ← Shape.member ms "login_failure_window_seconds" (Shape.word 64) default.registry.window d⟩

/-- The section for the master secret. -/
def secretShape : Shape (Option String) := fun d t => do
  let ms ← Shape.members d t
  Shape.member ms "key_file" (Shape.option Shape.text) default.keyFile d

/-- The section for the log. -/
def Logging.shape : Shape Logging := fun d t => do
  let ms ← Shape.members d t
  return ⟨← Shape.member ms "level" Shape.text default.logging.level d,
    ← Shape.member ms "format" Shape.text default.logging.format d⟩

/-- The section for the counters. -/
def Counters.shape : Shape Counters := fun d t => do
  let ms ← Shape.members d t
  return ⟨← Shape.member ms "enabled" Shape.truth default.counters.enabled d,
    ← Shape.member ms "port" (Shape.word 16) default.counters.port d⟩

/-- A whole configuration. -/
def shape : Shape Config := fun d t => do
  let ms ← Shape.members d t
  return ⟨← Shape.member ms "network" Network.shape default.network d,
    ← Shape.member ms "auth" Auth.shape default.auth d,
    ← Shape.member ms "registry" registryShape default.registry d,
    ← Shape.member ms "secret" secretShape default.keyFile d,
    ← Shape.member ms "logging" Logging.shape default.logging d,
    ← Shape.member ms "metrics" Counters.shape default.counters d⟩

/-- The configuration of a text. -/
def ofText? (text : String) : Option Config :=
  if (Text.trim text.toList).isEmpty then some default else Yaml.read shape text

/-- The text of a configuration. -/
def text (c : Config) : String := String.ofList (
  Yaml.writeSection "network" [("bind_address", .text c.network.address),
    ("port", .number c.network.port)] ++
  Yaml.writeSection "auth" [("token_ttl_seconds", .number c.auth.lifetime),
    ("max_failed_logins", .number c.auth.maxFailures)] ++
  Yaml.writeSection "registry" [("mailbox_capacity", .number c.registry.capacity),
    ("call_timeout_ms", .number c.registry.timeout),
    ("login_failure_window_seconds", .number c.registry.window)] ++
  Yaml.writeSection "secret" [("key_file", .optional c.keyFile)] ++
  Yaml.writeSection "logging" [("level", .text c.logging.level),
    ("format", .text c.logging.format)] ++
  Yaml.writeSection "metrics" [("enabled", .truth c.counters.enabled),
    ("port", .number c.counters.port)])

end SealedGraph.Config

/-
# Configuration

* `Config` — where the service listens, which pages of other origins may use it, where documents
  are kept, and what is logged.
* `Config.ofText` — reading a configuration. Whatever it does not say has a default, and what is
  unknown in it is passed over.
* `Config.text` — writing a configuration in full.
* `Config.load` — the configuration of a file, or the default for a file that is not there.
-/
import Quarry.Error
import Quarry.Toml.Printer
import Quarry.Toml.Reader

namespace Quarry.Server

open Quarry.Text Quarry.Toml

/-! ## The configuration -/

/-- Which pages of other origins may use the service. -/
structure CorsConfig where
  enabled : Bool := false
  /-- The origins that are let in; `*` lets in every origin. -/
  origins : List String := ["*"]
  deriving DecidableEq, Repr

/-- The configuration of the service. -/
structure Config where
  bindAddress : String := "127.0.0.1:9200"
  cors : CorsConfig := {}
  /-- The greatest number of bytes in the body of a request. -/
  maxBodySize : Nat := 100 * 1024 * 1024
  databasePath : String := "sqlsearch.db"
  logFormat : String := "pretty"
  logLevel : String := "info,sqlsearch=debug"
  deriving DecidableEq, Repr

/-! ## Reading -/

/-- Why a file is no configuration. -/
inductive ConfigError where
  /-- It is not TOML. -/
  | malformed
  /-- Something in it is of the wrong type. -/
  | mistyped
  deriving DecidableEq, Repr

/-- The message for a file that is no configuration. -/
def ConfigError.message (_ : ConfigError) : String := ErrorKind.config.message "<toml>"

/-- A setting that changes a value, read from what stands under its key. -/
abbrev Setting (α : Type) := Node → α → Option α

/-- Settings by their keys, in their order. -/
abbrev Settings (α : Type) := List (String × Setting α)

namespace Settings

variable {α : Type}

/-- Reads the settings that a table has. -/
def readEntries (settings : Settings α) : α → Entries → Option α
  | a, [] => some a
  | a, (key, v) :: rest =>
    match settings.lookup key with
    | some setting => (setting v a).bind fun a => readEntries settings a rest
    | none => readEntries settings a rest

/-- Reads settings in their order from a list. -/
def readItems : Settings α → α → List Node → Option α
  | (_, setting) :: settings, a, v :: rest =>
    (setting v a).bind fun a => readItems settings a rest
  | _, a, _ => some a

/-- Reads settings from a table, or from a list of their values. A date counts as a table of which
nothing is known. -/
def read (settings : Settings α) : Setting α
  | .table _ es, a => readEntries settings a es
  | .array vs, a => readItems settings a vs
  | .tables ts, a => readItems settings a (ts.map (.table .stated))
  | .moment, a => some a
  | _, _ => none

end Settings

/-- The string that a node is. -/
def stringOf? : Node → Option String
  | .string s => some s
  | _ => none

/-- The truth value that a node is. -/
def boolOf? : Node → Option Bool
  | .bool b => some b
  | _ => none

/-- The size that a node is. -/
def sizeOf? : Node → Option Nat
  | .int n => if 0 ≤ n then some n.toNat else none
  | _ => none

/-- The strings of a list of nodes. -/
def stringsOf? : List Node → Option (List String)
  | [] => some []
  | v :: rest => do
    let s ← stringOf? v
    let ss ← stringsOf? rest
    return s :: ss

/-- The list of strings that a node is. -/
def stringListOf? : Node → Option (List String)
  | .array vs => stringsOf? vs
  | _ => none

/-- The settings for pages of other origins. -/
def CorsConfig.settings : Settings CorsConfig := [
  ("enabled", fun v c => (boolOf? v).map fun b => { c with enabled := b }),
  ("origins", fun v c => (stringListOf? v).map fun ss => { c with origins := ss })]

namespace Config

/-- The settings of the service itself. -/
def serverSettings : Settings Config := [
  ("bind_addr", fun v c => (stringOf? v).map fun s => { c with bindAddress := s }),
  ("cors", fun v c => (CorsConfig.settings.read v {}).map fun k => { c with cors := k }),
  ("max_body_size", fun v c => (sizeOf? v).map fun n => { c with maxBodySize := n })]

/-- The settings of the store. -/
def storageSettings : Settings Config := [
  ("db_path", fun v c => (stringOf? v).map fun s => { c with databasePath := s })]

/-- The settings of the log. -/
def logSettings : Settings Config := [
  ("log_format", fun v c => (stringOf? v).map fun s => { c with logFormat := s }),
  ("log_level", fun v c => (stringOf? v).map fun s => { c with logLevel := s })]

/-- All settings. -/
def settings : Settings Config := [
  ("server", serverSettings.read),
  ("storage", storageSettings.read),
  ("observability", logSettings.read)]

/-- Reads a configuration. -/
def ofText (s : String) : Except ConfigError Config :=
  match Toml.ofText? s with
  | none => .error .malformed
  | some es =>
    match settings.readEntries {} es with
    | some c => .ok c
    | none => .error .mistyped

/-! ## Writing -/

/-- A configuration in full. -/
def text (c : Config) : String :=
  String.intercalate "\n" [
    sectionText "server" [("bind_addr", quoted c.bindAddress),
      ("max_body_size", Digits.ofNat c.maxBodySize)],
    sectionText "server.cors" [("enabled", boolText c.cors.enabled),
      ("origins", arrayText c.cors.origins)],
    sectionText "storage" [("db_path", quoted c.databasePath)],
    sectionText "observability" [("log_format", quoted c.logFormat),
      ("log_level", quoted c.logLevel)]]

/-! ## Loading -/

/-- A configuration, and the text of the file to make if there is none yet. -/
structure Loaded where
  config : Config
  created : Option String := none
  deriving DecidableEq, Repr

/-- The configuration of a file with the content given, or the default for one that is not there. -/
def load : Option String → Except ConfigError Loaded
  | some content => (ofText content).map fun c => ⟨c, none⟩
  | none => .ok ⟨{}, some (text {})⟩

end Config

end Quarry.Server

/-
# The program

Reads its command line and its configuration, and then answers the requests that come in on standard
input, one after another. Documents are kept as long as it runs.
-/
import Quarry.Http.Service
import Quarry.Http.Wire
import Quarry.Server.Address
import Quarry.Server.Arguments
import Quarry.Server.Cors
import Quarry.Store.Tables

namespace Quarry.Server

open Quarry.Engine Quarry.Http Quarry.Store

/-! ## Starting -/

/-- How the program is called. -/
def usage : String :=
  "Usage: quarry [--config FILE] [--host HOST] [--port PORT] [--db FILE]"

/-- The version of the program. -/
def versionText : String := "quarry 0.3.0"

/-- What is said of a command line that does not start the service. -/
def ArgumentError.text : ArgumentError → String
  | .unknown => "unexpected argument"
  | .noValue => "a value is required for an option"
  | .badValue => "invalid value for an option"
  | .repeated => "an option cannot be used twice"
  | .surplusValue => "unexpected value for an option"
  | .help => usage
  | .version => versionText

/-- The content of a file, if it can be read. -/
def contentOf (path : String) : IO (Option String) := do
  try
    let content ← IO.FS.readFile path
    return some content
  catch _ => return none

/-- The directory of a file, unless it is the one where the program runs. -/
def directoryOf? (path : String) : Option String :=
  match (path.splitOn "/").dropLast with
  | [] => none
  | pieces => some (String.intercalate "/" pieces ++ "/")

/-- Makes a file, with its directory if that is not there either. It does not matter if that
fails. -/
def makeFile (path text : String) : IO Unit := do
  try
    if let some directory := directoryOf? path then IO.FS.createDirAll directory
    IO.FS.writeFile path text
  catch _ => return ()

/-- The configuration of a file, which is made if it is not there. -/
def loadConfig (path : String) : IO (Except ConfigError Config) := do
  match Config.load (← contentOf path) with
  | .error e => return .error e
  | .ok loaded =>
    if let some text := loaded.created then makeFile path text
    return .ok loaded.config

/-! ## Answering -/

/-- The rules for pages of other origins, as they bear on a request. -/
def corsRequestOf (h : Head) : CorsRequest := ⟨h.header? "origin", h.method == "OPTIONS"⟩

/-- The response to a request, and what becomes of the world. -/
def respondTo (c : Config) (h : Head) (body : List UInt8) (w : Program.World Tables) :
    Response × Program.World Tables :=
  if h.method = "OPTIONS" then (⟨200, .empty, []⟩, w)
  else if c.maxBodySize < body.length then (⟨413, .empty, []⟩, w)
  else Program.run Tables.store (serve ⟨h.method, h.path, body⟩) w

/-- Reads lines up to an empty one. -/
partial def readHead (input : IO.FS.Stream) (lines : List String) : IO (List String) := do
  let line ← input.getLine
  let text := Text.trim line
  if text.isEmpty then return lines.reverse else readHead input (text :: lines)

/-- Reads a number of bytes, or as many as there are. -/
partial def readBytes (input : IO.FS.Stream) (count : Nat) (done : ByteArray) : IO ByteArray := do
  if count ≤ done.size then return done
  let chunk ← input.read (count - done.size).toUSize
  if chunk.isEmpty then return done else readBytes input count (done ++ chunk)

/-- Answers requests until there are no more. -/
partial def answerAll (c : Config) (input output : IO.FS.Stream) (w : Program.World Tables) :
    IO Unit := do
  match Head.ofLines? (← readHead input []) with
  | none => return
  | some head =>
    let body ← readBytes input head.bodyLength .empty
    let (response, w) := respondTo c head body.toList w
    output.putStr (response.wire (corsHeaders c.cors (corsRequestOf head)))
    output.flush
    answerAll c input output w

/-- Starts the service. -/
def start (a : Arguments) : IO UInt32 := do
  match ← loadConfig a.config with
  | .error e =>
    IO.eprintln e.message
    return 1
  | .ok c =>
    IO.eprintln ("Serving " ++ ((Address.ofText c.bindAddress).override a.host a.port).text)
    answerAll c (← IO.getStdin) (← IO.getStdout) ⟨{}, {}⟩
    return 0

end Quarry.Server

/-- Reads the command line and starts the service. -/
def main (args : List String) : IO UInt32 := do
  match Quarry.Server.Arguments.ofList args with
  | .ok a => Quarry.Server.start a
  | .error .help =>
    IO.println Quarry.Server.usage
    return 0
  | .error .version =>
    IO.println Quarry.Server.versionText
    return 0
  | .error e =>
    IO.eprintln ("error: " ++ e.text)
    return 2

import PredictionMarket.Http.Wire
import PredictionMarket.Program.Run
import Std.Async.DNS
import Std.Async.System
import Std.Async.TCP
import Std.Async.Timer

/-!
# The command line

The program with the machine that it runs on as its host: the answers to its questions, and what its
ending means.
-/

namespace PredictionMarket

open Std.Async

/-! ### The machine -/

namespace Machine

def now : IO Instant := do
  let time ← Std.Time.Timestamp.now
  match Instant.ofMillis? time.toMillisecondsSinceUnixEpoch.val with
  | some t => return t
  | none => throw (IO.userError "The clock shows no time")

/-- A number by chance. -/
def number : IO UInt64 := do
  let bytes ← IO.getRandomBytes 8
  return bytes.foldl (fun n b => n * 256 + b.toUInt64) 0

/-- Whether something on files succeeds. -/
def succeeds (action : IO Unit) : IO Bool := do
  match ← action.toBaseIO with
  | .ok _ => return true
  | .error _ => return false

def write (mode : IO.FS.Mode) (path text : String) : IO Unit := do
  let file ← IO.FS.Handle.mk path mode
  file.putStr text
  file.flush

/-- The address of a socket of a server. -/
def socketAddress (ip : Std.Net.IPAddr) (service : UInt16) : Std.Net.SocketAddress :=
  match ip with
  | .v4 addr => .v4 ⟨addr, service⟩
  | .v6 addr => .v6 ⟨addr, service⟩

/-- All bytes that arrive until the connection ends. -/
partial def receive (client : TCP.Socket.Client) (received : ByteArray) : Async ByteArray := do
  match ← client.recv? 65536 with
  | some bytes => if bytes.isEmpty then return received else receive client (received ++ bytes)
  | none => return received

/-- A connection to the first of some addresses that has one. -/
def connect (service : UInt16) : List Std.Net.IPAddr → Async TCP.Socket.Client
  | [] => throw (IO.userError "No connection")
  | ip :: ips => do
    try
      let client ← TCP.Socket.Client.mk
      client.connect (socketAddress ip service)
      return client
    catch _ => connect service ips

/-- What a server replies to bytes. -/
def exchange (u : Http.Url) (bytes : ByteArray) : Async Http.Reply := do
  let service := u.service.getD Http.usualService
  let ips ← DNS.getAddrInfo u.host (toString service)
  let client ← connect service.toUInt16 ips.toList
  client.send bytes
  return .ofBytes (← receive client .empty).toList

/-- A reply that comes after some seconds, where nothing came back before. -/
def expire (seconds : UInt64) : Async Http.Reply := do
  sleep (.ofNat (seconds.toNat * 1000))
  return .unreachable

instance : Inhabited Http.Reply := ⟨.unreachable⟩

/-- The reply to a request within some seconds. -/
def send (seconds : UInt64) (r : Http.Request) : IO Http.Reply := do
  match Http.Url.ofText? r.url with
  | none => return .unreachable
  | some u =>
    try
      (Async.race (exchange u (r.bytes u)) (expire seconds)).block
    catch _ => return .unreachable

/-- How many directories are above the one in which the program runs. -/
def directoriesAbove : IO Nat := do
  let path ← IO.currentDir
  return (path.toString.splitOn "/" |>.filter (· != "")).length

/-- What is at a path. -/
def examine (path : String) : IO Host.Finding := do
  match ← (IO.FS.Handle.mk path .read).toBaseIO with
  | .ok _ => return .file
  | .error (.noFileOrDirectory ..) => return .nothing
  | .error (.inappropriateType ..) => return .nothing
  | .error _ => return .unknown

/-- The lines of a file up to the first one that is no text. -/
def readLines (path : String) : IO (List String) := do
  let bytes := (← (IO.FS.readBinFile path).toBaseIO).toOption.getD .empty
  let texts := (bytes.toList.splitOn 10).map fun line => String.fromUTF8? ⟨line.toArray⟩
  return (texts.takeWhile Option.isSome).filterMap id

/-- A reply with the milliseconds that it takes. -/
def timed (reply : IO Http.Reply) : IO Http.TimedReply := do
  let start ← IO.monoMsNow
  let reply ← reply
  return ⟨(← IO.monoMsNow) - start, reply⟩

/-- The replies to two requests that are under way together. -/
def sendBoth (seconds : UInt64) (first second : Http.Request) :
    IO (Http.TimedReply × Http.TimedReply) := do
  let task ← IO.asTask (timed (send seconds first))
  let second ← timed (send seconds second)
  return (← IO.ofExcept task.get, second)

/-- The answers of the machine. -/
def answer : (q : Host.Question) → IO q.Answer
  | .print line => IO.println line
  | .directoriesAbove => do return (← directoriesAbove.toBaseIO).toOption
  | .examine path => examine path
  | .readLines path => readLines path
  | .readFile path => do return (← (IO.FS.readFile path).toBaseIO).toOption
  | .hasFile path => succeeds (discard (IO.FS.Handle.mk path .read))
  | .createFile path text => succeeds (write .write path text)
  | .extendFile path text => succeeds (write .append path text)
  | .now => now
  | .number => number
  | .send _ seconds r => send seconds r
  | .sendBoth seconds first second => sendBoth seconds first second

/-- Goes on with a chat until the user stops the program. -/
partial def follow (f : Program.Following) : IO Unit := do
  IO.sleep (min (f.setup.settings.pollingInterval.toNat * 1000) (UInt32.size - 1)).toUInt32
  follow (← f.next.run answer)

end Machine

end PredictionMarket

open PredictionMarket

/-- Runs the program for its arguments. -/
def main (args : List String) : IO UInt32 := do
  let vars ← Std.Internal.UV.System.osEnviron
  let ending ← (Program.run args (.ofTexts vars.toList)).run Machine.answer
  match ending with
  | .failure complaint => IO.eprintln (Program.complaintLine complaint)
  | .misuse => IO.eprintln ("\n".intercalate Program.usage)
  | .following f => Machine.follow f
  | .success => pure ()
  return ending.code

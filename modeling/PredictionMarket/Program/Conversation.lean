import PredictionMarket.Program.Lines
import PredictionMarket.Program.Setup

/-!
# The command of the chat

The chat of a market is printed, after a message is sent where there is one. A user may follow it:
then it goes on step by step, each step printing what is new.

## Main definitions

* `Program.chat`: a message to send, and the messages there are.
* `Program.Following`, `Program.Following.next`: a chat that goes on.
-/

namespace PredictionMarket

namespace Program

variable (s : Setup)

/-- The chat after a message was sent. -/
def sendMessage (session : ChatSession) (text : String) : Host.Attempt ChatSession := do
  let m ← Host.attempt ((Outgoing.make s.environment.account text).mapError ChatError.message)
  let call := s.app.postCall session.market m
  let reply : Http.Reply ← (Host.send .app s.timeout call.request :)
  let (outcome, session) := session.posted session.binding (call.result reply)
  let _ ← Host.attempt (outcome.mapError ChatError.message)
  return session

/-- The chat after the server was asked for messages, and how many of them are new. -/
def fetchMessages (session : ChatSession) : Host.Session (Except String Nat × ChatSession) := do
  let call := s.app.messagesCall session.market
  let reply ← Host.send .app s.timeout call.request
  return session.fetched session.binding (call.result reply)

/-- A chat that was printed. -/
structure Following where
  setup : Setup
  session : ChatSession
  /-- How many messages were printed. -/
  shown : Nat

/-- The lines of the messages of a chat from some number on. -/
def messageLines (session : ChatSession) (shown : Nat) : List String :=
  (session.log.messages.drop shown).map ChatMessage.line

/-- Prints the chat of a market, after a message was sent. -/
def chat (market : String) (message : Option String) : Host.Attempt Following := do
  let session := ChatSession.start market
  let session ←
    match message with
    | some text => sendMessage s session text
    | none => pure session
  let (outcome, session) ← (fetchMessages s session : Host.Session _)
  let _ ← Host.attempt outcome
  Host.report (messageLines session 0)
  return ⟨s, session, session.log.messages.length⟩

/-- Asks for messages and prints those that are new. A failure is passed over. -/
def Following.next (f : Following) : Host.Session Following := do
  let (_, session) ← fetchMessages f.setup f.session
  Host.printAll (messageLines session f.shown)
  return { f with session, shown := max f.shown session.log.messages.length }

end Program

end PredictionMarket

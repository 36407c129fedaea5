import Mirage.Foundations.Encodings
import Mirage.Foundations.Run
import Mirage.Foundations.Splitting
import Mirage.Foundations.Text

/-!
# The command bus

`handle_client` serves one client.  Its `select!` waits for the next line of the
client, for two timers which push events, and for the stop signal; the futures
of the branches which lose are dropped.  `read_line` moves bytes from the stream
to its buffer until it finds a newline or the end of the stream, and what it has
moved stays in the buffer when it is dropped.  A poll of it may leave bytes of
the stream for the next poll.

`sent` is all the client has written.  What a command does is left out.
-/

namespace Mirage

open Mirage.Foundations

def newline : UInt8 := 10

/-- Why the loop was left. -/
inductive ClientEnd where
  | stopped
  | pushFailed
  | disconnected
  | notUtf8
  deriving DecidableEq

structure CommandClient where
  sent : List UInt8
  /-- The client has closed its side. -/
  closed : Bool
  /-- What has arrived and is not read. -/
  inbox : List UInt8
  lineBuf : List UInt8
  /-- The lines that `read_line` returned. -/
  processed : List (List UInt8)
  /-- What it returned at the end of the stream. -/
  unterminated : List UInt8
  /-- The texts that were handed to `from_str`. -/
  commands : List String
  ended : Option ClientEnd

inductive ClientEvent where
  | arrive (bytes : List UInt8)
  | close
  /-- A poll of `read_line` that looks at `limit` bytes. -/
  | readLine (limit : ℕ)
  /-- One of the timers wins; `ok` if its event can be written. -/
  | push (ok : Bool)
  | stop
  deriving DecidableEq

/-- The command of a text which `read_line` returned, if it is not blank. -/
def command (text : String) : List String :=
  let trimmed := trim text
  if trimmed = "" then [] else [trimmed]

namespace CommandClient

def start : CommandClient :=
  ⟨[], false, [], [], [], [], [], none⟩

/-- What a poll of `read_line` completes, if it does. -/
def completes (client : CommandClient) (limit : ℕ) : Option (List UInt8) :=
  match splitFirst newline (client.inbox.take limit) with
  | some (before, _) => some (client.lineBuf ++ before ++ [newline])
  | none =>
      if client.closed ∧ client.inbox.length ≤ limit then some (client.lineBuf ++ client.inbox)
      else none

/-- The branch of `read_line`; the buffer is cleared for the next round. -/
def readLine (client : CommandClient) (limit : ℕ) : CommandClient :=
  match splitFirst newline (client.inbox.take limit) with
  | some (before, _) =>
      let line := client.lineBuf ++ before ++ [newline]
      let rest := client.inbox.drop (before.length + 1)
      match fromUtf8 line with
      | some text =>
          { client with
            inbox := rest
            lineBuf := []
            processed := client.processed ++ [line]
            commands := client.commands ++ command text }
      | none => { client with inbox := rest, lineBuf := line, ended := some .notUtf8 }
  | none =>
      if client.closed ∧ client.inbox.length ≤ limit then
        let text := client.lineBuf ++ client.inbox
        if text = [] then { client with ended := some .disconnected }
        else
          match fromUtf8 text with
          | some decoded =>
              { client with
                inbox := []
                lineBuf := []
                unterminated := text
                commands := client.commands ++ command decoded }
          | none => { client with inbox := [], lineBuf := text, ended := some .notUtf8 }
      else
        { client with
          inbox := client.inbox.drop limit
          lineBuf := client.lineBuf ++ client.inbox.take limit }

/-- The branch of a timer; the round after it starts with an empty buffer. -/
def push (client : CommandClient) (ok : Bool) : CommandClient :=
  if ok then { client with lineBuf := [] } else { client with ended := some .pushFailed }

def step (client : CommandClient) : ClientEvent → CommandClient
  | .arrive bytes =>
      if client.closed then client
      else { client with sent := client.sent ++ bytes, inbox := client.inbox ++ bytes }
  | .close => { client with closed := true }
  | .readLine limit => if client.ended = none then client.readLine limit else client
  | .push ok => if client.ended = none then client.push ok else client
  | .stop => if client.ended = none then { client with ended := some .stopped } else client

end CommandClient

end Mirage

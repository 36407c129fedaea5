import Mirage.Crypto.ClientHello
import Mirage.Foundations.Buffers
import Mirage.Foundations.Text

/-!
# Flights of a server as templates

What servers have sent up to their first encrypted record is kept and sent again, with
a random and the session identifier of the client in it.  Where none could be kept, a
flight is made up.
-/

namespace Mirage.Crypto

open Mirage.Foundations
open Mirage.Foundations.Checked (done writes)

/-- The loop over the records: those of the three types which have been seen -/
def completeFrom (t : List UInt8) (pos : ℕ) (sh ccs enc : Bool) : Bool :=
  if pos + 5 ≤ t.length then
    let ct := numberAt t pos 1
    let len := numberAt t (pos + 3) 2
    if pos + 5 + len > t.length then false
    else completeFrom t (pos + (5 + len)) (sh || ct == 0x16) (ccs || ct == 0x14) (enc || ct == 0x17)
  else pos == t.length && sh && ccs && enc
termination_by t.length - pos

def templateIsComplete (t : List UInt8) : Bool :=
  completeFrom t 0 false false false

/-- `clamp(0, high)` -/
def clamp (value : ℤ) (high : ℕ) : ℕ :=
  min value.toNat high

/-- What `rand::fill` puts in as the random is an argument. -/
def patchServerHello (flight clientSessionId : List UInt8) (newRandom : Bytes32) :
    Checked (List UInt8) :=
  if flight.length < 44 ∨ numberAt flight 0 1 ≠ 0x16 then done flight
  else
    let sidLen := numberAt flight 43 1
    if flight.length < 44 + sidLen then done flight
    else
      let diff : ℤ := clientSessionId.length - sidLen
      let result := flight.take 43 ++ (UInt8.ofNat clientSessionId.length ::
        (clientSessionId ++ flight.drop (44 + sidLen)))
      let oldRecordLen := numberAt flight 3 2
      let oldHsLen := numberAt flight 6 3
      let newRecordLen := clamp (oldRecordLen + diff) u16Max
      let newHsLen := clamp (oldHsLen + diff) 0xFFFFFF
      writes result [(11, newRandom.1), (3, bigEndian 2 newRecordLen), (6, bigEndian 3 newHsLen)]

def getSessionId (clientHello : List UInt8) : Option (List UInt8) :=
  if clientHello.length < 44 then none
  else
    let sidLen := numberAt clientHello 43 1
    if clientHello.length ≥ 44 + sidLen then some (bytesAt clientHello 44 sidLen) else none

/-- `get_session_id(client_hello).unwrap_or(&[])` -/
def clientSessionId (clientHello : List UInt8) : List UInt8 :=
  (getSessionId clientHello).getD []

/-- `as_chunks::<2>` without the remainder -/
def chunkPairs : List UInt8 → List (UInt8 × UInt8)
  | first :: second :: rest => (first, second) :: chunkPairs rest
  | _ => []

/-- The preferred one of the ciphers which the client offers -/
def pickCipher (clientHello : List UInt8) : UInt8 × UInt8 :=
  let default := (0x13, 0x01)
  if clientHello.length < 44 then default
  else
    let off := 44 + numberAt clientHello 43 1
    if clientHello.length < off + 2 then default
    else
      let stop := min (off + 2 + numberAt clientHello off 2) clientHello.length
      let pairs := chunkPairs (bytesAt clientHello (off + 2) (stop - (off + 2)))
      let prefs : List (UInt8 × UInt8) := [(0x13, 0x02), (0x13, 0x01), (0x13, 0x03)]
      (prefs.find? fun pref => pref ∈ pairs).getD default

/-- What a made-up flight draws: its random, a share of a key, and what looks encrypted -/
structure FallbackDraws where
  random : Bytes32
  share : Bytes32
  encrypted : List UInt8
  size : 2800 ≤ encrypted.length ∧ encrypted.length < 4200

/-- The server hello: a random, the session identifier, a cipher and two extensions -/
def fallbackBody (clientHello clientSessionId : List UInt8) (draws : FallbackDraws) : List UInt8 :=
  let cipher := pickCipher clientHello
  let exts := [0x00, 0x2B, 0x00, 0x02, 0x03, 0x04] ++
    ([0x00, 0x33, 0x00, 0x24, 0x00, 0x1D, 0x00, 0x20] ++ draws.share.1)
  [0x03, 0x03] ++ (draws.random.1 ++ (UInt8.ofNat clientSessionId.length ::
    (clientSessionId ++ ([cipher.1, cipher.2] ++ (0x00 :: (bigEndian 2 exts.length ++ exts))))))

def fallbackServerHello (clientHello clientSessionId : List UInt8) (draws : FallbackDraws) :
    List UInt8 :=
  let hsBody := fallbackBody clientHello clientSessionId draws
  [0x16, 0x03, 0x03] ++ (bigEndian 2 (4 + hsBody.length) ++ (0x02 :: (bigEndian 3 hsBody.length ++
    (hsBody ++ ([0x14, 0x03, 0x03, 0x00, 0x01, 0x01] ++ ([0x17, 0x03, 0x03] ++
      (bigEndian 2 draws.encrypted.length ++ draws.encrypted)))))))

end Mirage.Crypto

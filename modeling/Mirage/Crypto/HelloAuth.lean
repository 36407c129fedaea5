import Mathlib.Data.Finset.Card
import Mirage.Foundations.MutualMaps
import Mirage.Foundations.Run
import Mirage.Foundations.Sealing
import Mirage.Foundations.Text

/-!
# Session tokens

A session token hides the time at which it was made and carries a tag over that
time and the connection it is made for.  The server accepts it within a
tolerance of its own clock and remembers it, in buckets by the time of the
token; buckets which are far below the highest one so far are dropped.
-/

namespace Mirage.Crypto

open Mirage.Foundations

/-- The functions which the token code takes from other libraries. -/
structure TokenPrimitives where
  sha256 : List UInt8 → List UInt8
  hmacSha256 : List UInt8 → List UInt8 → List UInt8
  poly1305 : List UInt8 → List UInt8 → List UInt8

def saturatingAdd (first second : ℕ) : ℕ := min (first + second) u64Max

def tokenDomain : List UInt8 := "mirage-token-v2".toUTF8.toList

def replayBucketSecs : ℕ := 10

section Tokens

variable (primitives : TokenPrimitives)

def tsMask (password : String) (randomPrefix : List UInt8) : List UInt8 :=
  (primitives.hmacSha256 (primitives.sha256 password.toUTF8.toList) randomPrefix).take 8

def poly1305Tag (password tsBytes randomPrefix bind : List UInt8) : List UInt8 :=
  primitives.poly1305 (primitives.sha256 (password ++ tsBytes ++ randomPrefix ++ tokenDomain))
    (tsBytes ++ bind)

/-- `hidden_ts[i] = ts_bytes[i] ^ mask[i]`, which is its own inverse. -/
def maskBytes (bytes mask : List UInt8) : List UInt8 :=
  List.zipWith (· ^^^ ·) bytes mask

/-- `make_session_token` at the time `ts`, with the random bytes it draws. -/
def makeSessionToken (password : String) (bind randomPrefix : List UInt8) (ts : ℕ) : List UInt8 :=
  randomPrefix ++ maskBytes (bigEndian 8 ts) (tsMask primitives password randomPrefix) ++
    poly1305Tag primitives password.toUTF8.toList (bigEndian 8 ts) randomPrefix bind

/-- The bytes of the time which a token hides. -/
def tokenTsBytes (password : String) (token : List UInt8) : List UInt8 :=
  maskBytes ((token.drop 8).take 8) (tsMask primitives password (token.take 8))

/-- The tag of the token is the one which the password gives. -/
def tagMatches (password : String) (token bind : List UInt8) : Bool :=
  poly1305Tag primitives password.toUTF8.toList (tokenTsBytes primitives password token)
    (token.take 8) bind == (token.drop 16).take 16

end Tokens

/-- `seen`: the highest bucket so far, and the tokens seen in each bucket. -/
structure TokenReplayCache where
  hwm : ℕ
  seen : FiniteMap ℕ (Finset (List UInt8))

namespace TokenReplayCache

def new : TokenReplayCache := ⟨0, ∅⟩

/-- The bucket lies so far below the highest one that the clock must have gone back. -/
def RolledBack (cache : TokenReplayCache) (currentBucket retainBuckets : ℕ) : Prop :=
  saturatingAdd currentBucket retainBuckets < cache.hwm

instance (cache : TokenReplayCache) (currentBucket retainBuckets : ℕ) :
    Decidable (cache.RolledBack currentBucket retainBuckets) :=
  inferInstanceAs (Decidable (_ < _))

/-- Start again after a rollback, or raise the highest bucket; then drop what is far below it. -/
def advance (cache : TokenReplayCache) (currentBucket retainBuckets : ℕ) : TokenReplayCache :=
  let current : TokenReplayCache :=
    if cache.RolledBack currentBucket retainBuckets then ⟨currentBucket, ∅⟩
    else ⟨max cache.hwm currentBucket, cache.seen⟩
  { current with
    seen := current.seen.retain fun bucket => decide (current.hwm - bucket ≤ retainBuckets) }

def bucket (cache : TokenReplayCache) (index : ℕ) : Finset (List UInt8) :=
  (cache.seen.lookup index).getD ∅

def checkAndInsert (cache : TokenReplayCache) (ts : ℕ) (token : List UInt8) (retainBuckets : ℕ) :
    TokenReplayCache × Bool :=
  let currentBucket := ts / replayBucketSecs
  let advanced := cache.advance currentBucket retainBuckets
  let bucket := advanced.bucket currentBucket
  if 100000 < bucket.card then
    ({ advanced with seen := advanced.seen.insert currentBucket bucket }, false)
  else
    ({ advanced with seen := advanced.seen.insert currentBucket (insert token bucket) },
      decide (token ∉ bucket))

end TokenReplayCache

def TsWithinTolerance (ts now tolerance : ℕ) : Prop :=
  now ≤ saturatingAdd ts tolerance ∧ ts ≤ saturatingAdd now tolerance

instance (ts now tolerance : ℕ) : Decidable (TsWithinTolerance ts now tolerance) :=
  inferInstanceAs (Decidable (_ ∧ _))

/-- The buckets to retain for a tolerance; the product is a `u64`. -/
def retainBuckets (tolerance : ℕ) : ℕ := 2 * tolerance % 2 ^ 64 / replayBucketSecs + 2

/-- A call of `verify_session_token`, with the clock reading it makes. -/
structure Verification where
  now : ℕ
  password : String
  token : List UInt8
  bind : List UInt8
  deriving DecidableEq, Repr

section Verify

variable (primitives : TokenPrimitives) (tolerance : ℕ)

/-- The time of a token which passes the tag and the clock check. -/
def Verification.freshTs (call : Verification) : Option ℕ :=
  if tagMatches primitives call.password call.token call.bind then
    let ts := ofBigEndian (tokenTsBytes primitives call.password call.token)
    if TsWithinTolerance ts call.now tolerance then some ts else none
  else none

def verifySessionToken (cache : TokenReplayCache) (call : Verification) :
    TokenReplayCache × Bool :=
  match call.freshTs primitives tolerance with
  | some ts => cache.checkAndInsert ts call.token (retainBuckets tolerance)
  | none => (cache, false)

structure TokenServer where
  cache : TokenReplayCache
  accepted : List (List UInt8)

def TokenServer.new : TokenServer := ⟨.new, []⟩

def TokenServer.verify (server : TokenServer) (call : Verification) : TokenServer where
  cache := (verifySessionToken primitives tolerance server.cache call).1
  accepted :=
    if (verifySessionToken primitives tolerance server.cache call).2 then
      server.accepted ++ [call.token]
    else server.accepted

end Verify

section RoundTrip

theorem maskBytes_self {bytes mask : List UInt8} (covered : bytes.length ≤ mask.length) :
    maskBytes (maskBytes bytes mask) mask = bytes := by
  induction bytes generalizing mask with
  | nil => rfl
  | cons byte rest ih =>
      cases mask with
      | nil => simp at covered
      | cons first others =>
          simp only [List.length_cons, Nat.add_le_add_iff_right] at covered
          have masked := ih covered
          simp only [maskBytes, List.zipWith_cons_cons] at masked ⊢
          rw [masked, UInt8.xor_assoc, UInt8.xor_self, UInt8.xor_zero]

/-- A token passes the tag check under its password, and shows the time it was made at. -/
theorem tagMatches_makeSessionToken {primitives : TokenPrimitives} {password : String}
    {bind randomPrefix : List UInt8} {ts : ℕ} (prefixLength : randomPrefix.length = 8)
    (macLength : ∀ key message, 8 ≤ (primitives.hmacSha256 key message).length)
    (tagLength : ∀ key message, (primitives.poly1305 key message).length = 16)
    (fits : ts < 2 ^ 64) :
    tagMatches primitives password (makeSessionToken primitives password bind randomPrefix ts)
        bind = true ∧
      ofBigEndian (tokenTsBytes primitives password
        (makeSessionToken primitives password bind randomPrefix ts)) = ts := by
  have maskLength : (tsMask primitives password randomPrefix).length = 8 := by
    simpa [tsMask] using macLength _ _
  have hiddenLength : (maskBytes (bigEndian 8 ts)
      (tsMask primitives password randomPrefix)).length = 8 := by
    simp [maskBytes, maskLength]
  have tsBytes : tokenTsBytes primitives password
      (makeSessionToken primitives password bind randomPrefix ts) = bigEndian 8 ts := by
    rw [tokenTsBytes, makeSessionToken, List.append_assoc, List.take_left' prefixLength,
      List.drop_left' prefixLength, List.take_left' hiddenLength]
    apply maskBytes_self
    rw [bigEndian_length, maskLength]
  refine ⟨?_, ?_⟩
  · rw [tagMatches, tsBytes, makeSessionToken]
    have tag : (poly1305Tag primitives password.toUTF8.toList (bigEndian 8 ts) randomPrefix
        bind).length = 16 := tagLength _ _
    rw [List.drop_left' (by rw [List.length_append, prefixLength, hiddenLength]),
      List.take_of_length_le tag.le, List.append_assoc, List.take_left' prefixLength]
    exact beq_self_eq_true _
  · rw [tsBytes]
    apply ofBigEndian_bigEndian
    simpa using fits

end RoundTrip

end Mirage.Crypto

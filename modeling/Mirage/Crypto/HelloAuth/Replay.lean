import Mirage.Crypto.HelloAuth

/-!
# Replay protection

A token is accepted at most once as long as the cache is not started again.  A
token which is no longer remembered lies so far below the highest bucket that
verifying it takes the branch for a clock that went back, and that branch
forgets everything: after it, old tokens are accepted again once the clock has
caught up.
-/

namespace Mirage.Crypto

open Mirage.Foundations

variable {primitives : TokenPrimitives} {tolerance : ℕ} {cache : TokenReplayCache}
  {server : TokenServer} {call : Verification}

section Cache

theorem TokenReplayCache.advance_hwm {currentBucket retained : ℕ}
    (kept : ¬cache.RolledBack currentBucket retained) :
    (cache.advance currentBucket retained).hwm = max cache.hwm currentBucket := by
  simp only [TokenReplayCache.advance, if_neg kept]

theorem TokenReplayCache.bucket_advance {currentBucket retained : ℕ}
    (kept : ¬cache.RolledBack currentBucket retained) (index : ℕ) :
    (cache.advance currentBucket retained).bucket index =
      if max cache.hwm currentBucket - index ≤ retained then cache.bucket index else ∅ := by
  simp only [TokenReplayCache.bucket, TokenReplayCache.advance, if_neg kept,
    FiniteMap.lookup_retain, decide_eq_true_eq]
  split
  · rfl
  · rfl

/-- The bucket of the token is always within reach of the highest one. -/
theorem TokenReplayCache.bucket_advance_self {currentBucket retained : ℕ}
    (kept : ¬cache.RolledBack currentBucket retained) :
    (cache.advance currentBucket retained).bucket currentBucket = cache.bucket currentBucket := by
  rw [cache.bucket_advance kept, if_pos]
  rw [TokenReplayCache.RolledBack, saturatingAdd] at kept
  omega

theorem TokenReplayCache.checkAndInsert_hwm (ts : ℕ) (token : List UInt8) (retained : ℕ) :
    (cache.checkAndInsert ts token retained).1.hwm =
      (cache.advance (ts / replayBucketSecs) retained).hwm := by
  simp only [TokenReplayCache.checkAndInsert]
  split
  · rfl
  · rfl

theorem TokenReplayCache.bucket_checkAndInsert (ts : ℕ) (token : List UInt8) (retained : ℕ)
    (index : ℕ) :
    (cache.advance (ts / replayBucketSecs) retained).bucket index ⊆
      (cache.checkAndInsert ts token retained).1.bucket index := by
  simp only [TokenReplayCache.checkAndInsert]
  by_cases same : index = ts / replayBucketSecs
  · subst same
    split
    · simp [TokenReplayCache.bucket]
    · simp only [TokenReplayCache.bucket, AList.lookup_insert, Option.getD_some]
      exact Finset.subset_insert token _
  · split
    · simp [TokenReplayCache.bucket, AList.lookup_insert_ne same]
    · simp [TokenReplayCache.bucket, AList.lookup_insert_ne same]

/-- An accepted token is new in its bucket, and in it from then on. -/
theorem TokenReplayCache.checkAndInsert_accepts {ts retained : ℕ} {token : List UInt8}
    (accepts : (cache.checkAndInsert ts token retained).2 = true) :
    token ∉ (cache.advance (ts / replayBucketSecs) retained).bucket (ts / replayBucketSecs) ∧
      token ∈ (cache.checkAndInsert ts token retained).1.bucket (ts / replayBucketSecs) := by
  simp only [TokenReplayCache.checkAndInsert] at accepts ⊢
  split at accepts
  · exact absurd accepts Bool.false_ne_true
  · rename_i room
    rw [decide_eq_true_eq] at accepts
    rw [if_neg room]
    refine ⟨accepts, ?_⟩
    simp only [TokenReplayCache.bucket, AList.lookup_insert, Option.getD_some]
    exact Finset.mem_insert_self token _

end Cache

section OneAcceptance

/-- The bucket of a token under the password it was issued for. -/
def tokenBucket (primitives : TokenPrimitives) (password : String) (token : List UInt8) : ℕ :=
  ofBigEndian (tokenTsBytes primitives password token) / replayBucketSecs

/-- The call does not start the cache again. -/
def KeepsCache (primitives : TokenPrimitives) (tolerance : ℕ) (server : TokenServer)
    (call : Verification) : Prop :=
  ∀ ts ∈ call.freshTs primitives tolerance,
    ¬server.cache.RolledBack (ts / replayBucketSecs) (retainBuckets tolerance)

instance (primitives : TokenPrimitives) (tolerance : ℕ) (server : TokenServer)
    (call : Verification) : Decidable (KeepsCache primitives tolerance server call) :=
  inferInstanceAs (Decidable (∀ ts ∈ call.freshTs primitives tolerance, _))

/-- Only issued tokens pass the tag check, each under the password it was issued for. -/
def OnlyIssued (primitives : TokenPrimitives) (issued : List UInt8 → Option String)
    (call : Verification) : Prop :=
  tagMatches primitives call.password call.token call.bind = true →
    issued call.token = some call.password

/--
An accepted token is in its bucket, or its bucket has fallen behind so far that
verifying the token again would start the cache again.
-/
structure RemembersAccepted (primitives : TokenPrimitives) (tolerance : ℕ)
    (issued : List UInt8 → Option String) (server : TokenServer) : Prop where
  nodup : server.accepted.Nodup
  remembered : ∀ token ∈ server.accepted, ∀ password, issued token = some password →
    token ∈ server.cache.bucket (tokenBucket primitives password token) ∨
      tokenBucket primitives password token + retainBuckets tolerance < server.cache.hwm

theorem freshTs_eq_some {ts : ℕ} (fresh : call.freshTs primitives tolerance = some ts) :
    tagMatches primitives call.password call.token call.bind = true ∧
      ts = ofBigEndian (tokenTsBytes primitives call.password call.token) ∧
      TsWithinTolerance ts call.now tolerance := by
  rw [Verification.freshTs] at fresh
  split at fresh
  · rename_i tagged
    simp only at fresh
    split at fresh
    · rename_i within
      rw [Option.some.injEq] at fresh
      subst fresh
      exact ⟨tagged, rfl, within⟩
    · exact nomatch fresh
  · exact nomatch fresh

theorem verify_of_stale (stale : call.freshTs primitives tolerance = none) :
    server.verify primitives tolerance call = server := by
  simp [TokenServer.verify, verifySessionToken, stale]

theorem RemembersAccepted.verify {issued : List UInt8 → Option String}
    (remembers : RemembersAccepted primitives tolerance issued server)
    (onlyIssued : OnlyIssued primitives issued call)
    (keeps : KeepsCache primitives tolerance server call) :
    RemembersAccepted primitives tolerance issued (server.verify primitives tolerance call) := by
  cases fresh : call.freshTs primitives tolerance with
  | none =>
      rw [verify_of_stale fresh]
      exact remembers
  | some ts =>
      rcases freshTs_eq_some fresh with ⟨tagged, shown, _⟩
      have owner := onlyIssued tagged
      have kept := keeps ts fresh
      have ownBucket : tokenBucket primitives call.password call.token = ts / replayBucketSecs := by
        rw [tokenBucket, shown]
      have hwmAfter := server.cache.checkAndInsert_hwm ts call.token (retainBuckets tolerance)
      rw [TokenReplayCache.advance_hwm kept] at hwmAfter
      have stillRemembered : ∀ token ∈ server.accepted, ∀ password,
          issued token = some password →
          token ∈ (server.cache.checkAndInsert ts call.token (retainBuckets tolerance)).1.bucket
              (tokenBucket primitives password token) ∨
            tokenBucket primitives password token + retainBuckets tolerance <
              (server.cache.checkAndInsert ts call.token (retainBuckets tolerance)).1.hwm := by
        intro token member password issuedFor
        rw [hwmAfter]
        rcases remembers.remembered token member password issuedFor with present | behind
        · by_cases within : max server.cache.hwm (ts / replayBucketSecs) -
              tokenBucket primitives password token ≤ retainBuckets tolerance
          · left
            apply TokenReplayCache.bucket_checkAndInsert
            rwa [TokenReplayCache.bucket_advance kept, if_pos within]
          · right
            omega
        · right
          omega
      simp only [TokenServer.verify, verifySessionToken, fresh]
      cases accepts :
          (server.cache.checkAndInsert ts call.token (retainBuckets tolerance)).2 with
      | false => exact ⟨remembers.nodup, stillRemembered⟩
      | true =>
          rcases TokenReplayCache.checkAndInsert_accepts accepts with ⟨absent, inserted⟩
          rw [TokenReplayCache.bucket_advance_self kept] at absent
          have notAccepted : call.token ∉ server.accepted := by
            intro member
            rcases remembers.remembered call.token member call.password owner with
              present | behind
            · rw [ownBucket] at present
              exact absent present
            · rw [ownBucket] at behind
              rw [TokenReplayCache.RolledBack, saturatingAdd] at kept
              omega
          refine ⟨?_, ?_⟩
          · simp only [if_true]
            rw [List.nodup_append]
            refine ⟨remembers.nodup, List.nodup_singleton _, ?_⟩
            intro token member other isNew
            rw [List.mem_singleton.mp isNew]
            intro same
            exact notAccepted (same ▸ member)
          · intro token member password issuedFor
            simp only [if_true, List.mem_append, List.mem_singleton] at member
            rcases member with before | rfl
            · exact stillRemembered token before password issuedFor
            · left
              have samePassword : password = call.password :=
                Option.some.inj (issuedFor.symm.trans owner)
              rw [samePassword, ownBucket]
              exact inserted

theorem RemembersAccepted.new (issued : List UInt8 → Option String) :
    RemembersAccepted primitives tolerance issued .new where
  nodup := List.nodup_nil
  remembered := by
    intro token member
    exact absurd member List.not_mem_nil

theorem RemembersAccepted.run {issued : List UInt8 → Option String} {calls : List Verification}
    (remembers : RemembersAccepted primitives tolerance issued server)
    (onlyIssued : ∀ call ∈ calls, OnlyIssued primitives issued call)
    (keeps : Along (TokenServer.verify primitives tolerance) (KeepsCache primitives tolerance)
      server calls) :
    RemembersAccepted primitives tolerance issued
      (Foundations.run (TokenServer.verify primitives tolerance) server calls) := by
  induction calls generalizing server with
  | nil => exact remembers
  | cons call calls ih =>
      rw [List.forall_mem_cons] at onlyIssued
      rcases keeps with ⟨keepsNow, keepsLater⟩
      exact ih (remembers.verify onlyIssued.1 keepsNow) onlyIssued.2 keepsLater

/--
Along a run in which no verification starts the cache again, no token is
accepted twice, whatever the clock reads.
-/
theorem accepted_nodup {primitives : TokenPrimitives} {tolerance : ℕ}
    {issued : List UInt8 → Option String} {calls : List Verification}
    (onlyIssued : ∀ call ∈ calls, OnlyIssued primitives issued call)
    (keeps : Along (TokenServer.verify primitives tolerance) (KeepsCache primitives tolerance)
      .new calls) :
    (run (TokenServer.verify primitives tolerance) .new calls).accepted.Nodup :=
  ((RemembersAccepted.new issued).run onlyIssued keeps).nodup

end OneAcceptance

section SteadyClock

/-- While the clock has read at most `now`, the highest bucket is that of a token fresh by then. -/
def HwmWithin (tolerance now : ℕ) (server : TokenServer) : Prop :=
  server.cache.hwm ≤ (now + tolerance) / replayBucketSecs ∧ server.cache.hwm ≤ u64Max

theorem HwmWithin.keepsCache (within : HwmWithin tolerance call.now server)
    (fits : 2 * tolerance < 2 ^ 64) : KeepsCache primitives tolerance server call := by
  intro ts fresh
  rcases freshTs_eq_some fresh with ⟨_, _, notOld, _⟩
  rcases within with ⟨near, bounded⟩
  rw [TokenReplayCache.RolledBack, saturatingAdd, retainBuckets, Nat.mod_eq_of_lt fits]
  rw [saturatingAdd] at notOld
  simp only [replayBucketSecs] at near ⊢
  omega

theorem HwmWithin.verify (within : HwmWithin tolerance call.now server)
    (fits : 2 * tolerance < 2 ^ 64) :
    HwmWithin tolerance call.now (server.verify primitives tolerance call) := by
  cases fresh : call.freshTs primitives tolerance with
  | none =>
      rw [verify_of_stale fresh]
      exact within
  | some ts =>
      have keeps : KeepsCache primitives tolerance server call := within.keepsCache fits
      have kept := keeps ts fresh
      rcases freshTs_eq_some fresh with ⟨_, _, _, notAhead⟩
      rcases within with ⟨near, bounded⟩
      simp only [HwmWithin, TokenServer.verify, verifySessionToken, fresh]
      rw [TokenReplayCache.checkAndInsert_hwm, TokenReplayCache.advance_hwm kept]
      rw [saturatingAdd] at notAhead
      simp only [replayBucketSecs] at near ⊢
      omega

/-- A clock which never steps back never makes the cache start again. -/
theorem keepsCache_of_steady_clock {calls : List Verification} (fits : 2 * tolerance < 2 ^ 64)
    (steady : (calls.map Verification.now).Pairwise (· ≤ ·)) :
    Along (TokenServer.verify primitives tolerance) (KeepsCache primitives tolerance)
      .new calls := by
  have general : ∀ (calls : List Verification) (server : TokenServer) (now : ℕ),
      HwmWithin tolerance now server → (∀ call ∈ calls, now ≤ call.now) →
      (calls.map Verification.now).Pairwise (· ≤ ·) →
      Along (TokenServer.verify primitives tolerance) (KeepsCache primitives tolerance)
        server calls := by
    intro calls
    induction calls with
    | nil => exact fun _ _ _ _ _ => trivial
    | cons call calls ih =>
        intro server now within later steady
        rw [List.forall_mem_cons] at later
        rw [List.map_cons, List.pairwise_cons] at steady
        have withinNow : HwmWithin tolerance call.now server := by
          refine ⟨within.1.trans (Nat.div_le_div_right ?_), within.2⟩
          exact Nat.add_le_add_right later.1 tolerance
        refine ⟨withinNow.keepsCache fits, ih _ call.now (withinNow.verify fits) ?_ steady.2⟩
        intro other member
        exact steady.1 other.now (List.mem_map_of_mem member)
  apply general calls .new 0 ⟨Nat.zero_le _, Nat.zero_le _⟩ _ steady
  intro call _
  exact Nat.zero_le call.now

end SteadyClock

section Rollback

def plainPrimitives : TokenPrimitives where
  sha256 bytes := (bytes ++ List.replicate 32 0).take 32
  hmacSha256 key _ := key
  poly1305 _ message := (message ++ List.replicate 16 0).take 16

/-- The verification, when the clock reads `now`, of a token made at `ts`. -/
def verification (now ts : ℕ) (randomPrefix : List UInt8) : Verification where
  now
  password := "secret"
  token := makeSessionToken plainPrimitives "secret" [7] randomPrefix ts
  bind := [7]

/-- The clock goes back by more than the cache retains, and forward again. -/
def clockStepsBack : List Verification :=
  [verification 2000 2000 (List.replicate 8 1), verification 1000 1000 (List.replicate 8 2),
    verification 2000 2000 (List.replicate 8 1)]

theorem not_accepted_nodup_clockStepsBack :
    (∀ call ∈ clockStepsBack, OnlyIssued plainPrimitives (fun _ => some "secret") call) ∧
      ¬(run (TokenServer.verify plainPrimitives 60) .new clockStepsBack).accepted.Nodup := by
  refine ⟨?_, by decide +kernel⟩
  simp [clockStepsBack, OnlyIssued, verification]

def replayed : List Verification :=
  [verification 2000 2000 (List.replicate 8 1), verification 2030 2000 (List.replicate 8 1)]

theorem accepted_nodup_replayed :
    (run (TokenServer.verify plainPrimitives 60) .new replayed).accepted.Nodup := by
  have onlyIssued :
      ∀ call ∈ replayed, OnlyIssued plainPrimitives (fun _ => some "secret") call := by
    simp [replayed, OnlyIssued, verification]
  exact accepted_nodup onlyIssued (by decide +kernel)

end Rollback

end Mirage.Crypto

import Mirage.Crypto.ClientHello.Fingerprint
import Mirage.Crypto.HelloAuth.Replay

/-!
# Sessions of many users

`identify_session_token` tries the passwords of all users on a token, each with its own
check against replays.  The token comes in a ClientHello, in place of the session
identifier, and is bound to the random there.
-/

namespace Mirage.Crypto

open Mirage.Foundations
open Mirage.Foundations.Checked (done overwrite attempt)

/-! ## The passwords in turn -/

/-- A token which is shown to the server, and the clock when it tries each password -/
structure Identification where
  clock : ℕ → ℕ
  token : List UInt8
  bind : List UInt8

namespace Identification

def verification (call : Identification) (index : ℕ) (password : String) : Verification where
  now := call.clock index
  password
  token := call.token
  bind := call.bind

/-- The verifications of a call, from one password on -/
def attempts (call : Identification) : ℕ → List String → List Verification
  | _, [] => []
  | index, password :: passwords =>
      call.verification index password :: call.attempts (index + 1) passwords

end Identification

section Identify

variable (primitives : TokenPrimitives) (tolerance : ℕ)

def identifyFrom (call : Identification) :
    ℕ → List String → TokenReplayCache → TokenReplayCache × Option ℕ
  | _, [], cache => (cache, none)
  | index, password :: passwords, cache =>
      match verifySessionToken primitives tolerance cache (call.verification index password) with
      | (cache, true) => (cache, some index)
      | (cache, false) => identifyFrom call (index + 1) passwords cache

def identifySessionToken (passwords : List String) (cache : TokenReplayCache)
    (call : Identification) : TokenReplayCache × Option ℕ :=
  identifyFrom primitives tolerance call 0 passwords cache

/-- A server, and the tokens which it has accepted, each with the user it took it for -/
structure UserServer where
  cache : TokenReplayCache
  identified : List (List UInt8 × ℕ)

def UserServer.new : UserServer := ⟨.new, []⟩

def UserServer.identify (passwords : List String) (server : UserServer) (call : Identification) :
    UserServer :=
  let tried := identifySessionToken primitives tolerance passwords server.cache call
  ⟨tried.1, server.identified ++ (tried.2.map (Prod.mk call.token)).toList⟩

/-- The server without the users -/
def UserServer.tokens (server : UserServer) : TokenServer :=
  ⟨server.cache, server.identified.map Prod.fst⟩

end Identify

section Refinement

variable {primitives : TokenPrimitives} {tolerance : ℕ}

/-- To identify a token is to verify it until that succeeds. -/
theorem identifyFrom_eq_run (call : Identification) (index : ℕ) (passwords : List String)
    (server : TokenServer) :
    ∃ made, made <+: call.attempts index passwords ∧
      run (TokenServer.verify primitives tolerance) server made =
        let tried := identifyFrom primitives tolerance call index passwords server.cache
        ⟨tried.1, server.accepted ++ (tried.2.map fun _ => call.token).toList⟩ := by
  induction passwords generalizing index server with
  | nil => exact ⟨[], List.nil_prefix, by simp [run, identifyFrom]⟩
  | cons password passwords ih =>
      have first : server.verify primitives tolerance (call.verification index password) =
          ⟨(verifySessionToken primitives tolerance server.cache
              (call.verification index password)).1,
            if (verifySessionToken primitives tolerance server.cache
              (call.verification index password)).2 then server.accepted ++ [call.token]
            else server.accepted⟩ :=
        rfl
      rw [identifyFrom]
      split
      · rename_i cache accepts
        rw [accepts] at first
        refine ⟨[call.verification index password], ⟨_, rfl⟩, ?_⟩
        exact first
      · rename_i cache refuses
        rw [refuses] at first
        rcases ih (index + 1) ⟨cache, server.accepted⟩ with ⟨made, among, same⟩
        refine ⟨call.verification index password :: made,
          List.cons_prefix_cons.mpr ⟨rfl, among⟩, ?_⟩
        rw [run_cons, first]
        exact same

theorem tokens_identify (passwords : List String) (server : UserServer) (call : Identification) :
    ∃ made, made <+: call.attempts 0 passwords ∧
      (server.identify primitives tolerance passwords call).tokens =
        run (TokenServer.verify primitives tolerance) server.tokens made := by
  rcases @identifyFrom_eq_run primitives tolerance call 0 passwords server.tokens with
    ⟨made, among, same⟩
  refine ⟨made, among, ?_⟩
  rw [same, UserServer.tokens, UserServer.identify, List.map_append]
  simp only [identifySessionToken, UserServer.tokens]
  cases (identifyFrom primitives tolerance call 0 passwords server.cache).2 <;> rfl

/-- The password of the user who is identified passes the tag check. -/
theorem identifyFrom_matches {call : Identification} {index user : ℕ} {passwords : List String}
    {cache : TokenReplayCache}
    (found : (identifyFrom primitives tolerance call index passwords cache).2 = some user) :
    ∃ password, index ≤ user ∧ passwords[user - index]? = some password ∧
      tagMatches primitives password call.token call.bind = true := by
  induction passwords generalizing index cache with
  | nil => cases found
  | cons password passwords ih =>
      rw [identifyFrom] at found
      split at found
      · rename_i after accepts
        cases found
        refine ⟨password, Nat.le_refl _, by rw [Nat.sub_self]; rfl, ?_⟩
        rw [verifySessionToken] at accepts
        split at accepts
        · rename_i ts fresh
          exact (freshTs_eq_some fresh).1
        · cases accepts
      · rcases ih found with ⟨owner, after, at_user, tagged⟩
        refine ⟨owner, Nat.le_of_succ_le after, ?_, tagged⟩
        rw [show user - index = user - (index + 1) + 1 by omega]
        exact at_user

end Refinement

/-! ## Whole runs -/

section Runs

variable {primitives : TokenPrimitives} {tolerance : ℕ} {issued : List UInt8 → Option String}
  {passwords : List String}

/-- What keeps a server from taking a token twice while the clock does not step back -/
structure Guarded (primitives : TokenPrimitives) (tolerance : ℕ)
    (issued : List UInt8 → Option String) (now : ℕ) (server : TokenServer) : Prop where
  remembers : RemembersAccepted primitives tolerance issued server
  within : HwmWithin tolerance now server

theorem Guarded.new : Guarded primitives tolerance issued 0 .new :=
  ⟨RemembersAccepted.new issued, Nat.zero_le _, Nat.zero_le _⟩

theorem Guarded.verify {now : ℕ} {server : TokenServer} {call : Verification}
    (guarded : Guarded primitives tolerance issued now server) (fits : 2 * tolerance < 2 ^ 64)
    (later : now ≤ call.now) (onlyIssued : OnlyIssued primitives issued call) :
    Guarded primitives tolerance issued call.now (server.verify primitives tolerance call) := by
  have within : HwmWithin tolerance call.now server :=
    ⟨Nat.le_trans guarded.within.1 (Nat.div_le_div_right (Nat.add_le_add_right later tolerance)),
      guarded.within.2⟩
  exact ⟨guarded.remembers.verify onlyIssued (within.keepsCache fits), within.verify fits⟩

theorem Guarded.run {now : ℕ} {server : TokenServer} {calls : List Verification}
    (guarded : Guarded primitives tolerance issued now server) (fits : 2 * tolerance < 2 ^ 64)
    (steady : (now :: calls.map Verification.now).Pairwise (· ≤ ·))
    (onlyIssued : ∀ call ∈ calls, OnlyIssued primitives issued call) :
    ∃ last ∈ now :: calls.map Verification.now, Guarded primitives tolerance issued last
      (Foundations.run (TokenServer.verify primitives tolerance) server calls) := by
  induction calls generalizing now server with
  | nil => exact ⟨now, List.mem_cons_self, guarded⟩
  | cons call calls ih =>
      rw [List.forall_mem_cons] at onlyIssued
      rw [List.map_cons, List.pairwise_cons] at steady
      have next := guarded.verify fits (steady.1 call.now List.mem_cons_self) onlyIssued.1
      rcases ih next steady.2 onlyIssued.2 with ⟨last, member, later⟩
      exact ⟨last, List.mem_cons_of_mem _ member, later⟩

/-- The clock readings of a call -/
def Identification.readings (call : Identification) (passwords : List String) : List ℕ :=
  (call.attempts 0 passwords).map Verification.now

/-- The tag of a token is that of no password but the one which it was issued for. -/
def Issued (primitives : TokenPrimitives) (issued : List UInt8 → Option String)
    (passwords : List String) (call : Identification) : Prop :=
  ∀ password ∈ passwords, tagMatches primitives password call.token call.bind = true →
    issued call.token = some password

theorem Issued.attempts {call : Identification}
    (only : Issued primitives issued passwords call) (index : ℕ) :
    ∀ attempt ∈ call.attempts index passwords, OnlyIssued primitives issued attempt := by
  induction passwords generalizing index with
  | nil => exact fun _ member => absurd member List.not_mem_nil
  | cons password passwords ih =>
      intro attempt member
      rw [Identification.attempts, List.mem_cons] at member
      rcases member with rfl | member
      · exact only password List.mem_cons_self
      · exact ih (fun other among => only other (List.mem_cons_of_mem _ among)) (index + 1) attempt
          member

theorem Guarded.identify {now : ℕ} {server : UserServer} {call : Identification}
    (guarded : Guarded primitives tolerance issued now server.tokens)
    (fits : 2 * tolerance < 2 ^ 64)
    (steady : (now :: call.readings passwords).Pairwise (· ≤ ·))
    (only : Issued primitives issued passwords call) :
    ∃ last ∈ now :: call.readings passwords, Guarded primitives tolerance issued last
      (server.identify primitives tolerance passwords call).tokens := by
  rcases @tokens_identify primitives tolerance passwords server call
    with ⟨made, among, same⟩
  have some_readings : (now :: made.map Verification.now) <+: now :: call.readings passwords :=
    List.cons_prefix_cons.mpr ⟨rfl, among.map Verification.now⟩
  rcases guarded.run fits (steady.sublist some_readings.sublist) (fun attempt member =>
    only.attempts 0 attempt (among.subset member)) with ⟨last, member, after⟩
  exact ⟨last, some_readings.subset member, same ▸ after⟩

theorem Guarded.identifyAll {now : ℕ} {server : UserServer} {calls : List Identification}
    (guarded : Guarded primitives tolerance issued now server.tokens)
    (fits : 2 * tolerance < 2 ^ 64)
    (steady : (now :: calls.flatMap fun call => call.readings passwords).Pairwise (· ≤ ·))
    (only : ∀ call ∈ calls, Issued primitives issued passwords call) :
    ∃ last ∈ now :: calls.flatMap fun call => call.readings passwords,
      Guarded primitives tolerance issued last
        (Foundations.run (UserServer.identify primitives tolerance passwords) server
          calls).tokens := by
  induction calls generalizing now server with
  | nil => exact ⟨now, List.mem_cons_self, guarded⟩
  | cons call calls ih =>
      rw [List.forall_mem_cons] at only
      rw [List.flatMap_cons, ← List.cons_append] at steady ⊢
      rcases List.pairwise_append.mp steady with ⟨steady_now, steady_later, ordered⟩
      rcases guarded.identify fits steady_now only.1 with ⟨last, member, next⟩
      have steady_next : (last :: calls.flatMap fun call => call.readings passwords).Pairwise
          (· ≤ ·) :=
        List.pairwise_cons.mpr ⟨ordered last member, steady_later⟩
      rcases ih next steady_next only.2 with ⟨final, among, after⟩
      refine ⟨final, ?_, after⟩
      rcases List.mem_cons.mp among with rfl | among
      · exact List.mem_append_left _ member
      · exact List.mem_append_right _ among

/-- Each token was taken for the user whom it was issued to. -/
def Rightful (issued : List UInt8 → Option String) (passwords : List String)
    (server : UserServer) : Prop :=
  ∀ accepted ∈ server.identified, ∃ password, passwords[accepted.2]? = some password ∧
    issued accepted.1 = some password

theorem Rightful.identify {server : UserServer} {call : Identification}
    (rightful : Rightful issued passwords server)
    (only : Issued primitives issued passwords call) :
    Rightful issued passwords (server.identify primitives tolerance passwords call) := by
  intro accepted member
  rcases List.mem_append.mp member with before | now
  · exact rightful accepted before
  · rw [Option.mem_toList, Option.map_eq_some_iff] at now
    rcases now with ⟨user, found, rfl⟩
    rcases identifyFrom_matches found with ⟨password, _, at_user, tagged⟩
    exact ⟨password, at_user, only password (List.mem_of_getElem? at_user) tagged⟩

theorem Rightful.identifyAll {server : UserServer} {calls : List Identification}
    (rightful : Rightful issued passwords server)
    (only : ∀ call ∈ calls, Issued primitives issued passwords call) :
    Rightful issued passwords
      (Foundations.run (UserServer.identify primitives tolerance passwords) server calls) := by
  induction calls generalizing server with
  | nil => exact rightful
  | cons call calls ih =>
      rw [List.forall_mem_cons] at only
      exact ih (rightful.identify only.1) only.2

end Runs

/--
While the clock does not step back, a server of many users takes no token twice, under
whichever of the passwords, and takes each for the user whom it was issued to.
-/
theorem identified_once {primitives : TokenPrimitives} {tolerance : ℕ}
    (fits : 2 * tolerance < 2 ^ 64) {issued : List UInt8 → Option String}
    {passwords : List String} {calls : List Identification}
    (only : ∀ call ∈ calls, Issued primitives issued passwords call)
    (steady : (calls.flatMap fun call => call.readings passwords).Pairwise (· ≤ ·)) :
    let server := run (UserServer.identify primitives tolerance passwords) .new calls
    (server.identified.map Prod.fst).Nodup ∧ Rightful issued passwords server := by
  intro server
  constructor
  · have start : Guarded primitives tolerance issued 0 UserServer.new.tokens := Guarded.new
    have steady_start := List.pairwise_cons.mpr ⟨fun _ _ => Nat.zero_le _, steady⟩
    rcases start.identifyAll fits steady_start only with ⟨_, _, guarded⟩
    exact guarded.remembers.nodup
  · exact Rightful.identifyAll (fun _ member => absurd member List.not_mem_nil) only

/-- Two users, of whom each shows a token, and the second shows it once more -/
def twoUsers : List Identification :=
  let made (password : String) (randomPrefix : List UInt8) : List UInt8 :=
    makeSessionToken plainPrimitives password [7] randomPrefix 2000
  let bob := made "bob" (List.replicate 8 2)
  [⟨fun _ => 2000, made "alice" (List.replicate 8 1), [7]⟩, ⟨fun _ => 2010, bob, [7]⟩,
    ⟨fun _ => 2020, bob, [7]⟩]

theorem identified_once_twoUsers :
    ((run (UserServer.identify plainPrimitives 60 ["alice", "bob"]) .new twoUsers).identified.map
      Prod.fst).Nodup := by
  have only : ∀ call ∈ twoUsers, Issued plainPrimitives
      (fun token => if token.head? = some 1 then some "alice" else some "bob") ["alice", "bob"]
      call := by
    unfold Issued
    decide +kernel
  exact (identified_once (by decide) only (by decide +kernel)).1

/-! ## Where a ClientHello carries the token -/

/-- The random and the session identifier stand where they do in each ClientHello. -/
def Carries (hello : List UInt8) (sessionId random : Bytes32) : Prop :=
  (hello.drop 11).take 32 = random.1 ∧ (hello.drop 44).take 32 = sessionId.1

section Carrying

variable {bytes out : List UInt8} {sessionId random : Bytes32} {off : ℕ} {delta : ℤ}

/-- Neither is where something else is written. -/
theorem Carries.overwrite {new : List UInt8} (carries : Carries bytes sessionId random)
    (written : overwrite bytes off new = done out)
    (beside : off + new.length ≤ 11 ∨ 76 ≤ off) : Carries out sessionId random := by
  have kept := (Checked.overwrite_window written).2
  refine ⟨(kept 11 32 ?_).trans carries.1, (kept 44 32 ?_).trans carries.2⟩
  · omega
  · omega

theorem Carries.patchU16 (carries : Carries bytes sessionId random)
    (patched : patchU16 bytes off delta = done out) (beside : off + 2 ≤ 11 ∨ 76 ≤ off) :
    Carries out sessionId random := by
  rw [Crypto.patchU16] at patched
  rcases Checked.bind_eq_done patched with ⟨_, _, patched⟩
  rcases Checked.bind_eq_done patched with ⟨_, _, patched⟩
  exact carries.overwrite patched (by rw [bigEndian_length]; exact beside)

theorem Carries.patchU24 (carries : Carries bytes sessionId random)
    (patched : patchU24 bytes off delta = done out) (beside : off + 3 ≤ 11 ∨ 76 ≤ off) :
    Carries out sessionId random := by
  rw [Crypto.patchU24] at patched
  rcases Checked.bind_eq_done patched with ⟨_, _, patched⟩
  rcases Checked.bind_eq_done patched with ⟨_, _, patched⟩
  rcases Checked.bind_eq_done patched with ⟨_, _, patched⟩
  exact carries.overwrite patched (by rw [bigEndian_length]; exact beside)

/-- Any bytes which serve as a template carry both after it. -/
theorem carries_buildFromTemplate {tpl serverName : List UInt8}
    (built : buildFromTemplate tpl serverName sessionId random = done out) :
    Carries out sessionId random := by
  unfold buildFromTemplate at built
  rcases Checked.bind_eq_done built with ⟨_, _, built⟩
  rcases Checked.bind_eq_done built with ⟨_, _, built⟩
  rcases Checked.bind_eq_done built with ⟨_, _, built⟩
  rcases Checked.bind_eq_done built with ⟨_, _, built⟩
  rcases Checked.bind_eq_done built with ⟨_, _, built⟩
  rcases Checked.bind_eq_done built with ⟨_, _, built⟩
  rcases Checked.bind_eq_done built with ⟨_, _, built⟩
  rcases Checked.bind_eq_done built with ⟨csLen, _, built⟩
  rcases Checked.bind_eq_done built with ⟨compLen, _, built⟩
  rcases Checked.bind_eq_done built with ⟨extTotal, _, built⟩
  rcases Checked.bind_eq_done built with ⟨_, _, built⟩
  rcases Checked.bind_eq_done built with ⟨⟨sniOff, sniTotal⟩, _, built⟩
  rcases Checked.bind_eq_done built with ⟨_, _, built⟩
  rcases Checked.bind_eq_done built with ⟨before, _, built⟩
  rcases Checked.bind_eq_done built with ⟨after, _, built⟩
  rcases Checked.bind_eq_done built with ⟨randomised, random_written, built⟩
  rcases Checked.bind_eq_done built with ⟨identified, id_written, built⟩
  rcases Checked.bind_eq_done built with ⟨recorded, record_patched, built⟩
  rcases Checked.bind_eq_done built with ⟨shaken, body_patched, built⟩
  have at_random := (Checked.overwrite_window random_written).1
  have at_id := Checked.overwrite_window id_written
  rw [random.2] at at_random
  rw [sessionId.2] at at_id
  have carries : Carries identified sessionId random :=
    ⟨(at_id.2 11 32 (.inl (by decide))).trans at_random, at_id.1⟩
  have extensions : 76 ≤ 44 + 32 + (2 + csLen) + (1 + compLen.toNat) := by omega
  exact ((carries.patchU16 record_patched (.inl (by decide))).patchU24 body_patched
    (.inl (by decide))).patchU16 built (.inr extensions)

theorem carries_assemble (sessionId random : Bytes32) (cipherSuites extensions : List UInt8) :
    Carries (assemble sessionId random cipherSuites extensions) sessionId random := by
  let rest := sized cipherSuites ++ ([0x01, 0x00] ++ sized extensions)
  let behind := UInt8.ofNat sessionId.1.length :: (sessionId.1 ++ rest)
  let helloBody := [0x03, 0x03] ++ (random.1 ++ behind)
  let hs := 0x01 :: (bigEndian 3 helloBody.length ++ helloBody)
  let front := [0x16, 0x03, 0x01] ++ (bigEndian 2 hs.length ++ (0x01 ::
    (bigEndian 3 helloBody.length ++ [0x03, 0x03])))
  have view :
      assemble sessionId random cipherSuites extensions = front ++ (random.1 ++ behind) := by
    simp only [assemble, front, behind, rest, helloBody, hs, sized, List.cons_append,
      List.append_assoc, List.nil_append]
  have front_length : front.length = 11 := rfl
  have up_to_id : (front ++ (random.1 ++ [UInt8.ofNat sessionId.1.length])).length = 44 := by
    simp only [List.length_append, front_length, random.2, List.length_cons, List.length_nil]
  have at_id : front ++ (random.1 ++ behind) =
      (front ++ (random.1 ++ [UInt8.ofNat sessionId.1.length])) ++ (sessionId.1 ++ rest) := by
    simp only [behind, List.append_assoc, List.cons_append, List.nil_append]
  constructor
  · rw [view, List.drop_left' front_length, List.take_left' random.2]
  · rw [view, at_id, List.drop_left' up_to_id, List.take_left' sessionId.2]

/-- The profile which is drawn, and what its builder draws -/
inductive ProfileDraws where
  | chromium (draws : ChromiumDraws)
  | firefox (draws : FirefoxDraws)
  | okhttp (draws : OkhttpDraws)

def ProfileDraws.build (drawn : ProfileDraws) (serverName : List UInt8)
    (sessionId clientRandom : Bytes32) : List UInt8 :=
  match drawn with
  | .chromium draws => buildChromium draws serverName sessionId clientRandom
  | .firefox draws => buildFirefox draws serverName sessionId clientRandom
  | .okhttp draws => buildOkhttp draws serverName sessionId clientRandom

/-- A template which cannot be used is passed over. -/
def buildClientHelloWithRandom (customTemplate : Option (List UInt8)) (drawn : ProfileDraws)
    (serverName : List UInt8) (sessionId clientRandom : Bytes32) : Checked (List UInt8) :=
  customTemplate.elim (pure (drawn.build serverName sessionId clientRandom)) fun tpl => do
    let ch ← attempt (buildFromTemplate tpl serverName sessionId clientRandom)
    pure (ch.getD (drawn.build serverName sessionId clientRandom))

theorem carries_build (drawn : ProfileDraws) (serverName : List UInt8)
    (sessionId random : Bytes32) :
    Carries (drawn.build serverName sessionId random) sessionId random := by
  cases drawn with
  | chromium draws => exact carries_assemble sessionId random _ _
  | firefox draws => exact carries_assemble sessionId random _ _
  | okhttp draws => exact carries_assemble sessionId random _ _

/-- However a ClientHello is built, it carries both. -/
theorem carries_buildClientHello (customTemplate : Option (List UInt8)) (drawn : ProfileDraws)
    (serverName : List UInt8) (sessionId random : Bytes32) :
    ∃ hello, buildClientHelloWithRandom customTemplate drawn serverName sessionId random =
      done hello ∧ Carries hello sessionId random := by
  cases customTemplate with
  | none => exact ⟨_, rfl, carries_build drawn serverName sessionId random⟩
  | some tpl =>
      have safe := (safe_buildFromTemplate tpl serverName sessionId random).not_panicked
      rw [buildClientHelloWithRandom, Option.elim_some, Checked.attempt_of_ne_panicked safe,
        Checked.done_bind]
      refine ⟨_, rfl, ?_⟩
      cases built : buildFromTemplate tpl serverName sessionId random with
      | done out => exact carries_buildFromTemplate built
      | refused | panicked => exact carries_build drawn serverName sessionId random

end Carrying

/-! ## The first time -/

section FirstTime

variable {primitives : TokenPrimitives} {tolerance : ℕ} {passwords : List String}

theorem TokenReplayCache.bucket_advance_subset (cache : TokenReplayCache)
    (currentBucket retained index : ℕ) :
    (cache.advance currentBucket retained).bucket index ⊆ cache.bucket index := by
  by_cases rolled : cache.RolledBack currentBucket retained
  · have forgotten : (cache.advance currentBucket retained).bucket index = ∅ := by
      simp [TokenReplayCache.bucket, TokenReplayCache.advance, if_pos rolled,
        FiniteMap.lookup_retain]
    rw [forgotten]
    exact Finset.empty_subset _
  · rw [TokenReplayCache.bucket_advance rolled]
    split
    · exact Finset.Subset.refl _
    · exact Finset.empty_subset _

/-- At most the token which is checked comes into a bucket, and only if it is accepted. -/
theorem TokenReplayCache.mem_bucket_checkAndInsert {cache : TokenReplayCache}
    {ts retained index : ℕ} {token other : List UInt8}
    (member : other ∈ (cache.checkAndInsert ts token retained).1.bucket index) :
    other ∈ cache.bucket index ∨
      (other = token ∧ (cache.checkAndInsert ts token retained).2 = true) := by
  have older := cache.bucket_advance_subset (ts / replayBucketSecs) retained
  simp only [TokenReplayCache.checkAndInsert] at member ⊢
  by_cases same : index = ts / replayBucketSecs
  · subst same
    split at member
    · rw [TokenReplayCache.bucket, AList.lookup_insert, Option.getD_some] at member
      exact .inl (older _ member)
    · rename_i room
      rw [TokenReplayCache.bucket, AList.lookup_insert, Option.getD_some,
        Finset.mem_insert] at member
      rw [if_neg room]
      rcases member with rfl | before
      · by_cases seen : other ∈ (cache.advance (ts / replayBucketSecs) retained).bucket
          (ts / replayBucketSecs)
        · exact .inl (older _ seen)
        · exact .inr ⟨rfl, decide_eq_true seen⟩
      · exact .inl (older _ before)
  · left
    split at member
    · rw [TokenReplayCache.bucket, AList.lookup_insert_ne same] at member
      exact older _ member
    · rw [TokenReplayCache.bucket, AList.lookup_insert_ne same] at member
      exact older _ member

/-- What is remembered has been accepted. -/
def Recorded (server : TokenServer) : Prop :=
  ∀ index, ∀ token ∈ server.cache.bucket index, token ∈ server.accepted

theorem Recorded.new : Recorded .new := by
  intro index token member
  simp [TokenServer.new, TokenReplayCache.new, TokenReplayCache.bucket] at member

theorem Recorded.verify {server : TokenServer} {call : Verification} (recorded : Recorded server) :
    Recorded (server.verify primitives tolerance call) := by
  cases fresh : call.freshTs primitives tolerance with
  | none =>
      rw [verify_of_stale fresh]
      exact recorded
  | some ts =>
      intro index token member
      simp only [TokenServer.verify, verifySessionToken, fresh] at member ⊢
      rcases TokenReplayCache.mem_bucket_checkAndInsert member with before | ⟨rfl, accepts⟩
      · have accepted := recorded index token before
        split
        · exact List.mem_append_left _ accepted
        · exact accepted
      · rw [if_pos accepts]
        exact List.mem_append_right _ (List.mem_singleton_self _)

theorem Recorded.identify {server : UserServer} {call : Identification}
    (recorded : Recorded server.tokens) :
    Recorded (server.identify primitives tolerance passwords call).tokens := by
  rcases @tokens_identify primitives tolerance passwords server call
    with ⟨made, _, same⟩
  rw [same]
  exact run_invariant made (fun _ => Recorded.verify) recorded

theorem Recorded.identifyAll {server : UserServer} (recorded : Recorded server.tokens)
    (calls : List Identification) :
    Recorded (run (UserServer.identify primitives tolerance passwords) server calls).tokens :=
  @run_invariant _ _ (UserServer.identify primitives tolerance passwords)
    (fun server => Recorded server.tokens) server calls (fun _ => Recorded.identify) recorded

/-- A token is only accepted when it is shown. -/
theorem shown_of_identified {server : UserServer} {calls : List Identification}
    {token : List UInt8}
    (accepted : token ∈ (run (UserServer.identify primitives tolerance passwords) server
      calls).tokens.accepted) :
    token ∈ server.tokens.accepted ∨ ∃ call ∈ calls, call.token = token := by
  induction calls generalizing server with
  | nil => exact .inl accepted
  | cons call calls ih =>
      rcases ih accepted with before | ⟨later, member, same⟩
      · simp only [UserServer.tokens, UserServer.identify, List.map_append, List.mem_append]
          at before
        rcases before with before | now
        · exact .inl before
        · right
          refine ⟨call, List.mem_cons_self, ?_⟩
          rw [List.mem_map] at now
          rcases now with ⟨pair, member, rfl⟩
          rw [Option.mem_toList, Option.map_eq_some_iff] at member
          rcases member with ⟨user, _, rfl⟩
          rfl
      · exact .inr ⟨later, List.mem_cons_of_mem _ member, same⟩

/-- Passwords which the tag does not fit leave the cache as it is. -/
theorem identifyFrom_skip {call : Identification} {before after : List String} {index : ℕ}
    {cache : TokenReplayCache}
    (others : ∀ password ∈ before, tagMatches primitives password call.token call.bind = false) :
    identifyFrom primitives tolerance call index (before ++ after) cache =
      identifyFrom primitives tolerance call (index + before.length) after cache := by
  induction before generalizing index with
  | nil => rfl
  | cons password before ih =>
      rw [List.forall_mem_cons] at others
      have stale : (call.verification index password).freshTs primitives tolerance = none := by
        rw [Verification.freshTs, if_neg]
        rw [Bool.not_eq_true]
        exact others.1
      simp only [List.cons_append, identifyFrom, verifySessionToken, stale]
      rw [ih others.2, List.length_cons, Nat.add_assoc, Nat.add_comm 1]

/-- A fresh token which is not remembered is taken for the user, if its bucket has room. -/
theorem identifyFrom_fresh {call : Identification} {index ts : ℕ} {password : String}
    {after : List String} {cache : TokenReplayCache}
    (fresh : (call.verification index password).freshTs primitives tolerance = some ts)
    (kept : ¬cache.RolledBack (ts / replayBucketSecs) (retainBuckets tolerance))
    (absent : call.token ∉ cache.bucket (ts / replayBucketSecs))
    (room : (cache.bucket (ts / replayBucketSecs)).card ≤ 100000) :
    (identifyFrom primitives tolerance call index (password :: after) cache).2 = some index := by
  have accepts : (verifySessionToken primitives tolerance cache
      (call.verification index password)).2 = true := by
    simp only [verifySessionToken, fresh, TokenReplayCache.checkAndInsert]
    rw [TokenReplayCache.bucket_advance_self kept, if_neg (by omega)]
    exact decide_eq_true absent
  rw [identifyFrom]
  split
  · rfl
  · rename_i refuses
    rw [refuses] at accepts
    cases accepts

end FirstTime

def zeroPadded (size : ℕ) (bytes : List UInt8) : List UInt8 :=
  (bytes ++ List.replicate size 0).take size

theorem zeroPadded_length (size : ℕ) (bytes : List UInt8) :
    (zeroPadded size bytes).length = size := by
  simp [zeroPadded]

def paddingPrimitives : TokenPrimitives where
  sha256 := zeroPadded 32
  hmacSha256 key _ := zeroPadded 32 key
  poly1305 _ message := zeroPadded 16 message

def bobsRandom : Bytes32 :=
  ⟨List.replicate 32 3, rfl⟩

def bobsToken : Bytes32 :=
  ⟨makeSessionToken paddingPrimitives "bob" bobsRandom.1 (List.replicate 8 2) 2000, by
    decide +kernel⟩

/-- The token of another user has been shown before. -/
def afterAlice : List Identification :=
  [⟨fun _ => 1990, makeSessionToken paddingPrimitives "alice" [7] (List.replicate 8 1) 1990, [7]⟩]

end Mirage.Crypto

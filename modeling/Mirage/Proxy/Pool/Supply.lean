import Mirage.Proxy.Pool

/-!
# The supply of the warm pool

A loop compares the idle tunnels and the builders in flight with the target, and starts as
many builders as are missing.  It reads the two numbers one after the other, waits after
that, and meanwhile builders push what they have dialed and calls of `get` put back theirs.
So the target may be exceeded.  How far is bounded by the largest target and the number of
calls which put back a tunnel at the same time, in every interleaving.
-/

namespace Mirage.Proxy

open Mirage.Foundations

/-- The call has found room for its tunnel, and has not put it there yet. -/
def Get.refills (get : Get) : Bool :=
  match get.phase with
  | .refillPush _ => true
  | _ => false

namespace Builder

def running (builder : Builder) : Bool := builder != .done

/-- The builder may still push a tunnel. -/
def unpushed : Builder → Bool
  | .starting | .dialing _ | .dialed _ | .pushing _ => true
  | .notifying | .done => false

end Builder

/-- How many builders the loop starts at once -/
def burstCount (failures : UInt32) (target idle inFlight : ℕ) : ℕ :=
  if 0 < failures then 1
  else if idle = 0 then min (max (target - (idle + inFlight)) 1) 8
  else 1

/-- Where the loop is, with what it has read -/
inductive SupplyPhase where
  | start
  | checkPause
  | loadTarget
  | loadMax (target : ℕ)
  | loadIdle (target max : ℕ)
  | loadInFlight (target max idle : ℕ)
  | backoff (target idle inFlight : ℕ)
  | launch (count : ℕ)
  | stopped
  deriving DecidableEq, Repr

/-- `settled` counts the builders which have taken themselves off `in_flight` at their end. -/
structure Supply where
  pool : Pool
  inFlight : ℕ
  settled : ℕ
  maxSize : ℕ
  phase : SupplyPhase
  deriving DecidableEq, Repr

/-- The loop goes on with what it finds in the statistics; builders are started by it alone. -/
inductive SupplyEvent where
  | pool (event : PoolEvent)
  | setMax (size : ℕ)
  | settle
  | advance (paused : Bool) (failures : UInt32)
  deriving DecidableEq, Repr

namespace Pool

def refills (pool : Pool) : ℕ := pool.gets.countP Get.refills

def running (pool : Pool) : ℕ := pool.builders.countP Builder.running

def finished (pool : Pool) : ℕ := pool.builders.countP (· == .done)

def unpushed (pool : Pool) : ℕ := pool.builders.countP Builder.unpushed

/-- The tunnels in the queue and those which are about to be put there -/
def stock (pool : Pool) : ℕ := pool.queue.length + pool.unpushed + pool.refills

end Pool

namespace Supply

def new (poolSize : ℕ) : Supply where
  pool := .new (max poolSize 1)
  inFlight := 0
  settled := 0
  maxSize := max poolSize 1
  phase := .start

def launchOne (supply : Supply) (count : ℕ) : Supply :=
  { supply with
    pool := supply.pool.step .spawn
    inFlight := supply.inFlight + 1
    phase := .launch count }

def advance (supply : Supply) (paused : Bool) (failures : UInt32) : Supply :=
  match supply.phase with
  | .start => { supply with phase := if supply.pool.flagged then .stopped else .checkPause }
  | .checkPause => { supply with phase := if paused then .start else .loadTarget }
  | .loadTarget => { supply with phase := .loadMax supply.pool.targetSize }
  | .loadMax target => { supply with phase := .loadIdle target supply.maxSize }
  | .loadIdle target max =>
      { supply with phase := .loadInFlight target max supply.pool.queue.length }
  | .loadInFlight target max idle =>
      { supply with
        phase :=
          if target ≤ idle + supply.inFlight ∨ max ≤ idle + supply.inFlight then .start
          else .backoff target idle supply.inFlight }
  | .backoff target idle inFlight =>
      { supply with phase := .launch (burstCount failures target idle inFlight) }
  | .launch 0 => { supply with phase := .start }
  | .launch (count + 1) => supply.launchOne count
  | .stopped => supply

def settle (supply : Supply) : Supply :=
  if supply.settled < supply.pool.finished then
    { supply with inFlight := supply.inFlight - 1, settled := supply.settled + 1 }
  else supply

def step (supply : Supply) : SupplyEvent → Supply
  | .pool .spawn => supply
  | .pool event => { supply with pool := supply.pool.step event }
  | .setMax size => { supply with maxSize := size }
  | .settle => supply.settle
  | .advance paused failures => supply.advance paused failures

end Supply

namespace Pool

variable {pool left next : Pool} {caller index waiter : ℕ} {get after : Get}

/-! ## What a step does to the stock -/

/-- No builder is started, and nothing comes into the stock. -/
structure Tame (pool next : Pool) : Prop where
  builders : next.builders.length = pool.builders.length
  running : next.running ≤ pool.running
  unpushed : next.unpushed ≤ pool.unpushed
  stock : next.stock ≤ pool.stock

theorem Tame.refl (pool : Pool) : Tame pool pool :=
  ⟨rfl, Nat.le_refl _, Nat.le_refl _, Nat.le_refl _⟩

theorem Tame.trans (first : Tame pool left) (second : Tame left next) : Tame pool next where
  builders := second.builders.trans first.builders
  running := Nat.le_trans second.running first.running
  unpushed := Nat.le_trans second.unpushed first.unpushed
  stock := Nat.le_trans second.stock first.stock

theorem tame_of_same_tasks (gets : next.gets = pool.gets) (builders : next.builders = pool.builders)
    (queue : next.queue.length ≤ pool.queue.length) : Tame pool next where
  builders := by rw [builders]
  running := by simp only [running, builders, Nat.le_refl]
  unpushed := by simp only [unpushed, builders, Nat.le_refl]
  stock := by
    rw [stock, stock, unpushed, unpushed, refills, refills, builders, gets]
    omega

theorem refills_setGet (found : pool.gets[caller]? = some get) (new : Get) :
    (pool.setGet caller new).refills + get.refills.toNat = pool.refills + new.refills.toNat :=
  countP_set_add found Get.refills new

theorem tame_setGet (found : pool.gets[caller]? = some get)
    (kept : after.refills = true → get.refills = true) : Tame pool (pool.setGet caller after) where
  builders := rfl
  running := Nat.le_refl _
  unpushed := Nat.le_refl _
  stock := by
    have counted := refills_setGet found after
    have fewer : after.refills.toNat ≤ get.refills.toNat := Bool.toNat_le_toNat kept
    simp only [stock]
    change pool.queue.length + pool.unpushed + (pool.setGet caller after).refills ≤ _
    omega

theorem refills_withWait (get : Get) (wait : WaitPhase) :
    (get.withWait wait).refills = get.refills := by
  rcases get with ⟨epoch, phase⟩
  cases phase <;> rfl

theorem tame_notifyOne (notified : pool.notifyOne waiter = some next) : Tame pool next := by
  rw [notifyOne] at notified
  cases registered : pool.gets[waiter]?.filter Get.isParked with
  | some get =>
      simp only [registered, Option.some.injEq] at notified
      subst notified
      rw [Option.filter_eq_some_iff] at registered
      apply tame_setGet registered.1
      intro refills
      rwa [refills_withWait] at refills
  | none =>
      simp only [registered] at notified
      split at notified
      · exact nomatch notified
      · rw [Option.some.injEq] at notified
        subst notified
        exact tame_of_same_tasks rfl rfl (Nat.le_refl _)

theorem Tame.notifyOne_getD (tame : Tame pool left) (waiter : ℕ) :
    Tame pool ((left.notifyOne waiter).getD pool) := by
  cases notified : left.notifyOne waiter with
  | none => exact .refl pool
  | some next => exact tame.trans (tame_notifyOne notified)

theorem onBroadcast_refills (get : Get) : get.onBroadcast.refills = get.refills := by
  rcases get with ⟨epoch, phase⟩
  cases phase <;> rfl

theorem tame_notifyWaiters (pool : Pool) : Tame pool pool.notifyWaiters where
  builders := rfl
  running := Nat.le_refl _
  unpushed := Nat.le_refl _
  stock := by
    have same : pool.notifyWaiters.refills = pool.refills := by
      simp only [refills, notifyWaiters, List.countP_map]
      congr 1
      funext get
      exact onBroadcast_refills get
    rw [stock, stock, same]
    exact Nat.le_refl _

theorem tame_setBuilder {before builder : Builder} (found : pool.builders[index]? = some before)
    (runs : builder.running = true → before.running = true)
    (pushes : builder.unpushed = true → before.unpushed = true) :
    Tame pool (pool.setBuilder index builder) := by
  have fewer : (pool.setBuilder index builder).unpushed ≤ pool.unpushed :=
    countP_set_le found pushes
  refine ⟨List.length_set, countP_set_le found runs, fewer, ?_⟩
  rw [stock, stock]
  exact Nat.add_le_add_right (Nat.add_le_add_left fewer _) _

theorem popValidTunnel_length_le (queue : List Tunnel) :
    (popValidTunnel queue).2.length ≤ queue.length := by
  induction queue with
  | nil => exact Nat.le_refl 0
  | cons tunnel rest ih =>
      rw [popValidTunnel]
      split
      · simp
      · rw [List.length_cons]
        omega

theorem tame_popFor (found : pool.gets[caller]? = some get) {empty : GetPhase}
    (elsewhere : Get.refills { get with phase := empty } = false) :
    Tame pool (pool.popFor caller get empty) := by
  have popped : Tame pool { pool with queue := (popValidTunnel pool.queue).2 } :=
    tame_of_same_tasks rfl rfl (popValidTunnel_length_le pool.queue)
  apply popped.trans
  apply @tame_setGet { pool with queue := (popValidTunnel pool.queue).2 } caller get _ found
  intro refills
  cases first : (popValidTunnel pool.queue).1 with
  | none =>
      rw [first, Option.elim_none, elsewhere] at refills
      exact nomatch refills
  | some tunnel =>
      rw [first] at refills
      exact nomatch refills

theorem not_refills_of_wait {wait : WaitPhase} (waits : get.phase.wait? = some wait) :
    get.refills = false := by
  rcases get with ⟨epoch, phase⟩
  cases phase with
  | refillPush tunnel => exact nomatch waits
  | _ => rfl

theorem tame_waitStep (found : pool.gets[caller]? = some get) {wait : WaitPhase}
    (waits : get.phase.wait? = some wait) : Tame pool (pool.waitStep caller get wait) := by
  have elsewhere := not_refills_of_wait waits
  have moves : ∀ phase, (get.withWait phase).refills = true → get.refills = true := by
    intro phase refills
    rwa [refills_withWait] at refills
  cases wait with
  | head claimed => exact tame_setGet found (moves _)
  | checking claimed broadcast =>
      apply tame_popFor found
      exact (refills_withWait get _).trans elsewhere
  | window broadcast =>
      rw [waitStep]
      split
      · have taken : Tame pool { pool with permit := false } :=
          tame_of_same_tasks rfl rfl (Nat.le_refl _)
        exact taken.trans (tame_setGet found (moves _))
      · split
        · exact tame_setGet found (moves _)
        · exact tame_setGet found (moves _)
  | parked => exact .refl pool
  | woken claimed => exact tame_setGet found (moves _)

/-- A call finds room for its tunnel: from now on it is in the stock. -/
def FindsRoom (pool : Pool) (caller : ℕ) (tunnel : Tunnel) (get : Get) : Prop :=
  pool.gets[caller]? = some get ∧ get.phase = .refillCheck tunnel ∧
    pool.queue.length < pool.targetSize

theorem tame_getStep (found : pool.gets[caller]? = some get)
    (no_room : ∀ tunnel, ¬pool.FindsRoom caller tunnel get) :
    Tame pool (pool.getStep caller get) := by
  rw [getStep]
  cases phase : get.phase with
  | racing begun wait => exact tame_waitStep found (by rw [phase]; rfl)
  | waiting wait => exact tame_waitStep found (by rw [phase]; rfl)
  | refillCheck tunnel =>
      have full : ¬pool.queue.length < pool.targetSize := fun room =>
        no_room tunnel ⟨found, phase, room⟩
      dsimp only
      rw [if_neg full]
      exact tame_setGet found (nomatch ·)
  | refillPush tunnel =>
      -- the tunnel goes from the call into the queue
      have counted := @refills_setGet (pool.push tunnel) caller _ found
        { get with phase := .refillNotify }
      have before : get.refills = true := by rw [Get.refills, phase]
      have after : Get.refills { get with phase := .refillNotify } = false := rfl
      rw [before, after] at counted
      refine ⟨rfl, Nat.le_refl _, Nat.le_refl _, ?_⟩
      have length : (pool.push tunnel).queue.length = pool.queue.length + 1 := by simp [push]
      simp only [stock]
      change (pool.push tunnel).queue.length + pool.unpushed + _ ≤ _
      change _ + 1 = pool.refills + 0 at counted
      omega
  | refillPop => exact tame_popFor found rfl
  | start | refillNotify | got | failed => exact .refl pool

theorem tame_leave (found : pool.gets[caller]? = some get) {phase : GetPhase}
    (elsewhere : Get.refills { get with phase } = false) (waiter : ℕ) :
    Tame pool (pool.leave caller get phase waiter) := by
  have left : Tame pool (pool.setGet caller { get with phase := phase }) := by
    apply tame_setGet found
    intro refills
    rw [elsewhere] at refills
    exact nomatch refills
  simp only [leave]
  split
  · exact left.notifyOne_getD waiter
  · exact left

theorem tame_build (pool : Pool) (index : ℕ) : Tame pool (pool.build index) := by
  rw [build]
  split
  · rename_i found
    exact tame_setBuilder found (fun _ => rfl) (fun _ => rfl)
  · rename_i tunnel found
    exact tame_setBuilder found (fun _ => rfl) (fun _ => rfl)
  · -- the tunnel goes from the builder into the queue
    rename_i tunnel found
    have counted := countP_set_add found Builder.unpushed .notifying
    have settled : Tame pool (pool.setBuilder index .notifying) :=
      tame_setBuilder found (fun _ => rfl) (fun pushes => nomatch pushes)
    refine ⟨settled.builders, settled.running, settled.unpushed, ?_⟩
    have length : (pool.push tunnel).queue.length = pool.queue.length + 1 := by simp [push]
    simp only [stock]
    change (pool.push tunnel).queue.length + (pool.setBuilder index .notifying).unpushed +
      pool.refills ≤ _
    change (pool.setBuilder index .notifying).unpushed + 1 = pool.unpushed + 0 at counted
    omega
  · exact .refl pool

theorem Tame.elim_get {act : Get → Pool}
    (acts : ∀ get, pool.gets[caller]? = some get → Tame pool (act get)) :
    Tame pool (pool.gets[caller]?.elim pool act) :=
  Pool.elim_get (.refl pool) acts

/-- A step other than the start of a builder is tame, or a call finds room for its tunnel. -/
theorem step_tame (pool : Pool) {event : PoolEvent} (started : event ≠ .spawn) :
    Tame pool (pool.step event) ∨ ∃ caller get tunnel, pool.FindsRoom caller tunnel get ∧
      pool.step event = pool.setGet caller { get with phase := .refillPush tunnel } := by
  cases event with
  | spawn => exact absurd rfl started
  | build index => exact .inl (tame_build pool index)
  | dialEnds index succeeds =>
      left
      rw [step, dialEnds]
      split
      · rename_i found
        exact tame_setBuilder found (fun _ => rfl) (fun _ => rfl)
      · exact .refl pool
  | notify index waiter =>
      left
      rw [step, builderNotify]
      split
      · rename_i found
        have ended : Tame pool (pool.setBuilder index .done) :=
          tame_setBuilder found (fun _ => rfl) (fun pushes => nomatch pushes)
        exact ended.notifyOne_getD waiter
      · exact .refl pool
  | get =>
      left
      refine ⟨rfl, Nat.le_refl _, Nat.le_refl _, ?_⟩
      have same : (pool.step .get).refills = pool.refills := by
        simp [refills, step, List.countP_append, Get.refills]
      rw [stock, same]
      exact Nat.le_refl _
  | getStep caller =>
      cases found : pool.gets[caller]? with
      | none =>
          left
          rw [step, found]
          exact .refl pool
      | some get =>
          rw [step, found, Option.elim_some]
          by_cases room : ∃ tunnel, pool.FindsRoom caller tunnel get
          · right
            rcases room with ⟨tunnel, finds⟩
            refine ⟨caller, get, tunnel, finds, ?_⟩
            rw [getStep, finds.2.1]
            dsimp only
            rw [if_pos finds.2.2]
          · left
            exact tame_getStep found (not_exists.mp room)
  | getPop caller onDemand =>
      left
      apply Tame.elim_get
      intro get found
      rw [getPop]
      split
      · apply tame_popFor found
        cases onDemand <;> rfl
      · exact .refl pool
  | getDials caller =>
      left
      apply Tame.elim_get
      intro get found
      rw [getDials]
      split
      · exact tame_setGet found (nomatch ·)
      · exact .refl pool
  | getDialEnds caller succeeds waiter =>
      left
      apply Tame.elim_get
      intro get found
      rw [getDialEnds]
      split
      · split
        · apply tame_leave found
          cases succeeds <;> rfl
        · exact .refl pool
      · exact .refl pool
  | getNotify caller waiter =>
      left
      apply Tame.elim_get
      intro get found
      rw [getNotify]
      split
      · have notified : Tame pool (pool.setGet caller { get with phase := .refillPop }) :=
          tame_setGet found (fun refills => nomatch refills)
        exact notified.notifyOne_getD waiter
      · exact .refl pool
  | getDrop caller waiter =>
      left
      apply Tame.elim_get
      intro get found
      rw [getDrop]
      split
      · exact tame_leave found rfl waiter
      · exact .refl pool
  | purge contended =>
      left
      have called : Tame pool { pool with epoch := pool.epoch + 1 } :=
        tame_of_same_tasks rfl rfl (Nat.le_refl _)
      rw [step, purge]
      dsimp only
      split
      · exact called
      · have cleared : Tame pool { pool with epoch := pool.epoch + 1, queue := [] } :=
          tame_of_same_tasks rfl rfl (Nat.zero_le _)
        exact cleared.trans (tame_notifyWaiters _)
  | shutdownRequest =>
      left
      rw [step]
      split
      · exact tame_of_same_tasks rfl rfl (Nat.le_refl _)
      · exact .refl pool
  | shutdownClear contended =>
      left
      rw [step]
      split
      · cases contended with
        | true => exact tame_of_same_tasks rfl rfl (Nat.le_refl _)
        | false => exact tame_of_same_tasks rfl rfl (Nat.zero_le _)
      · exact .refl pool
  | shutdownNotify =>
      left
      rw [step]
      split
      · have completed : Tame pool { pool with shutdown := .complete } :=
          tame_of_same_tasks rfl rfl (Nat.le_refl _)
        exact completed.trans (tame_notifyWaiters _)
      · exact .refl pool
  | expire index => exact .inl (tame_of_same_tasks rfl rfl (Nat.le_of_eq (List.length_modify ..)))
  | spoil index => exact .inl (tame_of_same_tasks rfl rfl (Nat.le_of_eq (List.length_modify ..)))
  | sweep => exact .inl (tame_of_same_tasks rfl rfl (List.length_filter_le _ pool.queue))
  | setTarget size => exact .inl (tame_of_same_tasks rfl rfl (Nat.le_refl _))
  | notifyWaiters => exact .inl (tame_notifyWaiters pool)

theorem running_add_finished (pool : Pool) :
    pool.running + pool.finished = pool.builders.length := by
  have counted := List.length_eq_countP_add_countP Builder.running (l := pool.builders)
  have same : ∀ builder : Builder, (!builder.running) = (builder == .done) := by
    intro builder
    rw [Builder.running, bne, Bool.not_not]
  rw [running, finished, counted]
  simp only [← same, Bool.not_eq_true, Bool.decide_eq_false]

theorem unpushed_le_running (pool : Pool) : pool.unpushed ≤ pool.running := by
  apply List.countP_mono_left
  intro builder _ pushes
  cases builder with
  | done => exact nomatch pushes
  | _ => rfl

end Pool

namespace Supply

variable {supply : Supply} {event : SupplyEvent} {largest peak : ℕ}

/-- What the loop has read does not count more builders than are in flight or will be started. -/
def Fits (supply : Supply) (largest peak : ℕ) : SupplyPhase → Prop
  | .loadMax target | .loadIdle target _ => target ≤ largest
  | .loadInFlight target _ idle =>
      target ≤ largest ∧ (idle < target → supply.pool.stock ≤ 2 * largest + peak)
  | .backoff target idle inFlight =>
      target ≤ largest ∧ idle + inFlight < target ∧ supply.inFlight ≤ inFlight ∧
        supply.pool.stock ≤ 2 * largest + peak
  | .launch count =>
      supply.inFlight + count ≤ largest ∧ supply.pool.stock + count ≤ 3 * largest + peak
  | .start | .checkPause | .loadTarget | .stopped => True

/-- The builders in flight are those which have not taken themselves off. -/
structure Counted (supply : Supply) : Prop where
  inFlight : supply.inFlight + supply.settled = supply.pool.builders.length
  settled : supply.settled ≤ supply.pool.finished

structure Supplied (supply : Supply) (largest peak : ℕ) : Prop where
  counted : supply.Counted
  target : supply.pool.targetSize ≤ largest
  refills : supply.pool.refills ≤ peak
  inFlight : supply.inFlight ≤ largest
  stock : supply.pool.stock ≤ 3 * largest + peak
  fits : supply.Fits largest peak supply.phase

theorem Counted.running_le (counted : supply.Counted) : supply.pool.running ≤ supply.inFlight := by
  have total := supply.pool.running_add_finished
  have exactly := counted.inFlight
  have settled := counted.settled
  omega

theorem Counted.inFlight_eq (counted : supply.Counted) :
    supply.inFlight = supply.pool.running + (supply.pool.finished - supply.settled) := by
  have total := supply.pool.running_add_finished
  have exactly := counted.inFlight
  have settled := counted.settled
  omega

/-! ## What the loop and the tasks do -/

theorem Fits.mono {next : Supply} {phase : SupplyPhase} (fits : supply.Fits largest peak phase)
    (inFlight : next.inFlight ≤ supply.inFlight) (stock : next.pool.stock ≤ supply.pool.stock) :
    next.Fits largest peak phase := by
  cases phase with
  | loadMax target => exact fits
  | loadIdle target max => exact fits
  | loadInFlight target max idle => exact ⟨fits.1, fun short => Nat.le_trans stock (fits.2 short)⟩
  | backoff target idle read =>
      rcases fits with ⟨target_le, short, counted, before⟩
      exact ⟨target_le, short, Nat.le_trans inFlight counted, Nat.le_trans stock before⟩
  | launch count =>
      rcases fits with ⟨builders, before⟩
      exact ⟨by omega, by omega⟩
  | start | checkPause | loadTarget | stopped => trivial

/-- A call has found room: then the queue is below the target. -/
theorem Fits.of_room {next : Supply} {phase : SupplyPhase} (fits : supply.Fits largest peak phase)
    (inFlight : next.inFlight = supply.inFlight) (within : supply.inFlight ≤ largest)
    (stock : next.pool.stock ≤ largest + supply.inFlight + peak) :
    next.Fits largest peak phase := by
  cases phase with
  | loadMax target => exact fits
  | loadIdle target max => exact fits
  | loadInFlight target max idle => exact ⟨fits.1, fun _ => by omega⟩
  | backoff target idle read =>
      rcases fits with ⟨target_le, short, counted, _⟩
      exact ⟨target_le, short, by omega, by omega⟩
  | launch count =>
      rcases fits with ⟨builders, _⟩
      exact ⟨by omega, by omega⟩
  | start | checkPause | loadTarget | stopped => trivial

theorem pool_step_eq (other : PoolEvent) : supply.step (.pool other) = supply ∨
    other ≠ .spawn ∧
      supply.step (.pool other) = { supply with pool := supply.pool.step other } := by
  by_cases started : other = .spawn
  · subst started
    exact .inl rfl
  · refine .inr ⟨started, ?_⟩
    cases other with
    | spawn => exact absurd rfl started
    | _ => rfl

theorem Counted.pool_step (counted : supply.Counted) {next : Pool}
    (builders : next.builders.length = supply.pool.builders.length)
    (running : next.running ≤ supply.pool.running) :
    Counted { supply with pool := next } where
  inFlight := counted.inFlight.trans builders.symm
  settled := by
    have before := supply.pool.running_add_finished
    have after := next.running_add_finished
    have settled := counted.settled
    dsimp only
    omega

theorem Supplied.pool_step (supplied : supply.Supplied largest peak) (other : PoolEvent)
    (target : (supply.step (.pool other)).pool.targetSize ≤ largest)
    (refills : (supply.step (.pool other)).pool.refills ≤ peak) :
    (supply.step (.pool other)).Supplied largest peak := by
  rcases supply.pool_step_eq other with same | ⟨started, same⟩
  · rw [same]
    exact supplied
  · rw [same] at target refills ⊢
    rcases supply.pool.step_tame started with tame | ⟨caller, get, tunnel, room, next⟩
    · exact ⟨supplied.counted.pool_step tame.builders tame.running, target, refills,
        supplied.inFlight, Nat.le_trans tame.stock supplied.stock,
        supplied.fits.mono (Nat.le_refl _) tame.stock⟩
    · have counted : Counted { supply with pool := supply.pool.step other } := by
        rw [next]
        exact supplied.counted.pool_step rfl (Nat.le_refl _)
      have below : (supply.pool.step other).queue.length < supply.pool.targetSize := by
        rw [next]
        exact room.2.2
      have unpushed := (supply.pool.step other).unpushed_le_running
      have running := counted.running_le
      have before := supplied.target
      have within := supplied.inFlight
      have stock : (supply.pool.step other).stock ≤ largest + supply.inFlight + peak := by
        dsimp only at running refills
        rw [Pool.stock]
        omega
      exact ⟨counted, target, refills, within, by dsimp only; omega,
        supplied.fits.of_room rfl within stock⟩

theorem Supplied.settle (supplied : supply.Supplied largest peak) :
    supply.settle.Supplied largest peak := by
  rw [Supply.settle]
  split
  · rename_i more
    have exactly := supplied.counted.inFlight
    have total := supply.pool.running_add_finished
    have within := supplied.inFlight
    refine ⟨⟨?_, more⟩, supplied.target, supplied.refills, ?_, supplied.stock,
      supplied.fits.mono (Nat.sub_le _ _) (Nat.le_refl _)⟩
    · dsimp only
      omega
    · dsimp only
      omega
  · exact supplied

/-- So many builders are missing, or one. -/
theorem burstCount_le (failures : UInt32) {target idle inFlight : ℕ}
    (short : idle + inFlight < target) :
    burstCount failures target idle inFlight ≤ target - (idle + inFlight) := by
  rw [burstCount]
  split
  · omega
  · split <;> omega

theorem Supplied.go (supplied : supply.Supplied largest peak) {phase : SupplyPhase}
    (fits : supply.Fits largest peak phase) :
    Supplied { supply with phase := phase } largest peak where
  counted := ⟨supplied.counted.inFlight, supplied.counted.settled⟩
  target := supplied.target
  refills := supplied.refills
  inFlight := supplied.inFlight
  stock := supplied.stock
  fits := fits.mono (Nat.le_refl _) (Nat.le_refl _)

theorem Supplied.launchOne (supplied : supply.Supplied largest peak) {count : ℕ}
    (fits : supply.Fits largest peak (.launch (count + 1))) :
    (supply.launchOne count).Supplied largest peak := by
  rcases fits with ⟨builders, stock⟩
  have length : (supply.pool.step .spawn).builders.length = supply.pool.builders.length + 1 := by
    simp [Pool.step]
  have finished : (supply.pool.step .spawn).finished = supply.pool.finished := by
    simp [Pool.step, Pool.finished]
  have unpushed : (supply.pool.step .spawn).unpushed = supply.pool.unpushed + 1 := by
    simp [Pool.step, Pool.unpushed, Builder.unpushed]
  have grown : (supply.pool.step .spawn).stock = supply.pool.stock + 1 := by
    rw [Pool.stock, Pool.stock, unpushed]
    change supply.pool.queue.length + (supply.pool.unpushed + 1) + supply.pool.refills = _
    omega
  have exactly := supplied.counted.inFlight
  refine ⟨⟨?_, ?_⟩, supplied.target, supplied.refills, ?_, ?_, ?_, ?_⟩
  · change supply.inFlight + 1 + supply.settled = _
    rw [Supply.launchOne, length]
    omega
  · rw [Supply.launchOne, finished]
    exact supplied.counted.settled
  · change supply.inFlight + 1 ≤ largest
    omega
  · rw [Supply.launchOne, grown]
    omega
  · change supply.inFlight + 1 + count ≤ largest
    omega
  · rw [Supply.launchOne, grown]
    omega

theorem Supplied.advance (supplied : supply.Supplied largest peak) (paused : Bool)
    (failures : UInt32) : (supply.advance paused failures).Supplied largest peak := by
  have fits := supplied.fits
  have within := supplied.inFlight
  rw [Supply.advance]
  cases phase : supply.phase with
  | start =>
      apply supplied.go
      split <;> trivial
  | checkPause =>
      apply supplied.go
      split <;> trivial
  | loadTarget => exact supplied.go supplied.target
  | loadMax target =>
      rw [phase] at fits
      exact supplied.go fits
  | loadIdle target max =>
      rw [phase] at fits
      apply supplied.go
      refine ⟨fits, ?_⟩
      intro short
      -- the builders which may still push are in flight
      have unpushed := supply.pool.unpushed_le_running
      have running := supplied.counted.running_le
      have refills := supplied.refills
      have target_le : target ≤ largest := fits
      rw [Pool.stock]
      omega
  | loadInFlight target max idle =>
      rw [phase] at fits
      apply supplied.go
      split
      · trivial
      · rename_i short
        rw [not_or] at short
        exact ⟨fits.1, Nat.not_le.mp short.1, Nat.le_refl _, fits.2 (by omega)⟩
  | backoff target idle inFlight =>
      rw [phase] at fits
      rcases fits with ⟨target_le, short, counted, stock⟩
      have missing := burstCount_le failures short
      apply supplied.go
      exact ⟨by omega, by omega⟩
  | launch count =>
      rw [phase] at fits
      cases count with
      | zero => exact supplied.go trivial
      | succ count => exact supplied.launchOne fits
  | stopped => exact supplied

theorem Supplied.step (supplied : supply.Supplied largest peak)
    (target : (supply.step event).pool.targetSize ≤ largest)
    (refills : (supply.step event).pool.refills ≤ peak) :
    (supply.step event).Supplied largest peak := by
  cases event with
  | pool other => exact supplied.pool_step other target refills
  | setMax size =>
      exact ⟨⟨supplied.counted.inFlight, supplied.counted.settled⟩, supplied.target,
        supplied.refills, supplied.inFlight, supplied.stock,
        supplied.fits.mono (Nat.le_refl _) (Nat.le_refl _)⟩
  | settle => exact supplied.settle
  | advance paused failures => exact supplied.advance paused failures

theorem Supplied.new {poolSize : ℕ} (target : max poolSize 1 ≤ largest) :
    (new poolSize).Supplied largest peak where
  counted := ⟨rfl, Nat.le_refl _⟩
  target := target
  refills := Nat.zero_le peak
  inFlight := Nat.zero_le largest
  stock := Nat.zero_le _
  fits := trivial

end Supply

/--
In every interleaving of the loop, the builders, the calls of `get`, the manager and the
calls from outside: `in_flight` counts each builder from its start to its end, once; at most
as many are in flight as the largest target there was; and the queue and what is about to
be pushed are at most three times that, and as many as there were calls which put back a
tunnel at the same time.
-/
theorem supply_bounded (poolSize : ℕ) (events : List SupplyEvent) :
    let supply := run Supply.step (.new poolSize) events
    let largest := peakAlong Supply.step (·.pool.targetSize) (.new poolSize) events
    let refilling := peakAlong Supply.step (·.pool.refills) (.new poolSize) events
    supply.inFlight = supply.pool.running + (supply.pool.finished - supply.settled) ∧
      supply.inFlight ≤ largest ∧
      supply.pool.queue.length + supply.pool.unpushed ≤ 3 * largest + refilling := by
  intro supply largest refilling
  have targets : Along Supply.step (fun supply event =>
      (supply.step event).pool.targetSize ≤ largest) (.new poolSize) events :=
    along_of_peakAlong_le (Nat.le_refl largest)
  have refills : Along Supply.step (fun supply event =>
      (supply.step event).pool.refills ≤ refilling) (.new poolSize) events :=
    along_of_peakAlong_le (Nat.le_refl refilling)
  have initially : (Supply.new poolSize).pool.targetSize ≤ largest :=
    le_peakAlong (·.pool.targetSize) (Supply.new poolSize) events
  have supplied : supply.Supplied largest refilling :=
    @run_invariant_along _ _ Supply.step _ (fun supply => supply.Supplied largest refilling) _
      events (fun met supplied => supplied.step met.1 met.2) (Along.and.mpr ⟨targets, refills⟩)
      (.new initially)
  refine ⟨supplied.counted.inFlight_eq, supplied.inFlight, ?_⟩
  have stock := supplied.stock
  rw [Pool.stock] at stock
  omega

end Mirage.Proxy

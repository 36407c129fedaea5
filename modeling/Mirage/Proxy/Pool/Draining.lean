import Mirage.Proxy.Pool

/-!
# Purging and shutting down the pool

After `purge_idle` no call of `get` should be given a tunnel of before, and once
`shutdown` has returned and no build is in flight the queue should be empty.
Both hold if the queue is cleared at all, which a locked queue prevents, and if
nothing is pushed later that was dialed before: a builder looks at the flag and
pushes in two steps, it does not look at purges, and `refill_or_take` looks at
neither.
-/

namespace Mirage.Proxy

open Mirage.Foundations

/-- When the dial of a call, or that of the tunnel it holds, began. -/
def GetPhase.begun? : GetPhase → Option ℕ
  | .racing begun _ => begun
  | .refillCheck tunnel | .refillPush tunnel | .got tunnel _ _ => some tunnel.begun
  | _ => none

namespace Pool

variable {pool left next : Pool} {caller index waiter : ℕ} {get after : Get} {added : Option Tunnel}

/-- The tunnel which an event adds to the queue. -/
def pushed (pool : Pool) : PoolEvent → Option Tunnel
  | .build index =>
      match pool.builders[index]? with
      | some (.pushing tunnel) => some tunnel
      | _ => none
  | .getStep caller =>
      match pool.gets[caller]?.map Get.phase with
      | some (.refillPush tunnel) => some tunnel
      | _ => none
  | _ => none

/-- No call has been given a tunnel whose dial began before a purge that the call came after. -/
def PurgeEffective (pool : Pool) : Prop :=
  ∀ get ∈ pool.gets, ∀ tunnel pooled drained,
    get.phase = .got tunnel pooled drained → get.epoch ≤ tunnel.begun

/-- With the pool shut down and no build in flight, the queue is empty and gave out nothing. -/
def ShutdownEffective (pool : Pool) : Prop :=
  (pool.drained = true → pool.queue = []) ∧
    ∀ get ∈ pool.gets, ∀ tunnel, get.phase ≠ .got tunnel true true

/-- A purge finds the queue unlocked or empty; what is pushed was dialed since the last purge. -/
def PurgesAll (pool : Pool) (event : PoolEvent) : Prop :=
  (event = .purge true → pool.queue = []) ∧
    ∀ tunnel ∈ pool.pushed event, tunnel.begun = pool.epoch

/-- The shutdown finds the queue unlocked or empty; nothing is pushed after it has cleared it. -/
def ClosesQueue (pool : Pool) (event : PoolEvent) : Prop :=
  (event = .shutdownClear true → pool.shutdown = .requested → pool.queue = []) ∧
    ((pool.pushed event).isSome → pool.shutdown = .running ∨ pool.shutdown = .requested)

instance (pool : Pool) (event : PoolEvent) : Decidable (pool.PurgesAll event) :=
  inferInstanceAs (Decidable (_ ∧ ∀ tunnel ∈ pool.pushed event, _))

instance (pool : Pool) (event : PoolEvent) : Decidable (pool.ClosesQueue event) :=
  inferInstanceAs (Decidable ((_ → _ → _) ∧ (_ → _)))

section Effects

/-- What a step of the pool does to one call. -/
structure Moves (pool : Pool) (get after : Get) : Prop where
  epoch : after.epoch = get.epoch
  begun : ∀ begun, after.phase.begun? = some begun → get.phase.begun? = some begun ∨
    begun = pool.epoch ∨ ∃ tunnel ∈ pool.queue, tunnel.begun = begun
  pooled : ∀ tunnel, after.phase = .got tunnel true true → get.phase = .got tunnel true true ∨
    pool.drained = true ∧ tunnel ∈ pool.queue

/-- What a step does which is not a call of `get`, `purge_idle` or `shutdown`. -/
structure Effect (pool next : Pool) (added : Option Tunnel) : Prop where
  gets : ∀ after ∈ next.gets, ∃ get ∈ pool.gets, Moves pool get after
  queue : ∀ tunnel ∈ next.queue, tunnel ∈ added ∨ ∃ old ∈ pool.queue, old.begun = tunnel.begun
  epoch : next.epoch = pool.epoch
  shutdown : next.shutdown = pool.shutdown

theorem Moves.refl (pool : Pool) (get : Get) : Moves pool get get where
  epoch := rfl
  begun := fun _ begun => .inl begun
  pooled := fun _ pooled => .inl pooled

theorem Moves.of_nothing (epoch : after.epoch = get.epoch) (begun : after.phase.begun? = none) :
    Moves pool get after := by
  refine ⟨epoch, ?_, ?_⟩
  · intro other holds
    rw [begun] at holds
    exact nomatch holds
  · intro tunnel pooled
    rw [pooled] at begun
    exact nomatch begun

theorem begun?_withWait (phase : GetPhase) (wait : WaitPhase) :
    (phase.withWait wait).begun? = phase.begun? := by
  cases phase <;> rfl

theorem got_of_withWait {phase : GetPhase} {wait : WaitPhase} {tunnel : Tunnel}
    {pooled drained : Bool} (got : phase.withWait wait = .got tunnel pooled drained) :
    phase = .got tunnel pooled drained := by
  cases phase with
  | racing begun before => exact nomatch got
  | waiting before => exact nomatch got
  | _ => exact got

theorem Moves.withWait (moves : Moves pool get after) (wait : WaitPhase) :
    Moves pool get (after.withWait wait) where
  epoch := moves.epoch
  begun := by
    intro begun holds
    rw [Get.withWait, begun?_withWait] at holds
    exact moves.begun begun holds
  pooled := fun tunnel pooled => moves.pooled tunnel (got_of_withWait pooled)

theorem Moves.onBroadcast (moves : Moves pool get after) : Moves pool get after.onBroadcast := by
  rw [Get.onBroadcast]
  cases after.phase.wait? with
  | none => exact moves
  | some wait => exact moves.withWait wait.onBroadcast

theorem Effect.refl (pool : Pool) (added : Option Tunnel) : Effect pool pool added where
  gets := fun get member => ⟨get, member, .refl pool get⟩
  queue := fun tunnel member => .inr ⟨tunnel, member, rfl⟩
  epoch := rfl
  shutdown := rfl

theorem Effect.setGet (effect : Effect pool left added) (found : pool.gets[caller]? = some get)
    (moves : Moves pool get after) : Effect pool (left.setGet caller after) added where
  gets := by
    intro other member
    rcases List.mem_or_eq_of_mem_set member with before | rfl
    · exact effect.gets other before
    · exact ⟨get, List.mem_of_getElem? found, moves⟩
  queue := effect.queue
  epoch := effect.epoch
  shutdown := effect.shutdown

theorem Effect.notifyOne (effect : Effect pool left added)
    (notified : left.notifyOne waiter = some next) : Effect pool next added := by
  rw [Pool.notifyOne] at notified
  cases registered : left.gets[waiter]?.filter Get.isParked with
  | some get =>
      simp only [registered, Option.some.injEq] at notified
      subst notified
      rw [Option.filter_eq_some_iff] at registered
      refine ⟨?_, effect.queue, effect.epoch, effect.shutdown⟩
      intro other member
      rcases List.mem_or_eq_of_mem_set member with before | rfl
      · exact effect.gets other before
      · rcases effect.gets get (List.mem_of_getElem? registered.1) with ⟨old, oldMem, moves⟩
        exact ⟨old, oldMem, moves.withWait _⟩
  | none =>
      simp only [registered] at notified
      split at notified
      · exact nomatch notified
      · rw [Option.some.injEq] at notified
        subst notified
        exact ⟨effect.gets, effect.queue, effect.epoch, effect.shutdown⟩

theorem Effect.notifyOne_getD (effect : Effect pool left added) :
    Effect pool ((left.notifyOne waiter).getD pool) added := by
  cases notified : left.notifyOne waiter with
  | none => exact .refl pool added
  | some next => exact effect.notifyOne notified

theorem Effect.notifyWaiters (effect : Effect pool left added) :
    Effect pool left.notifyWaiters added where
  gets := by
    intro other member
    rcases List.mem_map.mp member with ⟨get, getMem, rfl⟩
    rcases effect.gets get getMem with ⟨old, oldMem, moves⟩
    exact ⟨old, oldMem, moves.onBroadcast⟩
  queue := effect.queue
  epoch := effect.epoch
  shutdown := effect.shutdown

theorem Effect.setBuilder (effect : Effect pool left added) (index : ℕ) (builder : Builder) :
    Effect pool (left.setBuilder index builder) added :=
  ⟨effect.gets, effect.queue, effect.epoch, effect.shutdown⟩

/-- A queue whose tunnels were dialed when those of before were. -/
theorem Effect.of_queue {queue : List Tunnel}
    (from_before : ∀ tunnel ∈ queue, ∃ old ∈ pool.queue, old.begun = tunnel.begun)
    (added : Option Tunnel) : Effect pool { pool with queue := queue } added :=
  ⟨(Effect.refl pool added).gets, fun tunnel member => .inr (from_before tunnel member), rfl, rfl⟩

theorem Effect.push (pool : Pool) (tunnel : Tunnel) :
    Effect pool (pool.push tunnel) (some tunnel) where
  gets := (Effect.refl pool none).gets
  queue := by
    intro other member
    rcases List.mem_append.mp member with before | isNew
    · exact .inr ⟨other, before, rfl⟩
    · rw [List.mem_singleton.mp isNew]
      exact .inl rfl
  epoch := rfl
  shutdown := rfl

theorem popValidTunnel_sublist (queue : List Tunnel) : (popValidTunnel queue).2.Sublist queue := by
  induction queue with
  | nil => exact .refl _
  | cons tunnel rest ih =>
      rw [popValidTunnel]
      split
      · exact List.sublist_cons_self tunnel rest
      · exact ih.cons tunnel

theorem mem_of_popValidTunnel {queue : List Tunnel} {tunnel : Tunnel}
    (popped : (popValidTunnel queue).1 = some tunnel) : tunnel ∈ queue := by
  induction queue with
  | nil => exact nomatch popped
  | cons first rest ih =>
      rw [popValidTunnel] at popped
      split at popped
      · rw [Option.some.injEq] at popped
        rw [popped]
        exact List.mem_cons_self
      · exact List.mem_cons_of_mem first (ih popped)

theorem effect_popFor (found : pool.gets[caller]? = some get) {empty : GetPhase}
    (moves : Moves pool get { get with phase := empty }) (added : Option Tunnel) :
    Effect pool (pool.popFor caller get empty) added := by
  have effect : Effect pool { pool with queue := (popValidTunnel pool.queue).2 } added := by
    apply Effect.of_queue
    intro tunnel member
    exact ⟨tunnel, (popValidTunnel_sublist pool.queue).subset member, rfl⟩
  apply effect.setGet found
  cases popped : (popValidTunnel pool.queue).1 with
  | none => exact moves
  | some tunnel =>
      have queued := mem_of_popValidTunnel popped
      refine ⟨rfl, ?_, ?_⟩
      · intro begun holds
        right
        right
        exact ⟨tunnel, queued, Option.some.inj holds⟩
      · intro other got
        simp only [Option.elim_some, GetPhase.got.injEq, true_and] at got
        right
        rw [← got.1]
        exact ⟨got.2, queued⟩

theorem effect_waitStep (found : pool.gets[caller]? = some get) (wait : WaitPhase)
    (added : Option Tunnel) : Effect pool (pool.waitStep caller get wait) added := by
  have moves : ∀ after, Moves pool get (get.withWait after) := (Moves.refl pool get).withWait
  have unchanged := Effect.refl pool added
  cases wait with
  | head claimed => exact unchanged.setGet found (moves _)
  | checking claimed broadcast => exact effect_popFor found (moves _) added
  | window broadcast =>
      rw [waitStep]
      split
      · have taken : Effect pool { pool with permit := false } added :=
          ⟨unchanged.gets, unchanged.queue, rfl, rfl⟩
        exact taken.setGet found (moves _)
      · split
        · exact unchanged.setGet found (moves _)
        · exact unchanged.setGet found (moves _)
  | parked => exact unchanged
  | woken claimed => exact unchanged.setGet found (moves _)

theorem Moves.of_same {phase : GetPhase} (begun : phase.begun? = get.phase.begun?)
    (unpooled : ∀ tunnel, phase ≠ .got tunnel true true) :
    Moves pool get { get with phase := phase } where
  epoch := rfl
  begun := by
    intro other holds
    left
    rw [← begun]
    exact holds
  pooled := fun tunnel pooled => absurd pooled (unpooled tunnel)

theorem effect_getStep (found : pool.gets[caller]? = some get) :
    Effect pool (pool.getStep caller get) (pool.pushed (.getStep caller)) := by
  have unchanged := Effect.refl pool (pool.pushed (.getStep caller))
  rw [getStep]
  cases phase : get.phase with
  | racing begun wait => exact effect_waitStep found wait _
  | waiting wait => exact effect_waitStep found wait _
  | refillCheck tunnel =>
      simp only
      split
      · apply unchanged.setGet found
        exact .of_same (by rw [phase]; rfl) (fun _ => nofun)
      · apply unchanged.setGet found
        exact .of_same (by rw [phase]; rfl) (fun _ => by simp)
  | refillPush tunnel =>
      have isPushed : pool.pushed (.getStep caller) = some tunnel := by
        simp [pushed, found, phase]
      rw [isPushed]
      apply (Effect.push pool tunnel).setGet found
      exact .of_nothing rfl rfl
  | refillPop =>
      apply effect_popFor found
      exact .of_nothing rfl rfl
  | start | refillNotify | got | failed => exact unchanged

theorem effect_leave (found : pool.gets[caller]? = some get) {phase : GetPhase}
    (moves : Moves pool get { get with phase := phase }) (waiter : ℕ) (added : Option Tunnel) :
    Effect pool (pool.leave caller get phase waiter) added := by
  have left := (Effect.refl pool added).setGet found moves
  simp only [leave]
  split
  · exact left.notifyOne_getD
  · exact left

theorem effect_build (pool : Pool) (index : ℕ) :
    Effect pool (pool.build index) (pool.pushed (.build index)) := by
  have unchanged := Effect.refl pool (pool.pushed (.build index))
  rw [build]
  split
  · exact unchanged.setBuilder index _
  · exact unchanged.setBuilder index _
  · rename_i tunnel found
    have isPushed : pool.pushed (.build index) = some tunnel := by
      simp [pushed, found]
    rw [isPushed]
    exact (Effect.push pool tunnel).setBuilder index _
  · exact unchanged

theorem Effect.elim_get {act : Get → Pool}
    (acts : ∀ get, pool.gets[caller]? = some get → Effect pool (act get) added) :
    Effect pool (pool.gets[caller]?.elim pool act) added := by
  cases found : pool.gets[caller]? with
  | none => exact .refl pool added
  | some get => exact acts get found

theorem Effect.modify {change : Tunnel → Tunnel}
    (same : ∀ tunnel, (change tunnel).begun = tunnel.begun) (index : ℕ) (added : Option Tunnel) :
    Effect pool { pool with queue := pool.queue.modify index change } added := by
  apply Effect.of_queue
  intro tunnel member
  rcases List.mem_iff_getElem?.mp member with ⟨position, found⟩
  rw [List.getElem?_modify, Option.map_eq_map, Option.map_eq_some_iff] at found
  rcases found with ⟨old, oldAt, rfl⟩
  refine ⟨old, List.mem_of_getElem? oldAt, ?_⟩
  split
  · exact (same old).symm
  · rfl

/-- Every other event is a step of a task: of a builder or a call, of time or of the manager. -/
theorem step_cases (pool : Pool) (event : PoolEvent) :
    Effect pool (pool.step event) (pool.pushed event) ∨ event = .get ∨
      (∃ contended, event = .purge contended) ∨ event = .shutdownRequest ∨
      (∃ contended, event = .shutdownClear contended) ∨ event = .shutdownNotify := by
  have unchanged := Effect.refl pool (pool.pushed event)
  cases event with
  | get => exact .inr (.inl rfl)
  | purge contended => exact .inr (.inr (.inl ⟨contended, rfl⟩))
  | shutdownRequest => exact .inr (.inr (.inr (.inl rfl)))
  | shutdownClear contended => exact .inr (.inr (.inr (.inr (.inl ⟨contended, rfl⟩))))
  | shutdownNotify => exact .inr (.inr (.inr (.inr (.inr rfl))))
  | spawn =>
      left
      exact ⟨unchanged.gets, unchanged.queue, rfl, rfl⟩
  | build index => exact .inl (effect_build pool index)
  | dialEnds index succeeds =>
      left
      rw [step, dialEnds]
      split
      · exact unchanged.setBuilder index _
      · exact unchanged
  | notify index waiter =>
      left
      rw [step, builderNotify]
      split
      · exact (unchanged.setBuilder index _).notifyOne_getD
      · exact unchanged
  | getStep caller => exact .inl (Effect.elim_get fun get found => effect_getStep found)
  | getPop caller onDemand =>
      left
      apply Effect.elim_get
      intro get found
      rw [getPop]
      split
      · apply effect_popFor found
        cases onDemand with
        | true => exact .of_nothing rfl rfl
        | false => exact .of_nothing rfl rfl
      · exact unchanged
  | getDials caller =>
      left
      apply Effect.elim_get
      intro get found
      rw [getDials]
      split
      · apply unchanged.setGet found
        refine ⟨rfl, ?_, fun _ => nofun⟩
        intro begun holds
        exact .inr (.inl (Option.some.inj holds).symm)
      · exact unchanged
  | getDialEnds caller succeeds waiter =>
      left
      apply Effect.elim_get
      intro get found
      rw [getDialEnds]
      split
      · rename_i begun wait phase
        split
        · apply effect_leave found
          cases succeeds with
          | true => exact .of_same (by rw [phase]; rfl) (fun _ => nofun)
          | false => exact .of_nothing rfl rfl
        · exact unchanged
      · exact unchanged
  | getNotify caller waiter =>
      left
      apply Effect.elim_get
      intro get found
      rw [getNotify]
      split
      · have moves : Moves pool get { get with phase := .refillPop } := .of_nothing rfl rfl
        exact (unchanged.setGet found moves).notifyOne_getD
      · exact unchanged
  | getDrop caller waiter =>
      left
      apply Effect.elim_get
      intro get found
      rw [getDrop]
      split
      · have moves : Moves pool get { get with phase := .failed } := .of_nothing rfl rfl
        exact effect_leave found moves waiter _
      · exact unchanged
  | expire index =>
      left
      apply Effect.modify
      exact fun _ => rfl
  | spoil index =>
      left
      apply Effect.modify
      exact fun _ => rfl
  | sweep =>
      left
      apply Effect.of_queue
      intro tunnel member
      exact ⟨tunnel, List.mem_of_mem_filter member, rfl⟩
  | setTarget size =>
      left
      exact ⟨unchanged.gets, unchanged.queue, rfl, rfl⟩
  | notifyWaiters => exact .inl unchanged.notifyWaiters

end Effects

section Purge

/-- The queue holds tunnels dialed since the last purge, and a call none of before it. -/
structure Purged (pool : Pool) : Prop where
  queue : ∀ tunnel ∈ pool.queue, tunnel.begun = pool.epoch
  gets : ∀ get ∈ pool.gets, get.epoch ≤ pool.epoch ∧
    ∀ begun, get.phase.begun? = some begun → get.epoch ≤ begun

theorem Purged.of_effect (purged : Purged pool) (effect : Effect pool next added)
    (fresh : ∀ tunnel ∈ added, tunnel.begun = pool.epoch) : Purged next where
  queue := by
    intro tunnel member
    rw [effect.epoch]
    rcases effect.queue tunnel member with isNew | ⟨old, oldMem, same⟩
    · exact fresh tunnel isNew
    · rw [← same]
      exact purged.queue old oldMem
  gets := by
    intro new member
    rcases effect.gets new member with ⟨get, getMem, moves⟩
    rcases purged.gets get getMem with ⟨before, after⟩
    rw [effect.epoch, moves.epoch]
    refine ⟨before, ?_⟩
    intro begun holds
    rcases moves.begun begun holds with same | rfl | ⟨tunnel, queued, rfl⟩
    · exact after begun same
    · exact before
    · rw [purged.queue tunnel queued]
      exact before

theorem Purged.step (purged : Purged pool) {event : PoolEvent} (all : pool.PurgesAll event) :
    Purged (pool.step event) := by
  have plain : ∀ {next : Pool}, Effect pool next none → Purged next := fun effect =>
    purged.of_effect effect fun _ => nofun
  rcases step_cases pool event with
    effect | rfl | ⟨contended, rfl⟩ | rfl | ⟨contended, rfl⟩ | rfl
  · exact purged.of_effect effect all.2
  · refine ⟨purged.queue, ?_⟩
    intro get member
    rcases List.mem_append.mp member with before | isNew
    · exact purged.gets get before
    · rw [List.mem_singleton.mp isNew]
      exact ⟨Nat.le_refl _, fun _ => nofun⟩
  · have emptied : ∀ {queue : List Tunnel}, queue = [] →
        Purged { pool with epoch := pool.epoch + 1, queue := queue } := by
      rintro _ rfl
      refine ⟨fun _ => nofun, ?_⟩
      intro get member
      rcases purged.gets get member with ⟨before, after⟩
      exact ⟨Nat.le_succ_of_le before, after⟩
    cases contended with
    | true => exact emptied (all.1 rfl)
    | false => exact (emptied rfl).of_effect (Effect.refl _ none).notifyWaiters fun _ => nofun
  · rw [Pool.step]
    split
    · exact ⟨purged.queue, purged.gets⟩
    · exact purged
  · rw [Pool.step]
    split
    · cases contended with
      | true => exact ⟨purged.queue, purged.gets⟩
      | false => exact ⟨fun _ => nofun, purged.gets⟩
    · exact purged
  · rw [Pool.step]
    split
    · have completed : Purged { pool with shutdown := .complete } := ⟨purged.queue, purged.gets⟩
      exact completed.of_effect (Effect.refl _ none).notifyWaiters fun _ => nofun
    · exact purged

theorem Purged.new (targetSize : ℕ) : Purged (.new targetSize) where
  queue := fun _ => nofun
  gets := fun _ => nofun

theorem Purged.effective (purged : Purged pool) : pool.PurgeEffective := by
  intro get member tunnel pooled drained got
  apply (purged.gets get member).2
  rw [got]
  rfl

end Purge

section Close

/-- The queue is empty once the shutdown has cleared it, and was not popped with all builds
done. -/
structure Closed (pool : Pool) : Prop where
  queue : pool.shutdown = .cleared ∨ pool.shutdown = .complete → pool.queue = []
  gets : ∀ get ∈ pool.gets, ∀ tunnel, get.phase ≠ .got tunnel true true

theorem Closed.queue_of_drained (closed : Closed pool) (drained : pool.drained = true) :
    pool.queue = [] := by
  apply closed.queue
  right
  simp only [Pool.drained, Bool.and_eq_true, beq_iff_eq] at drained
  exact drained.1.1

theorem Closed.of_effect (closed : Closed pool) (effect : Effect pool next added)
    (open_if_pushed : added.isSome → pool.shutdown = .running ∨ pool.shutdown = .requested) :
    Closed next where
  queue := by
    rw [effect.shutdown]
    intro isClosed
    rw [List.eq_nil_iff_forall_not_mem]
    intro tunnel member
    rcases effect.queue tunnel member with isNew | ⟨old, oldMem, _⟩
    · have stillOpen := open_if_pushed (Option.isSome_of_mem isNew)
      rcases isClosed with isClosed | isClosed
      · rw [isClosed] at stillOpen
        exact stillOpen.elim nofun nofun
      · rw [isClosed] at stillOpen
        exact stillOpen.elim nofun nofun
    · rw [closed.queue isClosed] at oldMem
      exact List.not_mem_nil oldMem
  gets := by
    intro new member tunnel got
    rcases effect.gets new member with ⟨get, getMem, moves⟩
    rcases moves.pooled tunnel got with before | ⟨drained, queued⟩
    · exact closed.gets get getMem tunnel before
    · rw [closed.queue_of_drained drained] at queued
      exact List.not_mem_nil queued

theorem Closed.step (closed : Closed pool) {event : PoolEvent} (closes : pool.ClosesQueue event) :
    Closed (pool.step event) := by
  rcases step_cases pool event with
    effect | rfl | ⟨contended, rfl⟩ | rfl | ⟨contended, rfl⟩ | rfl
  · exact closed.of_effect effect closes.2
  · refine ⟨closed.queue, ?_⟩
    intro get member
    rcases List.mem_append.mp member with before | isNew
    · exact closed.gets get before
    · rw [List.mem_singleton.mp isNew]
      exact fun _ => nofun
  · cases contended with
    | true => exact ⟨closed.queue, closed.gets⟩
    | false =>
        have emptied : Closed { pool with epoch := pool.epoch + 1, queue := [] } :=
          ⟨fun _ => rfl, closed.gets⟩
        exact emptied.of_effect (Effect.refl _ none).notifyWaiters nofun
  · rw [Pool.step]
    split
    · exact ⟨fun isClosed => isClosed.elim nofun nofun, closed.gets⟩
    · exact closed
  · rw [Pool.step]
    split
    · rename_i requested
      refine ⟨fun _ => ?_, closed.gets⟩
      cases contended with
      | true => exact closes.1 rfl requested
      | false => rfl
    · exact closed
  · rw [Pool.step]
    split
    · rename_i cleared
      have completed : Closed { pool with shutdown := .complete } :=
        ⟨fun _ => closed.queue (.inl cleared), closed.gets⟩
      exact completed.of_effect (Effect.refl _ none).notifyWaiters nofun
    · exact closed

theorem Closed.new (targetSize : ℕ) : Closed (.new targetSize) where
  queue := fun _ => rfl
  gets := fun _ => nofun

theorem Closed.effective (closed : Closed pool) : pool.ShutdownEffective :=
  ⟨closed.queue_of_drained, closed.gets⟩

end Close

/--
Purges are effective in every run in which they find the queue unlocked and
nothing is pushed that was dialed before the last one; the shutdown is effective
in every run in which it finds the queue unlocked and nothing is pushed after it.
-/
theorem purge_and_shutdown_effective (targetSize : ℕ) (events : List PoolEvent) :
    (Along step PurgesAll (new targetSize) events →
      (run step (new targetSize) events).PurgeEffective) ∧
    (Along step ClosesQueue (new targetSize) events →
      (run step (new targetSize) events).ShutdownEffective) := by
  constructor
  · intro along
    apply Purged.effective
    exact run_invariant_along (fun all purged => purged.step all) along (.new targetSize)
  · intro along
    apply Closed.effective
    exact run_invariant_along (fun closes closed => closed.step closes) along (.new targetSize)

/-- A tunnel is built and taken, the pool purged, another built, and the pool shut down. -/
def orderly : List PoolEvent :=
  [.spawn, .build 0, .dialEnds 0 true, .build 0, .build 0, .notify 0 0, .purge false, .spawn,
    .build 1, .dialEnds 1 true, .build 1, .build 1, .notify 1 0, .get, .getPop 0 false,
    .shutdownRequest, .shutdownClear false, .shutdownNotify]

theorem purge_and_shutdown_effective_orderly :
    (run step (new 1) orderly).PurgeEffective ∧ (run step (new 1) orderly).ShutdownEffective :=
  ⟨(purge_and_shutdown_effective 1 orderly).1 (by decide +kernel),
    (purge_and_shutdown_effective 1 orderly).2 (by decide +kernel)⟩

/-- A builder dials, the pool is purged, and the tunnel is pushed and taken. -/
def purgedDuringDial : List PoolEvent :=
  [.spawn, .build 0, .purge false, .dialEnds 0 true, .build 0, .build 0, .notify 0 0, .get,
    .getPop 0 false]

/-- A builder has looked at the flag, the pool is shut down, and the tunnel is pushed and taken. -/
def shutDownBeforePush : List PoolEvent :=
  [.spawn, .build 0, .dialEnds 0 true, .build 0, .shutdownRequest, .shutdownClear false,
    .shutdownNotify, .build 0, .notify 0 0, .get, .getPop 0 false]

theorem not_purge_and_shutdown_effective :
    ¬(run step (new 1) purgedDuringDial).PurgeEffective ∧
      ¬(run step (new 1) shutDownBeforePush).ShutdownEffective := by
  constructor
  · intro effective
    have old := effective ⟨1, .got ⟨0, false, false⟩ true false⟩ (by decide +kernel)
      ⟨0, false, false⟩ true false rfl
    exact absurd old (by decide)
  · intro effective
    exact effective.2 ⟨0, .got ⟨0, false, false⟩ true true⟩ (by decide +kernel)
      ⟨0, false, false⟩ rfl

end Pool

end Mirage.Proxy

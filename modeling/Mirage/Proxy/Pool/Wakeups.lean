import Mirage.Proxy.Pool

/-!
# Wakeups of the warm pool

The argument is a count.  A tunnel in the queue is spoken for if some caller has
been woken and has not looked since; the others should be covered, as far as
callers wait, by the stored permit and the notifications still to come.  Every
step keeps this but two kinds: a notification which finds a permit stored and
nobody registered adds nothing, and a woken caller may be dropped before it
looks into the queue.  With both a tunnel can be left in the queue while a
caller sleeps.
-/

namespace Mirage.Proxy

open Mirage.Foundations

namespace Pool

variable {pool next : Pool} {caller index waiter : ℕ} {get : Get}

/-- The callers which have been woken by `notify_one` and have not looked since. -/
def claims (pool : Pool) : ℕ := pool.gets.countP Get.claimed

def waiting (pool : Pool) : ℕ := pool.gets.countP Get.waits

/-- The calls of `notify_one` which are still to come for what has been pushed. -/
def pending (pool : Pool) : ℕ :=
  pool.builders.countP (· == .notifying) + pool.gets.countP Get.notifies

/-- With so many claims, so many wakeups are enough for the waiting callers. -/
def CoveredBy (pool : Pool) (claims wakeups : ℕ) : Prop :=
  min (pool.queue.length - claims) pool.waiting ≤ wakeups

instance (pool : Pool) (claims wakeups : ℕ) : Decidable (pool.CoveredBy claims wakeups) :=
  inferInstanceAs (Decidable (_ ≤ _))

def Covered (pool : Pool) : Prop :=
  pool.CoveredBy pool.claims (pool.permit.toNat + pool.pending)

/-- A `notify_one` would find the permit stored and nobody registered. -/
def absorbs (pool : Pool) : Bool := pool.permit && !pool.anyParked

/-- A `notify_one`, or an equivalent of it, is still to come. -/
def wakeupPending (pool : Pool) : Bool :=
  pool.permit || pool.builders.any (· == .notifying) ||
    pool.gets.any fun get => get.notifies || get.claimed

/-- A caller sleeps, a valid tunnel is in the queue, and nothing will wake the caller. -/
def LostWakeup (pool : Pool) : Prop :=
  pool.anyParked = true ∧ (∃ tunnel ∈ pool.queue, tunnel.valid = true) ∧
    pool.wakeupPending = false

/-- No task has anything to do: the builders are done, the callers sleep or have returned. -/
def Quiescent (pool : Pool) : Prop :=
  (∀ builder ∈ pool.builders, builder = .done) ∧
    ∀ get ∈ pool.gets, get.isParked = true ∨ get.phase.returned = true

instance (pool : Pool) : Decidable pool.LostWakeup :=
  inferInstanceAs (Decidable (_ ∧ _ ∧ _))

instance (pool : Pool) : Decidable pool.Quiescent :=
  inferInstanceAs (Decidable (_ ∧ _))

/-- Dropping the caller loses the claim it has: it does not pass it on, or in vain. -/
def losesClaim (pool : Pool) (get : Get) : Bool :=
  get.claimed && get.phase.droppable && (!get.forwards || pool.absorbs)

/--
A notification which is absorbed and a claim which is lost are not needed: what
remains is enough for the callers that wait, or for the tunnels not spoken for.
-/
def KeepsWakeups (pool : Pool) : PoolEvent → Prop
  | .notify index _ =>
      pool.builders[index]? = some .notifying → pool.absorbs = true →
        pool.CoveredBy pool.claims pool.pending
  | .getNotify caller _ =>
      ∀ get ∈ pool.gets[caller]?, get.notifies = true → pool.absorbs = true →
        pool.CoveredBy pool.claims pool.pending
  | .getDialEnds caller _ _ | .getDrop caller _ =>
      ∀ get ∈ pool.gets[caller]?, pool.losesClaim get = true →
        pool.CoveredBy (pool.claims - 1) (pool.permit.toNat + pool.pending)
  | _ => True

instance (pool : Pool) : (event : PoolEvent) → Decidable (pool.KeepsWakeups event)
  | .notify .. => inferInstanceAs (Decidable (_ → _ → _))
  | .getNotify caller _ => inferInstanceAs (Decidable (∀ get ∈ pool.gets[caller]?, _ → _ → _))
  | .getDialEnds caller _ _ => inferInstanceAs (Decidable (∀ get ∈ pool.gets[caller]?, _ → _))
  | .getDrop caller _ => inferInstanceAs (Decidable (∀ get ∈ pool.gets[caller]?, _ → _))
  | .spawn | .build _ | .dialEnds .. | .get | .getStep _ | .getPop .. | .getDials _ | .purge _
  | .shutdownRequest | .shutdownClear _ | .shutdownNotify | .expire _ | .spoil _ | .sweep
  | .setTarget _ | .notifyWaiters => .isTrue trivial

section Counts

theorem setGet_counts (found : pool.gets[caller]? = some get) (new : Get) :
    (pool.setGet caller new).claims + get.claimed.toNat = pool.claims + new.claimed.toNat ∧
      (pool.setGet caller new).waiting + get.waits.toNat = pool.waiting + new.waits.toNat ∧
      (pool.setGet caller new).pending + get.notifies.toNat =
        pool.pending + new.notifies.toNat := by
  refine ⟨countP_set_add found Get.claimed new, countP_set_add found Get.waits new, ?_⟩
  have counted := countP_set_add found Get.notifies new
  simp only [pending, setGet]
  omega

theorem setBuilder_pending {builder : Builder} (found : pool.builders[index]? = some builder)
    (new : Builder) :
    (pool.setBuilder index new).pending + (builder == .notifying).toNat =
      pool.pending + (new == .notifying).toNat := by
  have counted := countP_set_add found (· == .notifying) new
  simp only [pending, setBuilder]
  omega

theorem onBroadcast_claimed (get : Get) : get.onBroadcast.claimed = get.claimed := by
  rcases get with ⟨epoch, phase⟩
  cases phase with
  | racing begun wait => cases wait <;> rfl
  | waiting wait => cases wait <;> rfl
  | _ => rfl

theorem waits_of_onBroadcast (get : Get) (waits : get.onBroadcast.waits = true) :
    get.waits = true := by
  rcases get with ⟨epoch, phase⟩
  cases phase with
  | racing begun wait => cases wait <;> first | rfl | exact waits
  | waiting wait => cases wait <;> first | rfl | exact waits
  | _ => exact waits

theorem onBroadcast_notifies (get : Get) : get.onBroadcast.notifies = get.notifies := by
  rcases get with ⟨epoch, phase⟩
  cases phase with
  | racing begun wait => cases wait <;> rfl
  | waiting wait => cases wait <;> rfl
  | _ => rfl

theorem notifyWaiters_counts (pool : Pool) :
    pool.notifyWaiters.claims = pool.claims ∧ pool.notifyWaiters.waiting ≤ pool.waiting ∧
      pool.notifyWaiters.pending = pool.pending := by
  refine ⟨?_, ?_, ?_⟩
  · simp only [claims, notifyWaiters, List.countP_map]
    congr 1
    funext get
    exact onBroadcast_claimed get
  · simp only [waiting, notifyWaiters, List.countP_map]
    apply List.countP_mono_left
    intro get _
    exact waits_of_onBroadcast get
  · simp only [pending, notifyWaiters, List.countP_map]
    congr 2
    funext get
    exact onBroadcast_notifies get

/-- A registered caller waits, and has no claim. -/
theorem counts_of_isParked (parked : get.isParked = true) :
    get.waits = true ∧ get.claimed = false ∧ get.notifies = false := by
  rw [Get.isParked, beq_iff_eq] at parked
  refine ⟨?_, ?_, ?_⟩
  · rw [Get.waits, parked]
    rfl
  · rw [Get.claimed, parked]
    rfl
  · rw [Get.notifies, beq_eq_false_iff_ne]
    intro notifies
    rw [notifies] at parked
    exact Option.some_ne_none _ parked.symm

theorem wait?_withWait {phase : GetPhase} {old : WaitPhase} (waits : phase.wait? = some old)
    (wait : WaitPhase) : (phase.withWait wait).wait? = some wait := by
  cases phase with
  | racing begun before => rfl
  | waiting before => rfl
  | _ => exact absurd waits.symm (Option.some_ne_none old)

theorem withWait_notifies (get : Get) (wait : WaitPhase) :
    (get.withWait wait).notifies = get.notifies := by
  rcases get with ⟨epoch, phase⟩
  cases phase <;> rfl

end Counts

section Steps

/-- A notification covers one caller more, unless it is absorbed. -/
theorem covered_notifyOne (notified : pool.notifyOne waiter = some next)
    (enough : pool.CoveredBy pool.claims (pool.permit.toNat + pool.pending + 1))
    (absorbed : pool.absorbs = true → pool.CoveredBy pool.claims (1 + pool.pending)) :
    next.Covered := by
  rw [notifyOne] at notified
  cases registered : pool.gets[waiter]?.filter Get.isParked with
  | some get =>
      simp only [registered, Option.some.injEq] at notified
      subst notified
      rw [Option.filter_eq_some_iff] at registered
      rcases registered with ⟨found, parked⟩
      rcases counts_of_isParked parked with ⟨waits, unclaimed, _⟩
      rcases setGet_counts found (get.withWait (.woken true)) with
        ⟨claimsAfter, waitingAfter, pendingAfter⟩
      have woken : (get.withWait (.woken true)).phase.wait? = some (.woken true) := by
        rw [Get.isParked, beq_iff_eq] at parked
        exact wait?_withWait parked _
      have claimed : (get.withWait (.woken true)).claimed = true := by
        rw [Get.claimed, woken]
        rfl
      have runs : (get.withWait (.woken true)).waits = false := by
        rw [Get.waits, woken]
        rfl
      rw [claimed, unclaimed] at claimsAfter
      rw [runs, waits] at waitingAfter
      rw [withWait_notifies] at pendingAfter
      simp only [Bool.toNat_true, Bool.toNat_false] at claimsAfter waitingAfter
      simp only [Covered, CoveredBy] at enough ⊢
      simp only [setGet] at claimsAfter waitingAfter pendingAfter ⊢
      omega
  | none =>
      simp only [registered] at notified
      split at notified
      · exact nomatch notified
      · rename_i nobody
        rw [Option.some.injEq] at notified
        subst notified
        cases stored : pool.permit with
        | true =>
            have covered := absorbed (by simp [absorbs, stored, nobody])
            exact covered
        | false =>
            rw [CoveredBy, stored] at enough
            simp only [Bool.toNat_false, Nat.zero_add] at enough
            simp only [Covered, CoveredBy, Bool.toNat_true]
            change min (pool.queue.length - pool.claims) pool.waiting ≤ 1 + pool.pending
            omega

theorem covered_notifyWaiters (covered : pool.Covered) : pool.notifyWaiters.Covered := by
  rcases pool.notifyWaiters_counts with ⟨sameClaims, fewer, samePending⟩
  rw [Covered, CoveredBy] at covered ⊢
  rw [sameClaims, samePending]
  simp only [notifyWaiters] at fewer ⊢
  omega

theorem covered_of_empty (empty : pool.queue = []) : pool.Covered := by
  rw [Covered, CoveredBy, empty, List.length_nil, Nat.zero_sub, Nat.zero_min]
  exact Nat.zero_le _

theorem popValidTunnel_length (queue : List Tunnel) :
    (popValidTunnel queue).2.length + (popValidTunnel queue).1.isSome.toNat ≤ queue.length := by
  induction queue with
  | nil => exact Nat.le_refl 0
  | cons tunnel rest ih =>
      rw [popValidTunnel]
      split
      · simp
      · rw [List.length_cons]
        omega

theorem popValidTunnel_none {queue : List Tunnel} (nothing : (popValidTunnel queue).1 = none) :
    (popValidTunnel queue).2 = [] := by
  induction queue with
  | nil => rfl
  | cons tunnel rest ih =>
      rw [popValidTunnel] at nothing ⊢
      split
      · rename_i valid
        rw [if_pos valid] at nothing
        exact nomatch nothing
      · rename_i invalid
        rw [if_neg invalid] at nothing
        exact ih nothing

/-- A caller which looks into the queue uses up its claim, and takes a tunnel or leaves none. -/
theorem covered_popFor (covered : pool.Covered) (found : pool.gets[caller]? = some get)
    (runs : get.waits = false) (pushes : get.notifies = false) (empty : GetPhase) :
    (pool.popFor caller get empty).Covered := by
  cases popped : (popValidTunnel pool.queue).1 with
  | none =>
      apply covered_of_empty
      exact popValidTunnel_none popped
  | some tunnel =>
      have shorter := popValidTunnel_length pool.queue
      rcases setGet_counts found { get with phase := .got tunnel true pool.drained } with
        ⟨claimsAfter, waitingAfter, pendingAfter⟩
      rw [runs] at waitingAfter
      rw [pushes] at pendingAfter
      rw [popped] at shorter
      simp only [Option.isSome_some, Bool.toNat_true] at shorter
      have oneClaim := Bool.toNat_le get.claimed
      simp only [Covered, CoveredBy] at covered ⊢
      simp only [popFor, popped, Option.elim_some]
      change _ + _ = _ + 0 at claimsAfter waitingAfter pendingAfter
      change min ((popValidTunnel pool.queue).2.length - (pool.setGet caller _).claims)
        (pool.setGet caller _).waiting ≤ pool.permit.toNat + (pool.setGet caller _).pending
      simp only [Bool.toNat_false] at waitingAfter pendingAfter
      omega

theorem claimed_of_wait {wait : WaitPhase} (waits : get.phase.wait? = some wait) :
    get.claimed = wait.claimed := by
  rw [Get.claimed, waits, Option.any_some]

theorem waits_of_wait {wait : WaitPhase} (waits : get.phase.wait? = some wait) :
    get.waits = wait.waits := by
  rw [Get.waits, waits, Option.any_some]

theorem not_notifies_of_wait {wait : WaitPhase} (waits : get.phase.wait? = some wait) :
    get.notifies = false := by
  rw [Get.notifies, beq_eq_false_iff_ne]
  intro notifies
  rw [notifies] at waits
  exact Option.some_ne_none wait waits.symm

/-- A caller goes on, keeps its claim and does not begin to wait. -/
theorem covered_setGet (covered : pool.Covered) (found : pool.gets[caller]? = some get) {new : Get}
    (keepsClaim : get.claimed = true → new.claimed = true)
    (waitedBefore : new.waits = true → get.waits = true)
    (samePush : new.notifies = get.notifies) : (pool.setGet caller new).Covered := by
  rcases setGet_counts found new with ⟨claimsAfter, waitingAfter, pendingAfter⟩
  have moreClaims : get.claimed.toNat ≤ new.claimed.toNat := Bool.toNat_le_toNat keepsClaim
  have fewerWait : new.waits.toNat ≤ get.waits.toNat := Bool.toNat_le_toNat waitedBefore
  rw [samePush] at pendingAfter
  simp only [Covered, CoveredBy] at covered ⊢
  simp only [setGet] at claimsAfter waitingAfter pendingAfter ⊢
  omega

theorem covered_setGet_wait (covered : pool.Covered) (found : pool.gets[caller]? = some get)
    {wait after : WaitPhase} (waits : get.phase.wait? = some wait)
    (keepsClaim : wait.claimed = true → after.claimed = true)
    (waitedBefore : after.waits = true → wait.waits = true) :
    (pool.setGet caller (get.withWait after)).Covered := by
  have waitsAfter : (get.withWait after).phase.wait? = some after := wait?_withWait waits after
  apply covered_setGet covered found
  · rwa [claimed_of_wait waits, claimed_of_wait waitsAfter]
  · rwa [waits_of_wait waits, waits_of_wait waitsAfter]
  · exact withWait_notifies get after

theorem covered_waitStep (covered : pool.Covered) (found : pool.gets[caller]? = some get)
    {wait : WaitPhase} (waits : get.phase.wait? = some wait) :
    (pool.waitStep caller get wait).Covered := by
  cases wait with
  | head claimed => exact covered_setGet_wait covered found waits (fun holds => holds) (nomatch ·)
  | checking claimed broadcast =>
      exact covered_popFor covered found (waits_of_wait waits) (not_notifies_of_wait waits) _
  | window broadcast =>
      rw [waitStep]
      split
      · rename_i stored
        have waitsAfter : (get.withWait (.head true)).phase.wait? = some (.head true) :=
          wait?_withWait waits _
        rcases setGet_counts found (get.withWait (.head true)) with
          ⟨claimsAfter, waitingAfter, pendingAfter⟩
        rw [claimed_of_wait waits, claimed_of_wait waitsAfter] at claimsAfter
        rw [waits_of_wait waits, waits_of_wait waitsAfter] at waitingAfter
        rw [withWait_notifies] at pendingAfter
        change _ + 0 = _ + 1 at claimsAfter
        change _ + 1 = _ + 0 at waitingAfter
        rw [Covered, CoveredBy, stored] at covered
        change min (pool.queue.length - (pool.setGet caller _).claims)
          (pool.setGet caller _).waiting ≤ 0 + (pool.setGet caller _).pending
        simp only [Bool.toNat_true] at covered
        omega
      · split
        · exact covered_setGet_wait covered found waits (nomatch ·) (nomatch ·)
        · exact covered_setGet_wait covered found waits (nomatch ·) (fun _ => rfl)
  | parked => exact covered
  | woken claimed => exact covered_setGet_wait covered found waits (fun holds => holds) (nomatch ·)

theorem covered_getStep (covered : pool.Covered) (found : pool.gets[caller]? = some get) :
    (pool.getStep caller get).Covered := by
  rw [getStep]
  cases phase : get.phase with
  | racing begun wait => exact covered_waitStep covered found (by rw [phase]; rfl)
  | waiting wait => exact covered_waitStep covered found (by rw [phase]; rfl)
  | refillCheck tunnel =>
      have unclaimed : get.claimed = false := by simp [Get.claimed, phase, GetPhase.wait?]
      have pushes : get.notifies = false := by simp [Get.notifies, phase]
      simp only
      split
      · apply covered_setGet covered found
        · simp [unclaimed]
        · exact (nomatch ·)
        · rw [pushes]
          rfl
      · apply covered_setGet covered found
        · simp [unclaimed]
        · exact (nomatch ·)
        · rw [pushes]
          rfl
  | refillPush tunnel =>
      rcases setGet_counts found { get with phase := .refillNotify } with
        ⟨claimsAfter, waitingAfter, pendingAfter⟩
      simp only [Get.claimed, Get.waits, Get.notifies, phase, GetPhase.wait?, Option.any_none,
        Bool.toNat_false] at claimsAfter waitingAfter pendingAfter
      change _ + 0 = _ + 1 at pendingAfter
      rw [Covered, CoveredBy] at covered
      change min ((pool.queue ++ [tunnel]).length - (pool.setGet caller _).claims)
        (pool.setGet caller _).waiting ≤ pool.permit.toNat + (pool.setGet caller _).pending
      rw [List.length_append, List.length_singleton]
      omega
  | refillPop =>
      apply covered_popFor covered found
      · simp [Get.waits, phase, GetPhase.wait?]
      · simp [Get.notifies, phase]
  | start | refillNotify | got | failed => exact covered

theorem anyParked_setGet (found : pool.gets[caller]? = some get) (registered : get.isParked = false)
    {new : Get} (newRegistered : new.isParked = false) :
    (pool.setGet caller new).anyParked = pool.anyParked := by
  have counted := countP_set_add found Get.isParked new
  rw [registered, newRegistered] at counted
  rw [Bool.eq_iff_iff]
  simp only [anyParked, setGet, List.any_eq_true, ← List.countP_pos_iff]
  omega

theorem not_notifies_of_droppable (droppable : get.phase.droppable = true) :
    get.notifies = false := by
  rw [Get.notifies, beq_eq_false_iff_ne]
  intro notifies
  rw [notifies] at droppable
  exact absurd droppable Bool.false_ne_true

/-- Dropping what a caller waits on keeps the tunnels covered, unless a needed claim is lost. -/
theorem covered_leave (covered : pool.Covered) (found : pool.gets[caller]? = some get)
    (droppable : get.phase.droppable = true) {phase : GetPhase}
    (unclaimed : ({ get with phase := phase } : Get).claimed = false)
    (runs : ({ get with phase := phase } : Get).waits = false)
    (pushes : ({ get with phase := phase } : Get).notifies = false)
    (notNeeded : pool.losesClaim get = true →
      pool.CoveredBy (pool.claims - 1) (pool.permit.toNat + pool.pending)) :
    (pool.leave caller get phase waiter).Covered := by
  rcases setGet_counts found { get with phase := phase } with
    ⟨claimsAfter, waitingAfter, pendingAfter⟩
  rw [unclaimed] at claimsAfter
  rw [runs] at waitingAfter
  rw [pushes, not_notifies_of_droppable droppable] at pendingAfter
  simp only [Bool.toNat_false, Nat.add_zero] at claimsAfter waitingAfter pendingAfter
  simp only [leave]
  cases forwards : get.forwards with
  | true =>
      have woken : get.phase.wait? = some (.woken true) := by
        rwa [Get.forwards, beq_iff_eq] at forwards
      rw [claimed_of_wait woken] at claimsAfter
      rw [if_pos rfl]
      cases notified : (pool.setGet caller { get with phase := phase }).notifyOne waiter with
      | none => exact covered
      | some next =>
          apply covered_notifyOne notified
          · rw [Covered, CoveredBy] at covered
            change _ + 1 = _ at claimsAfter
            change min (pool.queue.length - (pool.setGet caller _).claims)
              (pool.setGet caller _).waiting ≤
                pool.permit.toNat + (pool.setGet caller _).pending + 1
            omega
          · intro absorbed
            have sameParked : (pool.setGet caller { get with phase := phase }).anyParked =
                pool.anyParked := by
              apply anyParked_setGet found
              · rw [Get.isParked, woken]
                rfl
              · cases registered : ({ get with phase := phase } : Get).isParked with
                | false => rfl
                | true =>
                    rw [(counts_of_isParked registered).1] at runs
                    exact absurd runs.symm Bool.false_ne_true
            have absorbs : pool.absorbs = true := by
              rwa [absorbs, sameParked] at absorbed
            have lost : pool.losesClaim get = true := by
              rw [losesClaim, claimed_of_wait woken, droppable, forwards, absorbs]
              rfl
            have stored : pool.permit = true := by
              rw [Pool.absorbs, Bool.and_eq_true] at absorbs
              exact absorbs.1
            have remains := notNeeded lost
            rw [CoveredBy, stored] at remains
            change _ + 1 = _ at claimsAfter
            change min (pool.queue.length - (pool.setGet caller _).claims)
              (pool.setGet caller _).waiting ≤ 1 + (pool.setGet caller _).pending
            simp only [Bool.toNat_true] at remains
            omega
  | false =>
      rw [if_neg Bool.false_ne_true]
      rw [Covered, CoveredBy] at covered
      change min (pool.queue.length - (pool.setGet caller _).claims)
        (pool.setGet caller _).waiting ≤ pool.permit.toNat + (pool.setGet caller _).pending
      cases claimed : get.claimed with
      | true =>
          have remains := notNeeded (by rw [losesClaim, claimed, droppable, forwards]; rfl)
          rw [CoveredBy] at remains
          rw [claimed] at claimsAfter
          change _ + 1 = _ at claimsAfter
          omega
      | false =>
          rw [claimed] at claimsAfter
          change _ + 0 = _ at claimsAfter
          omega

theorem covered_getDialEnds (covered : pool.Covered) (found : pool.gets[caller]? = some get)
    (succeeds : Bool)
    (notNeeded : pool.losesClaim get = true →
      pool.CoveredBy (pool.claims - 1) (pool.permit.toNat + pool.pending)) :
    (pool.getDialEnds caller get succeeds waiter).Covered := by
  rw [getDialEnds]
  split
  · rename_i begun wait phase
    split
    · rename_i droppable
      apply covered_leave covered found _ _ _ _ notNeeded
      · rwa [phase]
      · cases succeeds <;> rfl
      · cases succeeds <;> rfl
      · cases succeeds <;> rfl
    · exact covered
  · exact covered

/-- The notification which follows a push, for what the pusher leaves behind. -/
theorem covered_after_push {left : Pool} (covered : pool.Covered)
    (notNeeded : pool.absorbs = true → pool.CoveredBy pool.claims pool.pending)
    (sameQueue : left.queue = pool.queue) (samePermit : left.permit = pool.permit)
    (sameClaims : left.claims = pool.claims) (sameWaiting : left.waiting = pool.waiting)
    (sameParked : left.anyParked = pool.anyParked) (oneLess : left.pending + 1 = pool.pending) :
    ((left.notifyOne waiter).getD pool).Covered := by
  cases notified : left.notifyOne waiter with
  | none => exact covered
  | some next =>
      apply covered_notifyOne notified
      · rw [Covered, CoveredBy] at covered
        rw [CoveredBy, sameQueue, sameClaims, sameWaiting, samePermit]
        omega
      · intro absorbed
        rw [absorbs, samePermit, sameParked] at absorbed
        have remains := notNeeded absorbed
        rw [CoveredBy] at remains
        rw [CoveredBy, sameQueue, sameClaims, sameWaiting]
        omega

theorem covered_builderNotify (covered : pool.Covered)
    (notNeeded : pool.builders[index]? = some .notifying → pool.absorbs = true →
      pool.CoveredBy pool.claims pool.pending) :
    (pool.builderNotify index waiter).Covered := by
  rw [builderNotify]
  split
  · rename_i found
    have oneLess := setBuilder_pending found .done
    rw [beq_self_eq_true] at oneLess
    exact covered_after_push covered (notNeeded found) rfl rfl rfl rfl rfl oneLess
  · exact covered

theorem covered_getNotify (covered : pool.Covered) (found : pool.gets[caller]? = some get)
    (notNeeded : get.notifies = true → pool.absorbs = true →
      pool.CoveredBy pool.claims pool.pending) :
    (pool.getNotify caller get waiter).Covered := by
  rw [getNotify]
  split
  · rename_i phase
    have pushes : get.notifies = true := by simp [Get.notifies, phase]
    rcases setGet_counts found { get with phase := .refillPop } with
      ⟨claimsAfter, waitingAfter, pendingAfter⟩
    rw [pushes] at pendingAfter
    simp only [Get.claimed, Get.waits, phase, GetPhase.wait?, Option.any_none, Bool.toNat_false,
      Nat.add_zero] at claimsAfter waitingAfter
    have sameParked : (pool.setGet caller { get with phase := .refillPop }).anyParked =
        pool.anyParked := by
      apply anyParked_setGet found
      · simp [Get.isParked, phase, GetPhase.wait?]
      · rfl
    apply covered_after_push covered (notNeeded pushes)
    · rfl
    · rfl
    · exact claimsAfter
    · exact waitingAfter
    · exact sameParked
    · exact pendingAfter
  · exact covered

theorem covered_build (covered : pool.Covered) (index : ℕ) : (pool.build index).Covered := by
  have unnotified : ∀ {builder new : Builder}, pool.builders[index]? = some builder →
      (builder == .notifying) = false → (new == .notifying) = false →
      (pool.setBuilder index new).Covered := by
    intro builder new found before after
    have samePending := setBuilder_pending found new
    rw [before, after] at samePending
    rw [Covered, CoveredBy] at covered ⊢
    rw [Nat.add_right_cancel samePending]
    exact covered
  rw [build]
  cases found : pool.builders[index]? with
  | none => exact covered
  | some builder =>
      cases builder with
      | starting =>
          apply unnotified found rfl
          split <;> rfl
      | dialed tunnel =>
          apply unnotified found rfl
          split <;> rfl
      | pushing tunnel =>
          have oneMore := setBuilder_pending found .notifying
          have before : (Builder.pushing tunnel == .notifying) = false :=
            beq_eq_false_iff_ne.mpr nofun
          rw [before, beq_self_eq_true] at oneMore
          simp only [Bool.toNat_false, Bool.toNat_true] at oneMore
          rw [Covered, CoveredBy] at covered
          change min ((pool.queue ++ [tunnel]).length - pool.claims) pool.waiting ≤
            pool.permit.toNat + (pool.setBuilder index .notifying).pending
          rw [List.length_append, List.length_singleton]
          omega
      | dialing | notifying | done => exact covered

end Steps

section Runs

/-- Fewer tunnels in the queue need no more wakeups. -/
theorem covered_of_length_le (covered : pool.Covered) {queue : List Tunnel}
    (fewer : queue.length ≤ pool.queue.length) : ({ pool with queue := queue } : Pool).Covered := by
  rw [Covered, CoveredBy] at covered
  change min (queue.length - pool.claims) pool.waiting ≤ pool.permit.toNat + pool.pending
  omega

theorem covered_getPop (covered : pool.Covered) (found : pool.gets[caller]? = some get)
    (onDemand : Bool) : (pool.getPop caller get onDemand).Covered := by
  rw [getPop]
  split
  · rename_i phase
    apply covered_popFor covered found
    · simp [Get.waits, phase, GetPhase.wait?]
    · simp [Get.notifies, phase]
  · exact covered

theorem covered_getDials (covered : pool.Covered) (found : pool.gets[caller]? = some get) :
    (pool.getDials caller get).Covered := by
  rw [getDials]
  split
  · rename_i wait phase
    apply covered_setGet covered found
    · simp [Get.claimed, phase, GetPhase.wait?]
    · simp [Get.waits, phase, GetPhase.wait?]
    · simp [Get.notifies, phase]
  · exact covered

/-- Every event keeps the tunnels covered, where no wakeup which is needed is thrown away. -/
theorem covered_step (covered : pool.Covered) {event : PoolEvent}
    (keeps : pool.KeepsWakeups event) : (pool.step event).Covered := by
  cases event with
  | spawn =>
      rw [Covered, CoveredBy, pending] at covered ⊢
      rw [step, List.countP_append]
      exact covered
  | build index => exact covered_build covered index
  | dialEnds index succeeds =>
      rw [step, dialEnds]
      split
      · rename_i begun found
        have samePending := setBuilder_pending found
          (if succeeds then .dialed ⟨begun, false, false⟩ else .done)
        have before : (Builder.dialing begun == .notifying) = false :=
          beq_eq_false_iff_ne.mpr nofun
        have after : ((if succeeds then .dialed ⟨begun, false, false⟩ else .done : Builder) ==
            .notifying) = false := by
          apply beq_eq_false_iff_ne.mpr
          cases succeeds <;> exact nofun
        rw [before, after] at samePending
        rw [Covered, CoveredBy] at covered ⊢
        rw [Nat.add_right_cancel samePending]
        exact covered
      · exact covered
  | notify index waiter => exact covered_builderNotify covered keeps
  | get =>
      rw [Covered, CoveredBy, claims, waiting, pending] at covered ⊢
      simp only [step, List.countP_append]
      exact covered
  | getStep caller => exact elim_get covered fun get found => covered_getStep covered found
  | getPop caller onDemand =>
      exact elim_get covered fun get found => covered_getPop covered found onDemand
  | getDials caller => exact elim_get covered fun get found => covered_getDials covered found
  | getDialEnds caller succeeds waiter =>
      exact elim_get covered fun get found =>
        covered_getDialEnds covered found succeeds (keeps get found)
  | getNotify caller waiter =>
      exact elim_get covered fun get found => covered_getNotify covered found (keeps get found)
  | getDrop caller waiter =>
      apply elim_get covered
      intro get found
      rw [getDrop]
      split
      · rename_i droppable
        exact covered_leave covered found droppable rfl rfl rfl (keeps get found)
      · exact covered
  | purge contended =>
      cases contended with
      | true => exact covered
      | false => exact covered_notifyWaiters (covered_of_empty rfl)
  | shutdownRequest =>
      rw [step]
      split
      · exact covered
      · exact covered
  | shutdownClear contended =>
      rw [step]
      split
      · cases contended with
        | true => exact covered
        | false => exact covered_of_empty rfl
      · exact covered
  | shutdownNotify =>
      rw [step]
      split
      · apply covered_notifyWaiters
        exact covered
      · exact covered
  | expire index =>
      apply covered_of_length_le covered
      exact Nat.le_of_eq (List.length_modify ..)
  | spoil index =>
      apply covered_of_length_le covered
      exact Nat.le_of_eq (List.length_modify ..)
  | sweep =>
      apply covered_of_length_le covered
      exact List.length_filter_le _ _
  | setTarget size => exact covered
  | notifyWaiters => exact covered_notifyWaiters covered

/-- Where the tunnels are covered, no caller sleeps beside a tunnel it could have. -/
theorem not_lostWakeup_of_covered (covered : pool.Covered) : ¬pool.LostWakeup := by
  rintro ⟨sleeps, ⟨tunnel, queued, _⟩, nothing⟩
  simp only [wakeupPending, Bool.or_eq_false_iff, List.any_eq_false] at nothing
  rcases nothing with ⟨⟨noPermit, noBuilder⟩, noGet⟩
  have noPending : pool.pending = 0 := by
    rw [pending, List.countP_eq_zero.mpr noBuilder, List.countP_eq_zero.mpr]
    intro get member pushes
    exact noGet get member (by rw [pushes]; rfl)
  have noClaims : pool.claims = 0 := by
    rw [claims, List.countP_eq_zero]
    intro get member claimed
    exact noGet get member (by rw [claimed, Bool.or_true])
  have oneWaits : 0 < pool.waiting := by
    rw [anyParked, List.any_eq_true] at sleeps
    rcases sleeps with ⟨get, member, parked⟩
    exact List.countP_pos_iff.mpr ⟨get, member, (counts_of_isParked parked).1⟩
  have oneQueued := List.length_pos_of_mem queued
  rw [Covered, CoveredBy, noPermit, noPending, noClaims] at covered
  simp only [Bool.toNat_false] at covered
  omega

/--
In every run of the pool in which no wakeup that is still needed is thrown away,
no caller ever sleeps beside a valid tunnel with no wakeup to come.
-/
theorem no_lost_wakeup {targetSize : ℕ} {events : List PoolEvent}
    (kept : Along step KeepsWakeups (new targetSize) events) :
    ¬(run step (new targetSize) events).LostWakeup := by
  apply not_lostWakeup_of_covered
  apply run_invariant_along (fun keeps covered => covered_step covered keeps) kept
  exact covered_of_empty rfl

/-- A caller sleeps, a tunnel is built, and the caller is woken and takes it. -/
def oneWakeup : List PoolEvent :=
  [.get, .getPop 0 false, .getStep 0, .getStep 0, .getStep 0, .spawn, .build 0, .dialEnds 0 true,
    .build 0, .build 0, .notify 0 0, .getStep 0, .getStep 0, .getStep 0]

theorem no_lost_wakeup_oneWakeup : ¬(run step (new 1) oneWakeup).LostWakeup :=
  no_lost_wakeup (by decide +kernel)

/--
Two callers find the queue empty; before they register, two tunnels are pushed
and both notifications come, of which the second finds the permit of the first.
-/
def twoPushes : List PoolEvent :=
  [.get, .getPop 0 false, .getStep 0, .getStep 0, .get, .getPop 1 false, .getStep 1, .getStep 1,
    .spawn, .build 0, .dialEnds 0 true, .build 0, .spawn, .build 1, .dialEnds 1 true, .build 1,
    .build 0, .notify 0 0, .build 1, .notify 1 0, .getStep 0, .getStep 0, .getStep 0, .getStep 1]

theorem lostWakeup_twoPushes :
    (run step (new 2) twoPushes).LostWakeup ∧ (run step (new 2) twoPushes).Quiescent := by
  decide +kernel

end Runs

end Pool

end Mirage.Proxy

import Mirage.Proxy.UdpMux

/-!
# Isolated sessions

The ids are given out in turn, all but zero, so that an id comes again after
`2 ^ 32 - 1` others.  As long as no flow sees that many ids being given to others,
the ids of the flows are distinct, the map has each registered flow under its own
id, and what arrives for an id goes to the flow that has it.
-/

namespace Mirage.Proxy

open Mirage.Foundations Mirage.Tun

/-- The number of ids. -/
def sidCycle : ℕ := 2 ^ 32 - 1

/-- The id which is given after `number` others. -/
def IsSid (sid : UInt32) (number : ℕ) : Prop :=
  sid.toNat = 1 + number % sidCycle

/-- Ids which were given within one turn are different. -/
theorem IsSid.number_unique {sid : UInt32} {first second given : ℕ} (isFirst : IsSid sid first)
    (isSecond : IsSid sid second) (first_given : first < given) (second_given : second < given)
    (first_recent : given ≤ first + sidCycle) (second_recent : given ≤ second + sidCycle) :
    first = second := by
  simp only [IsSid, sidCycle] at isFirst isSecond first_recent second_recent
  omega

theorem IsSid.ne_zero {sid : UInt32} {number : ℕ} (isSid : IsSid sid number) : sid ≠ 0 := by
  rintro rfl
  simp only [IsSid, UInt32.toNat_zero] at isSid
  omega

/-- The counter after `given` ids: the next id, or the zero before it. -/
def CounterAt (counter : UInt32) (given : ℕ) : Prop :=
  IsSid counter given ∨ counter = 0 ∧ given % sidCycle = 0 ∧ 0 < given

theorem CounterAt.give {counter : UInt32} {given : ℕ} (at_given : CounterAt counter given)
    (nonzero : counter ≠ 0) : IsSid counter given ∧ CounterAt (counter + 1) (given + 1) := by
  rcases at_given with isSid | ⟨zero, _⟩
  · refine ⟨isSid, ?_⟩
    simp only [CounterAt, IsSid, ← UInt32.toNat_inj, UInt32.toNat_add, UInt32.toNat_one,
      UInt32.toNat_zero, sidCycle] at isSid ⊢
    omega
  · exact absurd zero nonzero

theorem CounterAt.skip {given : ℕ} (at_given : CounterAt 0 given) :
    given % sidCycle = 0 ∧ CounterAt 1 given := by
  rcases at_given with isSid | ⟨_, turn, _⟩
  · exact absurd rfl isSid.ne_zero
  · refine ⟨turn, .inl ?_⟩
    simp only [IsSid, turn, UInt32.toNat_one]

namespace MuxSession

/-- The id of a live flow. -/
def sid (session : MuxSession) : Option UInt32 :=
  match session.phase with
  | .allocated sid | .registered sid => some sid
  | _ => none

end MuxSession

namespace MuxTunnel

variable {mux : MuxTunnel}

/-- The flow is registered and has the id. -/
def Owns (mux : MuxTunnel) (index : ℕ) (sid : UInt32) (key : FlowKey) : Prop :=
  ∃ session, mux.sessions[index]? = some session ∧ session.phase = .registered sid ∧
    session.key = key

/-- How many ids were given to others since the flow was given the tunnel. -/
def givenToOthers (mux : MuxTunnel) (index : ℕ) (session : MuxSession) : ℕ :=
  (mux.allocations.drop session.joined).countP (· ≠ index)

/-- While a flow lives, fewer ids are given to others than there are. -/
def Bounded (mux : MuxTunnel) : Prop :=
  ∀ index session, mux.sessions[index]? = some session → session.phase ≠ .ended →
    mux.givenToOthers index session < sidCycle

structure Isolated (mux : MuxTunnel) : Prop where
  nonzero : ∀ session ∈ mux.sessions, ∀ sid, session.sid = some sid → sid ≠ 0
  distinct : ∀ (first second : ℕ) (one other : MuxSession) (sid : UInt32),
    mux.sessions[first]? = some one → mux.sessions[second]? = some other →
      one.sid = some sid → other.sid = some sid → first = second
  /-- The map has the registered flows under their ids, and nothing else. -/
  entries : ∀ sid entry, mux.flows.lookup sid = some entry ↔ mux.Owns entry.flow sid entry.key

/-- A reply is made for the owner of the id only, and a guard takes its own entry only. -/
def Exclusive (mux : MuxTunnel) : MuxEvent → Prop
  | .downlink sid payload =>
      (mux.step (.downlink sid payload)).replies = mux.replies ∨
        ∃ index key, mux.Owns index sid key ∧
          (mux.step (.downlink sid payload)).replies = mux.replies ++ [⟨index, key, payload⟩]
  | .dropGuard index =>
      ∀ sid entry, mux.flows.lookup sid = some entry → entry.flow ≠ index →
        (mux.step (.dropGuard index)).flows.lookup sid = some entry
  | _ => True

/-- Where a flow stands in the order in which the ids were given. -/
def Standing (mux : MuxTunnel) (index joined : ℕ) : SessionPhase → Prop
  | .allocating => index ∉ mux.allocations
  | .retrying =>
      index ∉ mux.allocations ∧
        ∃ seen, joined ≤ seen ∧ seen ≤ mux.allocations.length ∧ seen % sidCycle = 0 ∧
          (seen = mux.allocations.length → mux.nextSid ≠ 0)
  | .wrapping => False
  | .allocated sid | .registered sid =>
      ∃ number, joined ≤ number ∧ mux.allocations[number]? = some index ∧ IsSid sid number
  | .ended => True

structure Counted (mux : MuxTunnel) : Prop where
  counter : CounterAt mux.nextSid mux.allocations.length
  once : mux.allocations.Nodup
  inside : ∀ index ∈ mux.allocations, index < mux.sessions.length
  joined : ∀ session ∈ mux.sessions, session.joined ≤ mux.allocations.length
  standing : ∀ index session, mux.sessions[index]? = some session →
    mux.Standing index session.joined session.phase
  entries : ∀ sid entry, mux.flows.lookup sid = some entry ↔ mux.Owns entry.flow sid entry.key

theorem fromTunnel_counted : fromTunnel.Counted := by
  refine ⟨.inl rfl, List.nodup_nil, ?_, ?_, ?_, ?_⟩
  · simp [fromTunnel]
  · simp [fromTunnel]
  · simp [fromTunnel]
  · intro sid entry
    simp [fromTunnel, Owns]

section Order

variable {index other joined : ℕ} {phase : SessionPhase} {next : MuxTunnel}

/-- Another flow was given an id. -/
theorem Standing.given (standing : mux.Standing other joined phase)
    (appended : next.allocations = mux.allocations ++ [index]) (different : other ≠ index) :
    next.Standing other joined phase := by
  cases phase with
  | allocating =>
      simp only [Standing, appended, List.mem_append, List.mem_singleton, not_or]
      exact ⟨standing, different⟩
  | retrying =>
      rcases standing with ⟨absent, seen, after, before, turn, _⟩
      simp only [Standing, appended, List.mem_append, List.mem_singleton, not_or,
        List.length_append, List.length_singleton]
      refine ⟨⟨absent, different⟩, seen, after, ?_, turn, ?_⟩
      · omega
      · intro last
        omega
  | wrapping => exact standing
  | allocated sid | registered sid =>
      rcases standing with ⟨number, after, here, isSid⟩
      refine ⟨number, after, ?_, isSid⟩
      rw [appended, List.getElem?_append_left (List.getElem?_eq_some_iff.mp here).1]
      exact here
  | ended => trivial

/-- Nobody was given an id; the counter can have left its zero. -/
theorem Standing.kept (standing : mux.Standing other joined phase)
    (same : next.allocations = mux.allocations)
    (counter : mux.nextSid ≠ 0 → next.nextSid ≠ 0) : next.Standing other joined phase := by
  cases phase with
  | allocating | allocated sid | registered sid =>
      simp only [Standing, same]
      exact standing
  | retrying =>
      rcases standing with ⟨absent, seen, after, before, turn, left⟩
      simp only [Standing, same]
      exact ⟨absent, seen, after, before, turn, fun last => counter (left last)⟩
  | wrapping => exact standing
  | ended => trivial

end Order

namespace Counted

variable {index : ℕ} {session : MuxSession} {phase : SessionPhase}

/-- A live flow has seen all ids that were given after its own being given to others. -/
theorem recent (counted : mux.Counted) {number : ℕ} (here : mux.allocations[number]? = some index)
    (after : session.joined ≤ number) (few : mux.givenToOthers index session < sidCycle) :
    mux.allocations.length ≤ number + sidCycle := by
  rcases List.getElem?_eq_some_iff.mp here with ⟨inside, at_number⟩
  have others : (mux.allocations.drop (number + 1)).countP (· ≠ index) =
      (mux.allocations.drop (number + 1)).length := by
    rw [List.countP_eq_length]
    intro flow later
    have split_at : mux.allocations =
        mux.allocations.take number ++ index :: mux.allocations.drop (number + 1) := by
      rw [← at_number, ← List.drop_eq_getElem_cons inside, List.take_append_drop]
    have once := counted.once
    rw [split_at, List.nodup_append, List.nodup_cons] at once
    simp only [ne_eq, decide_eq_true_eq]
    rintro rfl
    exact once.2.1.1 later
  have fewer : (mux.allocations.drop (number + 1)).countP (· ≠ index) ≤
      mux.givenToOthers index session := by
    apply List.Sublist.countP_le
    have deeper : number + 1 = session.joined + (number + 1 - session.joined) := by omega
    rw [deeper, ← List.drop_drop]
    exact List.drop_sublist _ _
  rw [others, List.length_drop] at fewer
  omega

theorem number_of_sid (counted : mux.Counted) (found : mux.sessions[index]? = some session)
    {sid : UInt32} (has : session.sid = some sid) :
    session.phase ≠ .ended ∧ ∃ number, session.joined ≤ number ∧
      mux.allocations[number]? = some index ∧ IsSid sid number := by
  have standing := counted.standing index session found
  simp only [MuxSession.sid] at has
  split at has <;> rename_i phase_eq
  · cases has
    rw [phase_eq] at standing ⊢
    exact ⟨SessionPhase.noConfusion, standing⟩
  · cases has
    rw [phase_eq] at standing ⊢
    exact ⟨SessionPhase.noConfusion, standing⟩
  · cases has

theorem isolated (counted : mux.Counted) (bounded : mux.Bounded) : mux.Isolated := by
  refine ⟨?_, ?_, counted.entries⟩
  · intro session member sid has
    rcases List.mem_iff_getElem?.mp member with ⟨index, found⟩
    rcases counted.number_of_sid found has with ⟨_, number, _, _, isSid⟩
    exact isSid.ne_zero
  · intro first second one other sid found_one found_other has_one has_other
    rcases counted.number_of_sid found_one has_one with ⟨live_one, number, after, here, isSid⟩
    rcases counted.number_of_sid found_other has_other with
      ⟨live_other, second_number, second_after, second_here, second_isSid⟩
    have same := isSid.number_unique second_isSid (List.getElem?_eq_some_iff.mp here).1
      (List.getElem?_eq_some_iff.mp second_here).1
      (counted.recent here after (bounded first one found_one live_one))
      (counted.recent second_here second_after (bounded second other found_other live_other))
    rw [same, second_here] at here
    exact (Option.some.inj here).symm

end Counted

theorem Owns.phase_eq {index : ℕ} {session : MuxSession} {sid : UInt32} {key : FlowKey}
    (owns : mux.Owns index sid key) (found : mux.sessions[index]? = some session) :
    session.phase = .registered sid := by
  rcases owns with ⟨owner, there, registered, _⟩
  rw [found, Option.some.injEq] at there
  rw [there]
  exact registered

/-- Nobody else is registered under the id of a live flow. -/
theorem Isolated.flow_unique (isolated : mux.Isolated) {index flow : ℕ} {session : MuxSession}
    {sid : UInt32} {key : FlowKey} (owns : mux.Owns flow sid key)
    (found : mux.sessions[index]? = some session) (has : session.sid = some sid) :
    flow = index := by
  rcases owns with ⟨owner, there, registered, _⟩
  have has_owner : owner.sid = some sid := by simp only [MuxSession.sid, registered]
  exact isolated.distinct flow index owner session sid there found has_owner has

theorem owns_setPhase {index flow : ℕ} {session : MuxSession} {phase : SessionPhase}
    (found : mux.sessions[index]? = some session) (sid : UInt32) (key : FlowKey) :
    (mux.setPhase index session phase).Owns flow sid key ↔
      flow = index ∧ phase = .registered sid ∧ session.key = key ∨
        flow ≠ index ∧ mux.Owns flow sid key := by
  have inside := (List.getElem?_eq_some_iff.mp found).1
  simp only [Owns, setPhase]
  by_cases same : flow = index
  · subst same
    simp [inside]
  · simp [Ne.symm same, same]

namespace Counted

variable {index : ℕ} {session : MuxSession} {phase : SessionPhase}

/-- The entry of an id, when a flow changes which is registered with others at most. -/
theorem entries_setPhase (counted : mux.Counted) (found : mux.sessions[index]? = some session)
    {sid : UInt32} (before : session.phase ≠ .registered sid) (after : phase ≠ .registered sid)
    (entry : FlowEntry) :
    mux.flows.lookup sid = some entry ↔
      (mux.setPhase index session phase).Owns entry.flow sid entry.key := by
  rw [counted.entries, owns_setPhase found]
  constructor
  · intro owns
    refine .inr ⟨?_, owns⟩
    rintro rfl
    exact before (owns.phase_eq found)
  · rintro (⟨_, registered, _⟩ | ⟨_, owns⟩)
    · exact absurd registered after
    · exact owns

/-- A step of a flow which gives no id. -/
theorem settle (counted : mux.Counted) (found : mux.sessions[index]? = some session)
    {next : MuxTunnel} (sessions_eq : next.sessions = (mux.setPhase index session phase).sessions)
    (allocations_eq : next.allocations = mux.allocations)
    (counter : CounterAt next.nextSid mux.allocations.length)
    (left : mux.nextSid ≠ 0 → next.nextSid ≠ 0)
    (standing : next.Standing index session.joined phase)
    (entries : ∀ sid entry, next.flows.lookup sid = some entry ↔
      (mux.setPhase index session phase).Owns entry.flow sid entry.key) : next.Counted := by
  refine ⟨?_, ?_, ?_, ?_, ?_, ?_⟩
  · rw [allocations_eq]
    exact counter
  · rw [allocations_eq]
    exact counted.once
  · simp only [allocations_eq, sessions_eq, setPhase, List.length_set]
    exact counted.inside
  · simp only [allocations_eq, sessions_eq, setPhase]
    intro other member
    rcases List.mem_or_eq_of_mem_set member with old | rfl
    · exact counted.joined other old
    · exact counted.joined session (List.mem_of_getElem? found)
  · simp only [sessions_eq, setPhase]
    intro other there at_other
    rcases getElem?_set_cases at_other with ⟨rfl, rfl⟩ | ⟨_, old⟩
    · exact standing
    · exact (counted.standing other there old).kept allocations_eq left
  · intro sid entry
    rw [entries]
    simp only [Owns, sessions_eq]

theorem give (counted : mux.Counted) (found : mux.sessions[index]? = some session)
    (waiting : index ∉ mux.allocations) (before : ∀ sid, session.phase ≠ .registered sid)
    (nonzero : mux.nextSid ≠ 0) :
    ({ mux with nextSid := mux.nextSid + 1 }.give index session mux.nextSid).Counted := by
  have given := counted.counter.give nonzero
  refine ⟨?_, ?_, ?_, ?_, ?_, ?_⟩
  · simp only [MuxTunnel.give, List.length_append, List.length_singleton]
    exact given.2
  · simp only [MuxTunnel.give]
    rw [List.nodup_append]
    refine ⟨counted.once, List.nodup_singleton _, ?_⟩
    intro flow member other same
    rw [List.mem_singleton] at same
    subst same
    rintro rfl
    exact waiting member
  · simp only [MuxTunnel.give, setPhase, List.length_set, List.forall_mem_append,
      List.forall_mem_singleton]
    exact ⟨counted.inside, (List.getElem?_eq_some_iff.mp found).1⟩
  · simp only [MuxTunnel.give, setPhase, List.length_append, List.length_singleton]
    intro other member
    rcases List.mem_or_eq_of_mem_set member with old | rfl
    · exact Nat.le_succ_of_le (counted.joined other old)
    · exact Nat.le_succ_of_le (counted.joined session (List.mem_of_getElem? found))
  · simp only [MuxTunnel.give, setPhase]
    intro other there at_other
    rcases getElem?_set_cases at_other with ⟨rfl, rfl⟩ | ⟨different, old⟩
    · refine ⟨mux.allocations.length, ?_, List.getElem?_concat_length, given.1⟩
      exact counted.joined session (List.mem_of_getElem? found)
    · exact (counted.standing other there old).given rfl (Ne.symm different)
  · exact fun sid => counted.entries_setPhase found (before sid) SessionPhase.noConfusion

/-- While a flow waits for its id, the counter does not come round to zero again. -/
theorem nonzero_of_retrying (counted : mux.Counted)
    (found : mux.sessions[index]? = some session) (phase_eq : session.phase = .retrying)
    (few : mux.givenToOthers index session < sidCycle) : mux.nextSid ≠ 0 := by
  have standing := counted.standing index session found
  rw [phase_eq] at standing
  rcases standing with ⟨absent, seen, after, before, turn, left⟩
  intro zero
  have counter := counted.counter
  rw [zero] at counter
  have turned := counter.skip.1
  have all : mux.givenToOthers index session = mux.allocations.length - session.joined := by
    rw [givenToOthers, ← List.length_drop, List.countP_eq_length]
    intro flow member
    simp only [ne_eq, decide_eq_true_eq]
    rintro rfl
    exact absent (List.mem_of_mem_drop member)
  have earlier : seen ≠ mux.allocations.length := fun last => left last zero
  simp only [all, sidCycle] at few turn turned
  omega

theorem allocSid (counted : mux.Counted) (found : mux.sessions[index]? = some session)
    (few : session.phase ≠ .ended → mux.givenToOthers index session < sidCycle) :
    (mux.allocSid index session).Counted := by
  have standing := counted.standing index session found
  simp only [MuxTunnel.allocSid]
  split <;> rename_i phase_eq
  · rw [phase_eq] at standing
    have before : ∀ sid, session.phase ≠ .registered sid := by
      intro sid
      rw [phase_eq]
      exact SessionPhase.noConfusion
    simp only [fetchAdd]
    split
    · rename_i zero
      have counter := counted.counter
      rw [zero] at counter
      have next_eq : mux.nextSid + 1 = 1 := by
        rw [zero]
        rfl
      have left : mux.nextSid + 1 ≠ 0 := by
        rw [next_eq]
        decide
      refine counted.settle found rfl rfl ?_ ?_ ?_ ?_
      · simp only [setPhase, next_eq]
        exact counter.skip.2
      · exact fun _ => left
      · exact ⟨standing, mux.allocations.length, counted.joined session
          (List.mem_of_getElem? found), le_rfl, counter.skip.1, fun _ => left⟩
      · exact fun sid => counted.entries_setPhase found (before sid) SessionPhase.noConfusion
    · rename_i nonzero
      exact counted.give found standing before nonzero
  · have live : session.phase ≠ .ended := by
      rw [phase_eq]
      exact SessionPhase.noConfusion
    have nonzero := counted.nonzero_of_retrying found phase_eq (few live)
    rw [phase_eq] at standing
    simp only [fetchAdd, if_neg nonzero]
    apply counted.give found standing.1 _ nonzero
    intro sid
    rw [phase_eq]
    exact SessionPhase.noConfusion
  · rw [phase_eq] at standing
    exact standing.elim
  · exact counted

theorem tryRegister (counted : mux.Counted) (isolated : mux.Isolated)
    (found : mux.sessions[index]? = some session) : (mux.tryRegister index session).Counted := by
  have standing := counted.standing index session found
  simp only [MuxTunnel.tryRegister]
  split
  · rename_i own phase_eq
    rw [phase_eq] at standing
    have has : session.sid = some own := by simp only [MuxSession.sid, phase_eq]
    have before : ∀ sid, session.phase ≠ .registered sid := by
      intro sid
      rw [phase_eq]
      exact SessionPhase.noConfusion
    split
    · refine counted.settle found rfl rfl counted.counter id trivial ?_
      exact fun sid => counted.entries_setPhase found (before sid) SessionPhase.noConfusion
    · refine counted.settle found rfl rfl counted.counter id standing ?_
      intro sid entry
      by_cases same : sid = own
      · subst same
        rw [owns_setPhase found, AList.lookup_insert, Option.some.injEq]
        constructor
        · rintro rfl
          exact .inl ⟨rfl, rfl, rfl⟩
        · rintro (⟨flow_eq, _, key_eq⟩ | ⟨different, owns⟩)
          · rw [key_eq, ← flow_eq]
          · exact absurd (isolated.flow_unique owns found has) different
      · have after : SessionPhase.registered own ≠ .registered sid := by
          rw [ne_eq, SessionPhase.registered.injEq]
          exact Ne.symm same
        rw [AList.lookup_insert_ne same]
        exact counted.entries_setPhase found (before sid) after entry
  · exact counted

theorem unregister (counted : mux.Counted) (isolated : mux.Isolated)
    (found : mux.sessions[index]? = some session) : (mux.unregister index session).Counted := by
  simp only [MuxTunnel.unregister]
  split
  · rename_i own phase_eq
    have has : session.sid = some own := by simp only [MuxSession.sid, phase_eq]
    refine counted.settle found rfl rfl counted.counter id trivial ?_
    intro sid entry
    by_cases same : sid = own
    · subst same
      rw [owns_setPhase found, AList.lookup_erase]
      constructor
      · intro absent
        cases absent
      · rintro (⟨_, registered, _⟩ | ⟨different, owns⟩)
        · cases registered
        · exact absurd (isolated.flow_unique owns found has) different
    · have before : session.phase ≠ .registered sid := by
        rw [phase_eq, ne_eq, SessionPhase.registered.injEq]
        exact Ne.symm same
      rw [AList.lookup_erase_ne same]
      exact counted.entries_setPhase found before SessionPhase.noConfusion entry
  · exact counted

theorem join (counted : mux.Counted) (key : FlowKey) : (mux.step (.join key)).Counted := by
  have absent : mux.sessions.length ∉ mux.allocations := by
    intro member
    exact Nat.lt_irrefl _ (counted.inside _ member)
  refine ⟨counted.counter, counted.once, ?_, ?_, ?_, ?_⟩
  · intro index member
    have inside := counted.inside index member
    simp only [step, List.length_append, List.length_singleton]
    omega
  · simp only [step, List.forall_mem_append, List.forall_mem_singleton]
    exact ⟨counted.joined, le_rfl⟩
  · intro index session found
    simp only [step, List.getElem?_append] at found
    split at found
    · exact counted.standing index session found
    · rw [List.getElem?_singleton] at found
      split at found
      · rename_i outside last
        cases found
        have new : index = mux.sessions.length := by omega
        subst new
        exact absent
      · cases found
  · intro sid entry
    simp only [step, counted.entries, Owns]
    apply exists_congr
    intro session
    constructor
    · rintro ⟨there, rest⟩
      rw [List.getElem?_append_left (List.getElem?_eq_some_iff.mp there).1]
      exact ⟨there, rest⟩
    · rintro ⟨there, registered, rest⟩
      rw [List.getElem?_append] at there
      split at there
      · exact ⟨there, registered, rest⟩
      · rw [List.getElem?_singleton] at there
        split at there
        · cases there
          cases registered
        · cases there

theorem step (counted : mux.Counted) (bounded : mux.Bounded) (event : MuxEvent) :
    (mux.step event).Counted := by
  cases event with
  | join key => exact counted.join key
  | alloc index =>
      simp only [MuxTunnel.step, onSession]
      split
      · rename_i session found
        exact counted.allocSid found (bounded index session found)
      · exact counted
  | register index =>
      simp only [MuxTunnel.step, onSession]
      split
      · rename_i session found
        exact counted.tryRegister (counted.isolated bounded) found
      · exact counted
  | dropGuard index =>
      simp only [MuxTunnel.step, onSession]
      split
      · rename_i session found
        exact counted.unregister (counted.isolated bounded) found
      · exact counted
  | downlink sid payload =>
      simp only [MuxTunnel.step, demux]
      split
      · exact counted
      · split
        · exact ⟨counted.counter, counted.once, counted.inside, counted.joined,
            counted.standing, counted.entries⟩
        · exact counted

end Counted

/-- What one event does to the replies and to the entries of others. -/
theorem Isolated.exclusive (isolated : mux.Isolated) (event : MuxEvent) :
    mux.Exclusive event := by
  cases event with
  | downlink sid payload =>
      simp only [Exclusive, step, demux]
      split
      · exact .inl rfl
      · split
        · rename_i entry found
          exact .inr ⟨entry.flow, entry.key, (isolated.entries sid entry).mp found, rfl⟩
        · exact .inl rfl
  | dropGuard index =>
      intro sid entry found different
      have owns := (isolated.entries sid entry).mp found
      simp only [step, onSession]
      split
      · rename_i session there
        simp only [unregister]
        split
        · rename_i own phase_eq
          have other : sid ≠ own := by
            rintro rfl
            have has : session.sid = some sid := by simp only [MuxSession.sid, phase_eq]
            exact different (isolated.flow_unique owns there has)
          rw [AList.lookup_erase_ne other]
          exact found
        · exact found
      · exact found
  | join key | alloc index | register index => trivial

/--
In every run in which fewer ids are given to others during the life of a flow
than there are, sessions are isolated.
-/
theorem isolated_of_bounded {events : List MuxEvent}
    (bounded : Throughout step Bounded fromTunnel events) :
    Throughout step Isolated fromTunnel events ∧ Along step Exclusive fromTunnel events := by
  have kept : ∀ {mux : MuxTunnel} {event : MuxEvent}, mux.Counted ∧ mux.Bounded →
      mux.Bounded ∧ (mux.step event).Bounded →
        (mux.step event).Counted ∧ (mux.step event).Bounded := by
    rintro mux event ⟨counted, before⟩ ⟨_, after⟩
    exact ⟨counted.step before event, after⟩
  have initially : fromTunnel.Counted ∧ fromTunnel.Bounded :=
    ⟨fromTunnel_counted, bounded.here⟩
  constructor
  · apply throughout_of_along _ _ kept bounded.along initially
    rintro mux ⟨counted, now⟩
    exact counted.isolated now
  · apply Along.of_invariant _ _ kept bounded.along initially
    rintro mux event ⟨counted, now⟩ _
    exact (counted.isolated now).exclusive event

theorem bounded_of_few (few : mux.allocations.length < sidCycle) : mux.Bounded := by
  intro index session _ _
  calc mux.givenToOthers index session
      ≤ (mux.allocations.drop session.joined).length := List.countP_le_length
    _ ≤ mux.allocations.length := by
        rw [List.length_drop]
        exact Nat.sub_le _ _
    _ < sidCycle := few

def queryKey (port : ℕ) : FlowKey :=
  ⟨.v4 (ipv4 10 0 0 2), port, .v4 (ipv4 9 9 9 9), 53⟩

/-- Two flows share a tunnel, and the second gets a reply after the first has ended. -/
def sharedTunnel : List MuxEvent :=
  [.join (queryKey 4000), .join (queryKey 4001), .alloc 0, .alloc 1, .register 0, .register 1,
    .dropGuard 0, .downlink 2 [7]]

theorem isolated_of_bounded_shared :
    Throughout step Isolated fromTunnel sharedTunnel ∧
      Along step Exclusive fromTunnel sharedTunnel := by
  apply isolated_of_bounded
  refine ⟨?_, ?_, ?_, ?_, ?_, ?_, ?_, ?_, ?_⟩
  all_goals
    apply bounded_of_few
    decide +kernel

example : (run step fromTunnel sharedTunnel).replies = [⟨1, queryKey 4001, [7]⟩] := by
  decide +kernel

end MuxTunnel

end Mirage.Proxy

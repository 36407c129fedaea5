import Mirage.Tun.DirectDns

/-!
# Clearing the cache of direct answers

`clear_direct_cache` empties the cache and the flight map, and the queries which
are under way go on: an answer that comes later is cached.  Apart from that a
clear is a barrier.  The flight map never has an entry without a live initiator,
and a guard takes out no entry but its own.

`TracedDns` notes for each cached name how often the cache had been cleared when
the call began whose answer it is, the initiator of each channel, and the
entries which guards have taken out.
-/

namespace Mirage.Tun

open Mirage.Foundations Mirage.Routing

/-- The channel of a call that has started a query and not dropped its guard. -/
def CallPhase.ownChannel : CallPhase → Option ℕ
  | .querying channel => some channel
  | .answered channel => some channel
  | _ => none

/-- An entry of the flight map that was taken out by a guard. -/
structure Cleanup where
  guardOf : ℕ
  initiator : Option ℕ
  deriving DecidableEq

structure TracedDns where
  dns : DirectDns
  sources : FiniteMap String ℕ
  initiators : List ℕ
  cleanups : List Cleanup

namespace DirectDns

@[simp]
theorem dropGuard_calls (dns : DirectDns) (domain : String) (channel : ℕ) :
    (dns.dropGuard domain channel).calls = dns.calls := by
  unfold dropGuard
  split <;> rfl

@[simp]
theorem dropGuard_channels (dns : DirectDns) (domain : String) (channel : ℕ) :
    (dns.dropGuard domain channel).channels = dns.channels := by
  unfold dropGuard
  split <;> rfl

@[simp]
theorem dropGuard_flights (dns : DirectDns) (domain : String) (channel : ℕ) :
    (dns.dropGuard domain channel).flights =
      if dns.flights.lookup domain = some channel then dns.flights.erase domain
      else dns.flights := by
  unfold dropGuard
  split <;> rfl

@[simp]
theorem dropGuard_clears (dns : DirectDns) (domain : String) (channel : ℕ) :
    (dns.dropGuard domain channel).clears = dns.clears := by
  unfold dropGuard
  split <;> rfl

@[simp]
theorem dropGuard_router (dns : DirectDns) (domain : String) (channel : ℕ) :
    (dns.dropGuard domain channel).router = dns.router := by
  unfold dropGuard
  split <;> rfl

theorem finish_frame (dns : DirectDns) (index : ℕ) (call : ResolveCall) :
    (dns.finish index call).router = dns.router ∧
      (dns.finish index call).clears = dns.clears := by
  simp only [finish]
  split <;> simp [setCall]

/-- A call does not clear the cache, and only an answer adds to it. -/
theorem stepCall_frame (dns : DirectDns) (index : ℕ) (call : ResolveCall)
    {event : DirectDnsEvent} (quiet : ∀ index ip evicted, event ≠ .answer index ip evicted) :
    (dns.stepCall index call event).router = dns.router ∧
      (dns.stepCall index call event).clears = dns.clears := by
  cases event with
  | answer index ip evicted => exact absurd rfl (quiet index ip evicted)
  | lookup _ =>
      simp only [stepCall, lookup]
      split
      · split <;> exact ⟨rfl, rfl⟩
      · exact ⟨rfl, rfl⟩
  | register _ =>
      simp only [stepCall, register]
      split
      · split <;> exact ⟨rfl, rfl⟩
      · exact ⟨rfl, rfl⟩
  | fail _ =>
      simp only [stepCall]
      split <;> exact ⟨rfl, rfl⟩
  | finish _ => exact dns.finish_frame index call
  | _ => exact ⟨rfl, rfl⟩

end DirectDns

/-- The call whose event it is. -/
def DirectDnsEvent.callIndex : DirectDnsEvent → Option ℕ
  | .lookup index | .register index | .answer index _ _ | .fail index | .finish index =>
      some index
  | _ => none

namespace TracedDns

variable {traced : TracedDns}

def start (geo : GeoStore) : TracedDns :=
  ⟨.start geo, ∅, [], []⟩

/-- What an answer adds to the sources. -/
def answerSource (traced : TracedDns) (call : ResolveCall) : FiniteMap String ℕ :=
  match call.phase with
  | .querying _ => traced.sources.insert (normalize call.domain) call.begun
  | _ => traced.sources

/-- A call which registers its own query is the initiator of a new channel. -/
def registerInitiator (traced : TracedDns) (index : ℕ) (call : ResolveCall) : List ℕ :=
  if call.phase = .missed ∧ traced.dns.flights.lookup call.domain = none then
    traced.initiators ++ [index]
  else traced.initiators

/-- What the guard of a call takes out. -/
def finishCleanup (traced : TracedDns) (index : ℕ) (call : ResolveCall) : List Cleanup :=
  match call.phase.ownChannel with
  | some channel =>
      match traced.dns.flights.lookup call.domain with
      | some current =>
          if current = channel then
            traced.cleanups ++ [⟨index, traced.initiators[current]?⟩]
          else traced.cleanups
      | none => traced.cleanups
  | none => traced.cleanups

def step (traced : TracedDns) (event : DirectDnsEvent) : TracedDns where
  dns := traced.dns.step event
  sources :=
    match event with
    | .answer index _ _ => (traced.dns.calls[index]?).elim traced.sources traced.answerSource
    | _ => traced.sources
  initiators :=
    match event with
    | .register index =>
        (traced.dns.calls[index]?).elim traced.initiators (traced.registerInitiator index)
    | _ => traced.initiators
  cleanups :=
    match event with
    | .finish index =>
        (traced.dns.calls[index]?).elim traced.cleanups (traced.finishCleanup index)
    | _ => traced.cleanups

/-- Without its call an event of a call does nothing. -/
theorem step_absent {event : DirectDnsEvent} {index : ℕ} (at_call : event.callIndex = some index)
    (absent : traced.dns.calls[index]? = none) : traced.step event = traced := by
  cases event with
  | lookup _ | register _ | answer _ _ _ | fail _ | finish _ =>
      obtain rfl := Option.some.inj at_call
      simp [step, absent, DirectDns.step, DirectDns.stepAt]
  | _ => cases at_call

theorem dns_step_call {event : DirectDnsEvent} {index : ℕ} {call : ResolveCall}
    (at_call : event.callIndex = some index) (found : traced.dns.calls[index]? = some call) :
    (traced.step event).dns = traced.dns.stepCall index call event := by
  cases event with
  | lookup _ | register _ | answer _ _ _ | fail _ | finish _ =>
      obtain rfl := Option.some.inj at_call
      simp only [step, DirectDns.step, DirectDns.stepAt, found]
  | _ => cases at_call

/-- Every cached answer is one of a call that began after the last clear. -/
def Barrier (traced : TracedDns) : Prop :=
  ∀ name entry, traced.dns.router.directCache.lookup name = some entry →
    traced.sources.lookup name = some traced.dns.clears

/-- Every entry of the flight map has an initiator that has not dropped its guard. -/
def LiveFlights (traced : TracedDns) : Prop :=
  ∀ name channel, traced.dns.flights.lookup name = some channel →
    ∃ (index : ℕ) (call : ResolveCall), traced.initiators[channel]? = some index ∧
      traced.dns.calls[index]? = some call ∧ call.domain = name ∧
        call.phase.ownChannel = some channel

/-- Every entry that a guard took out was the entry of its own call. -/
def OwnCleanups (traced : TracedDns) : Prop :=
  ∀ cleanup ∈ traced.cleanups, cleanup.initiator = some cleanup.guardOf

structure Cleared (traced : TracedDns) : Prop where
  barrier : traced.Barrier
  flights : traced.LiveFlights
  cleanups : traced.OwnCleanups

/-- An answer comes only to a call that began after the last clear. -/
def InTime (traced : TracedDns) : DirectDnsEvent → Prop
  | .answer index _ _ => ∀ (call : ResolveCall) (channel : ℕ),
      traced.dns.calls[index]? = some call → call.phase = .querying channel →
        call.begun = traced.dns.clears
  | _ => True

/-- What all runs keep of the flight map. -/
structure Tracked (traced : TracedDns) : Prop where
  count : traced.initiators.length = traced.dns.channels
  initiator : ∀ (index : ℕ) (call : ResolveCall) (channel : ℕ),
    traced.dns.calls[index]? = some call → call.phase.ownChannel = some channel →
      traced.initiators[channel]? = some index
  flights : traced.LiveFlights
  cleanups : traced.OwnCleanups

theorem tracked_start (geo : GeoStore) : (start geo).Tracked := by
  constructor
  · rfl
  · intro index call channel found
    simp [start, DirectDns.start] at found
  · intro name channel found
    simp [start, DirectDns.start] at found
  · exact nofun

/-- Calls are added at most, and the flight map loses entries at most. -/
theorem Tracked.of_calls {next : TracedDns} (tracked : traced.Tracked) {new : List ResolveCall}
    (calls : next.dns.calls = traced.dns.calls ++ new)
    (idle : ∀ call ∈ new, call.phase.ownChannel = none)
    (flights : ∀ name channel, next.dns.flights.lookup name = some channel →
      traced.dns.flights.lookup name = some channel)
    (channels : next.dns.channels = traced.dns.channels)
    (initiators : next.initiators = traced.initiators)
    (cleanups : next.cleanups = traced.cleanups) : next.Tracked := by
  constructor
  · rw [initiators, channels]
    exact tracked.count
  · intro index call channel found own
    rw [calls, List.getElem?_append] at found
    rw [initiators]
    split at found
    · exact tracked.initiator index call channel found own
    · rw [idle call (List.mem_of_getElem? found)] at own
      cases own
  · intro name channel flight
    rcases tracked.flights name channel (flights name channel flight) with
      ⟨index, call, owner, found, rest⟩
    refine ⟨index, call, by rwa [initiators], ?_, rest⟩
    rw [calls, List.getElem?_append_left (List.getElem?_eq_some_iff.mp found).1]
    exact found
  · rw [OwnCleanups, cleanups]
    exact tracked.cleanups

/-- A call without a query of its own moves to a phase without one. -/
theorem Tracked.set_call {next : TracedDns} (tracked : traced.Tracked) {index : ℕ}
    {call : ResolveCall} {phase : CallPhase} (found : traced.dns.calls[index]? = some call)
    (calls : next.dns.calls = traced.dns.calls.set index { call with phase })
    (same : phase.ownChannel = call.phase.ownChannel)
    (flights : next.dns.flights = traced.dns.flights)
    (channels : next.dns.channels = traced.dns.channels)
    (initiators : next.initiators = traced.initiators)
    (cleanups : next.cleanups = traced.cleanups) : next.Tracked := by
  have inside := (List.getElem?_eq_some_iff.mp found).1
  constructor
  · rw [initiators, channels]
    exact tracked.count
  · intro other moved channel at_other own
    rw [calls] at at_other
    rw [initiators]
    rcases getElem?_set_cases at_other with ⟨rfl, rfl⟩ | ⟨_, before⟩
    · exact tracked.initiator index call channel found (same.symm.trans own)
    · exact tracked.initiator other moved channel before own
  · intro name channel flight
    rw [flights] at flight
    rcases tracked.flights name channel flight with ⟨other, owner, at_channel, at_other, rest⟩
    rw [initiators, calls]
    by_cases here : index = other
    · subst here
      obtain rfl : call = owner := Option.some.inj (found.symm.trans at_other)
      exact ⟨index, { call with phase }, at_channel, List.getElem?_set_self inside, rest.1,
        same.trans rest.2⟩
    · exact ⟨other, owner, at_channel, by rwa [List.getElem?_set_ne here], rest⟩
  · rw [OwnCleanups, cleanups]
    exact tracked.cleanups

/-- A call starts a query of its own, under a channel that no other call has. -/
theorem Tracked.register {next : TracedDns} (tracked : traced.Tracked) {index : ℕ}
    {call : ResolveCall} (found : traced.dns.calls[index]? = some call)
    (missed : call.phase = .missed)
    (calls : next.dns.calls =
      traced.dns.calls.set index { call with phase := .querying traced.dns.channels })
    (flights : next.dns.flights = traced.dns.flights.insert call.domain traced.dns.channels)
    (channels : next.dns.channels = traced.dns.channels + 1)
    (initiators : next.initiators = traced.initiators ++ [index])
    (cleanups : next.cleanups = traced.cleanups) : next.Tracked := by
  have inside := (List.getElem?_eq_some_iff.mp found).1
  have older : ∀ {channel owner : ℕ}, traced.initiators[channel]? = some owner →
      next.initiators[channel]? = some owner := by
    intro channel owner at_channel
    rw [initiators, List.getElem?_append_left (List.getElem?_eq_some_iff.mp at_channel).1]
    exact at_channel
  have newest : next.initiators[traced.dns.channels]? = some index := by
    rw [initiators, ← tracked.count, List.getElem?_concat_length]
  constructor
  · rw [initiators, channels, List.length_append, tracked.count]
    rfl
  · intro other moved channel at_other own
    rw [calls] at at_other
    rcases getElem?_set_cases at_other with ⟨rfl, rfl⟩ | ⟨_, before⟩
    · obtain rfl : traced.dns.channels = channel := Option.some.inj own
      exact newest
    · exact older (tracked.initiator other moved channel before own)
  · intro name channel flight
    rw [flights] at flight
    rw [calls]
    by_cases same : name = call.domain
    · subst same
      rw [AList.lookup_insert] at flight
      obtain rfl : traced.dns.channels = channel := Option.some.inj flight
      exact ⟨index, _, newest, List.getElem?_set_self inside, rfl, rfl⟩
    · rw [AList.lookup_insert_ne same] at flight
      rcases tracked.flights name channel flight with ⟨other, owner, at_channel, at_other, rest⟩
      have elsewhere : index ≠ other := by
        rintro rfl
        obtain rfl : call = owner := Option.some.inj (found.symm.trans at_other)
        simp [missed, CallPhase.ownChannel] at rest
      exact ⟨other, owner, older at_channel, by rwa [List.getElem?_set_ne elsewhere], rest⟩
  · rw [OwnCleanups, cleanups]
    exact tracked.cleanups

/-- A call drops its guard; what the guard takes out is the call's own entry. -/
theorem Tracked.finish {next : TracedDns} (tracked : traced.Tracked) {index own : ℕ}
    {call : ResolveCall} (found : traced.dns.calls[index]? = some call)
    (channel : call.phase.ownChannel = some own)
    (calls : next.dns.calls = traced.dns.calls.set index { call with phase := .returned })
    (flights : next.dns.flights =
      if traced.dns.flights.lookup call.domain = some own then traced.dns.flights.erase call.domain
      else traced.dns.flights)
    (channels : next.dns.channels = traced.dns.channels)
    (initiators : next.initiators = traced.initiators)
    (cleanups : next.cleanups = traced.finishCleanup index call) : next.Tracked := by
  have owner_of_own := tracked.initiator index call own found channel
  constructor
  · rw [initiators, channels]
    exact tracked.count
  · intro other moved number at_other its_own
    rw [calls] at at_other
    rw [initiators]
    rcases getElem?_set_cases at_other with ⟨rfl, rfl⟩ | ⟨_, before⟩
    · cases its_own
    · exact tracked.initiator other moved number before its_own
  · intro name number flight
    have kept : traced.dns.flights.lookup name = some number ∧
        ¬ (name = call.domain ∧ number = own) := by
      rw [flights] at flight
      split at flight
      · have different : name ≠ call.domain := by
          rintro rfl
          rw [AList.lookup_erase] at flight
          cases flight
        rw [AList.lookup_erase_ne different] at flight
        exact ⟨flight, fun same => different same.1⟩
      · rename_i not_own
        refine ⟨flight, ?_⟩
        rintro ⟨rfl, rfl⟩
        exact not_own flight
    rcases tracked.flights name number kept.1 with
      ⟨other, owner, at_channel, at_other, domain, its_own⟩
    have elsewhere : index ≠ other := by
      rintro rfl
      obtain rfl : call = owner := Option.some.inj (found.symm.trans at_other)
      exact kept.2 ⟨domain.symm, Option.some.inj (its_own.symm.trans channel)⟩
    rw [initiators, calls]
    exact ⟨other, owner, at_channel, by rwa [List.getElem?_set_ne elsewhere], domain, its_own⟩
  · rw [OwnCleanups, cleanups, finishCleanup, channel]
    dsimp only
    split
    · split
      · rename_i same
        intro cleanup there
        rcases List.mem_append.mp there with before | new
        · exact tracked.cleanups cleanup before
        · rw [List.mem_singleton] at new
          subst new same
          exact owner_of_own
      · exact tracked.cleanups
    · exact tracked.cleanups

/-- Events which ask the resolver at most. -/
structure Asks (dns next : DirectDns) (new : List ResolveCall) : Prop where
  calls : next.calls = dns.calls ++ new
  idle : ∀ call ∈ new, call.phase.ownChannel = none
  flights : next.flights = dns.flights
  channels : next.channels = dns.channels
  clears : next.clears = dns.clears
  cache : next.router.directCache = dns.router.directCache

theorem asks_none (dns : DirectDns) : Asks dns dns [] :=
  ⟨(List.append_nil _).symm, nofun, rfl, rfl, rfl, rfl⟩

theorem asks_resolveUpstream (dns : DirectDns) (origin : CallOrigin) (domain : String) :
    Asks dns (dns.resolveUpstream origin domain)
      [⟨origin, normalize domain, dns.clears, .started⟩] := by
  refine ⟨rfl, ?_, rfl, rfl, rfl, rfl⟩
  intro call there
  rw [List.mem_singleton] at there
  subst there
  rfl

/-- Neither a step of a call nor a clear of the cache. -/
def outside : DirectDnsEvent → Bool
  | .clearDirectCache => false
  | .lookup _ => false
  | .register _ => false
  | .answer _ _ _ => false
  | .fail _ => false
  | .finish _ => false
  | _ => true

theorem exists_asks (dns : DirectDns) {event : DirectDnsEvent} (other : outside event = true) :
    ∃ new, Asks dns (dns.step event) new := by
  have none := asks_none dns
  cases event with
  | setOutboundMode mode => exact ⟨[], none.calls, none.idle, rfl, rfl, rfl, rfl⟩
  | setCustomRules rules defaultAction => exact ⟨[], none.calls, none.idle, rfl, rfl, rfl, rfl⟩
  | loadGeo geo => exact ⟨[], none.calls, none.idle, rfl, rfl, rfl, rfl⟩
  | tick seconds => exact ⟨[], none.calls, none.idle, rfl, rfl, rfl, rfl⟩
  | udpDns domain qtype =>
      simp only [DirectDns.step, DirectDns.udpDns]
      split
      · exact ⟨[], none⟩
      · split
        · exact ⟨_, asks_resolveUpstream dns .udpDns domain⟩
        · exact ⟨[], none⟩
  | tcpDns domain qtype =>
      simp only [DirectDns.step, DirectDns.tcpDns]
      split
      · exact ⟨_, asks_resolveUpstream dns .tcpDns domain⟩
      · exact ⟨[], none⟩
  | route request =>
      simp only [DirectDns.step, DirectDns.route]
      split
      · split
        · exact ⟨[], none.calls, none.idle, rfl, rfl, rfl, rfl⟩
        · exact ⟨[], none⟩
      · exact ⟨[], none⟩
  | resolveFlow index =>
      simp only [DirectDns.step, DirectDns.resolveFlow]
      split
      · rename_i dom source _
        split
        · have asks :=
            asks_resolveUpstream { dns with flows := dns.flows.eraseIdx index } .relay dom
          exact ⟨_, asks.calls, asks.idle, rfl, rfl, rfl, rfl⟩
        · exact ⟨[], none.calls, none.idle, rfl, rfl, rfl, rfl⟩
      · exact ⟨[], none⟩
  | _ => cases other

/-- Outside its calls the resolver notes nothing. -/
theorem traces_outside {event : DirectDnsEvent} (other : outside event = true) :
    (traced.step event).sources = traced.sources ∧
      (traced.step event).initiators = traced.initiators ∧
        (traced.step event).cleanups = traced.cleanups := by
  cases event with
  | clearDirectCache => cases other
  | lookup index => cases other
  | register index => cases other
  | answer index ip evicted => cases other
  | fail index => cases other
  | finish index => cases other
  | _ => simp only [step, and_self]

theorem Tracked.same {next : TracedDns} (tracked : traced.Tracked)
    (dns : next.dns.calls = traced.dns.calls ∧ next.dns.flights = traced.dns.flights ∧
      next.dns.channels = traced.dns.channels)
    (initiators : next.initiators = traced.initiators)
    (cleanups : next.cleanups = traced.cleanups) : next.Tracked := by
  rcases dns with ⟨calls, flights, channels⟩
  have added : next.dns.calls = traced.dns.calls ++ [] := by simpa using calls
  apply tracked.of_calls added nofun _ channels initiators cleanups
  rw [flights]
  exact fun _ _ flight => flight

theorem Tracked.step_register (tracked : traced.Tracked) {index : ℕ} {call : ResolveCall}
    (found : traced.dns.calls[index]? = some call) :
    (traced.step (.register index)).Tracked := by
  by_cases missed : call.phase = .missed
  · cases flight : traced.dns.flights.lookup call.domain with
    | none =>
        apply tracked.register found missed <;>
          simp [step, registerInitiator, found, missed, flight, DirectDns.step, DirectDns.stepAt,
            DirectDns.stepCall, DirectDns.register, DirectDns.setCall]
    | some channel =>
        have same : (CallPhase.waiting channel).ownChannel = call.phase.ownChannel := by
          simp [missed, CallPhase.ownChannel]
        apply tracked.set_call found _ same <;>
          simp [step, registerInitiator, found, missed, flight, DirectDns.step, DirectDns.stepAt,
            DirectDns.stepCall, DirectDns.register, DirectDns.setCall]
  · apply tracked.same <;>
      simp [step, registerInitiator, found, missed, DirectDns.step, DirectDns.stepAt,
        DirectDns.stepCall]

theorem Tracked.step_lookup (tracked : traced.Tracked) {index : ℕ} {call : ResolveCall}
    (found : traced.dns.calls[index]? = some call) :
    (traced.step (.lookup index)).Tracked := by
  by_cases started : call.phase = .started
  · cases entry : traced.dns.router.freshEntry call.domain with
    | none =>
        have same : CallPhase.missed.ownChannel = call.phase.ownChannel := by
          simp [started, CallPhase.ownChannel]
        apply tracked.set_call found _ same <;>
          simp [step, found, started, entry, DirectDns.step, DirectDns.stepAt,
            DirectDns.stepCall, DirectDns.lookup, DirectDns.setCall]
    | some cached =>
        have same : CallPhase.returned.ownChannel = call.phase.ownChannel := by
          simp [started, CallPhase.ownChannel]
        apply tracked.set_call found _ same <;>
          simp [step, found, started, entry, DirectDns.step, DirectDns.stepAt,
            DirectDns.stepCall, DirectDns.lookup, DirectDns.setCall]
  · apply tracked.same <;>
      simp [step, found, started, DirectDns.step, DirectDns.stepAt, DirectDns.stepCall]

theorem Tracked.step_answer (tracked : traced.Tracked) {index : ℕ} {call : ResolveCall}
    (found : traced.dns.calls[index]? = some call) (ip : Ipv4Addr) (evicted : Option String) :
    (traced.step (.answer index ip evicted)).Tracked := by
  cases phase : call.phase with
  | querying channel =>
      have same : (CallPhase.answered channel).ownChannel = call.phase.ownChannel := by
        simp [phase, CallPhase.ownChannel]
      apply tracked.set_call found _ same <;>
        simp [step, found, phase, DirectDns.step, DirectDns.stepAt, DirectDns.stepCall,
          DirectDns.answer, DirectDns.setCall]
  | _ =>
      apply tracked.same <;>
        simp [step, found, phase, DirectDns.step, DirectDns.stepAt, DirectDns.stepCall]

theorem Tracked.step_fail (tracked : traced.Tracked) {index : ℕ} {call : ResolveCall}
    (found : traced.dns.calls[index]? = some call) :
    (traced.step (.fail index)).Tracked := by
  cases phase : call.phase with
  | querying channel =>
      have same : (CallPhase.answered channel).ownChannel = call.phase.ownChannel := by
        simp [phase, CallPhase.ownChannel]
      apply tracked.set_call found _ same <;>
        simp [step, found, phase, DirectDns.step, DirectDns.stepAt, DirectDns.stepCall,
          DirectDns.setCall]
  | _ =>
      apply tracked.same <;>
        simp [step, found, phase, DirectDns.step, DirectDns.stepAt, DirectDns.stepCall]

theorem Tracked.step_finish (tracked : traced.Tracked) {index : ℕ} {call : ResolveCall}
    (found : traced.dns.calls[index]? = some call) :
    (traced.step (.finish index)).Tracked := by
  have dns : (traced.step (.finish index)).dns = traced.dns.finish index call :=
    dns_step_call rfl found
  have cleanups :
      (traced.step (.finish index)).cleanups = traced.finishCleanup index call := by
    simp only [step, found, Option.elim_some]
  have initiators : (traced.step (.finish index)).initiators = traced.initiators := by
    simp only [step]
  cases phase : call.phase with
  | querying channel =>
      have own : call.phase.ownChannel = some channel := by simp [phase, CallPhase.ownChannel]
      apply tracked.finish found own _ _ _ initiators cleanups <;>
        simp [dns, DirectDns.finish, phase, DirectDns.setCall]
  | answered channel =>
      have own : call.phase.ownChannel = some channel := by simp [phase, CallPhase.ownChannel]
      apply tracked.finish found own _ _ _ initiators cleanups <;>
        simp [dns, DirectDns.finish, phase, DirectDns.setCall]
  | _ =>
      have same : CallPhase.returned.ownChannel = call.phase.ownChannel := by
        simp [phase, CallPhase.ownChannel]
      apply tracked.set_call found _ same <;>
        simp [dns, cleanups, initiators, finishCleanup, phase, CallPhase.ownChannel,
          DirectDns.finish, DirectDns.setCall]

theorem Tracked.step_clear (tracked : traced.Tracked) :
    (traced.step .clearDirectCache).Tracked := by
  have added : (traced.step .clearDirectCache).dns.calls = traced.dns.calls ++ [] := by
    simp [step, DirectDns.step, DirectDns.clearDirectCache]
  apply tracked.of_calls added nofun
  · intro name channel flight
    simp [step, DirectDns.step, DirectDns.clearDirectCache] at flight
  all_goals simp [step, DirectDns.step, DirectDns.clearDirectCache]

theorem Tracked.step_outside (tracked : traced.Tracked) {event : DirectDnsEvent}
    (other : outside event = true) : (traced.step event).Tracked := by
  rcases exists_asks traced.dns other with ⟨new, asks⟩
  rcases traces_outside other with ⟨_, initiators, cleanups⟩
  apply tracked.of_calls asks.calls asks.idle _ asks.channels initiators cleanups
  intro name channel flight
  rw [← asks.flights]
  exact flight

theorem Tracked.step (tracked : traced.Tracked) (event : DirectDnsEvent) :
    (traced.step event).Tracked := by
  have at_call : ∀ {index : ℕ}, event.callIndex = some index →
      (∀ call, traced.dns.calls[index]? = some call → (traced.step event).Tracked) →
      (traced.step event).Tracked := by
    intro index here present
    cases found : traced.dns.calls[index]? with
    | none =>
        rw [step_absent here found]
        exact tracked
    | some call => exact present call found
  cases event with
  | clearDirectCache => exact tracked.step_clear
  | lookup index => exact at_call rfl fun call found => tracked.step_lookup found
  | register index => exact at_call rfl fun call found => tracked.step_register found
  | answer index ip evicted =>
      exact at_call rfl fun call found => tracked.step_answer found ip evicted
  | fail index => exact at_call rfl fun call found => tracked.step_fail found
  | finish index => exact at_call rfl fun call found => tracked.step_finish found
  | _ => exact tracked.step_outside rfl

/-- What neither answers nor clears leaves cache, sources and count alone. -/
theorem Barrier.same {next : TracedDns} (barrier : traced.Barrier)
    (cache : next.dns.router.directCache = traced.dns.router.directCache)
    (clears : next.dns.clears = traced.dns.clears) (sources : next.sources = traced.sources) :
    next.Barrier := by
  intro name entry cached
  rw [cache] at cached
  rw [clears, sources]
  exact barrier name entry cached

theorem Barrier.step_outside (barrier : traced.Barrier) {event : DirectDnsEvent}
    (other : outside event = true) : (traced.step event).Barrier := by
  rcases exists_asks traced.dns other with ⟨new, asks⟩
  exact barrier.same asks.cache asks.clears (traces_outside other).1

theorem Barrier.step_call (barrier : traced.Barrier) {event : DirectDnsEvent} {index : ℕ}
    (at_call : event.callIndex = some index)
    (quiet : ∀ index ip evicted, event ≠ .answer index ip evicted)
    (sources : (traced.step event).sources = traced.sources) : (traced.step event).Barrier := by
  cases found : traced.dns.calls[index]? with
  | none =>
      rw [step_absent at_call found]
      exact barrier
  | some call =>
      have dns := dns_step_call at_call found
      rcases traced.dns.stepCall_frame index call quiet with ⟨router, clears⟩
      apply barrier.same
      · rw [dns, router]
      · rw [dns, clears]
      · exact sources

/-- An answer is cached for its name, whenever its call began. -/
theorem barrier_answer_iff (barrier : traced.Barrier) {index channel : ℕ} {call : ResolveCall}
    (found : traced.dns.calls[index]? = some call) (phase : call.phase = .querying channel)
    (ip : Ipv4Addr) (evicted : Option String) :
    (traced.step (.answer index ip evicted)).Barrier ↔ call.begun = traced.dns.clears := by
  have dns : (traced.step (.answer index ip evicted)).dns =
      traced.dns.answer index call channel ip evicted := by
    rw [dns_step_call rfl found, DirectDns.stepCall, phase]
  have router : (traced.step (.answer index ip evicted)).dns.router =
      traced.dns.router.insertDirectCache call.domain ip
        (traced.dns.router.geo.isTrustworthyCnAnswer (.v4 ip)) evicted := by
    rw [dns]
    rfl
  have clears : (traced.step (.answer index ip evicted)).dns.clears = traced.dns.clears := by
    rw [dns]
    rfl
  have sources : (traced.step (.answer index ip evicted)).sources =
      traced.sources.insert (normalize call.domain) call.begun := by
    simp only [step, found, Option.elim_some, answerSource, phase]
  constructor
  · intro after
    have cached := after (normalize call.domain)
    rw [router, clears, sources, AList.lookup_insert] at cached
    exact Option.some.inj (cached _ (AList.lookup_insert _))
  · intro inTime name entry cached
    rw [router] at cached
    rw [clears, sources]
    by_cases same : name = normalize call.domain
    · subst same
      rw [AList.lookup_insert, inTime]
    · rw [AList.lookup_insert_ne same]
      rcases RouterState.insertDirectCache_lookup cached with ⟨new, _⟩ | before
      · exact absurd new same
      · exact barrier name entry before

theorem barrier_step_iff (barrier : traced.Barrier) (event : DirectDnsEvent) :
    (traced.step event).Barrier ↔ traced.InTime event := by
  cases event with
  | answer index ip evicted =>
      cases found : traced.dns.calls[index]? with
      | none =>
          apply iff_of_true
          · rw [step_absent rfl found]
            exact barrier
          · intro call channel there
            rw [found] at there
            cases there
      | some call =>
          cases phase : call.phase with
          | querying channel =>
              rw [barrier_answer_iff barrier found phase]
              constructor
              · rintro inTime other _ there _
                rw [found, Option.some.injEq] at there
                rwa [← there]
              · exact fun inTime => inTime call channel found phase
          | _ =>
              apply iff_of_true
              · apply barrier.same <;>
                  simp [step, found, phase, answerSource, DirectDns.step, DirectDns.stepAt,
                    DirectDns.stepCall]
              · intro other channel there querying
                rw [found, Option.some.injEq] at there
                rw [← there, phase] at querying
                cases querying
  | clearDirectCache =>
      apply iff_of_true _ trivial
      intro name entry cached
      simp [step, DirectDns.step, DirectDns.clearDirectCache] at cached
  | lookup index | register index | fail index | finish index =>
      exact iff_of_true (barrier.step_call rfl nofun rfl) trivial
  | _ =>
      exact iff_of_true (barrier.step_outside rfl) trivial

/--
In all states of a run, no cached answer is one of a call that began before the
last clear, every entry of the flight map has a live initiator, and no guard has
taken out another call's entry, exactly if all answers come in time.
-/
theorem cleared_iff_inTime (geo : GeoStore) (events : List DirectDnsEvent) :
    Throughout step Cleared (start geo) events ↔ Along step InTime (start geo) events := by
  have initially : (start geo).Tracked ∧ (start geo).Barrier := by
    refine ⟨tracked_start geo, ?_⟩
    intro name entry cached
    simp [start, DirectDns.start, RouterState.initial] at cached
  have enough : ∀ {traced : TracedDns}, traced.Tracked ∧ traced.Barrier → traced.Cleared :=
    fun invariant => ⟨invariant.2, invariant.1.flights, invariant.1.cleanups⟩
  have kept : ∀ {traced : TracedDns} {event}, True → traced.Tracked ∧ traced.Barrier →
      traced.InTime event → (traced.step event).Tracked ∧ (traced.step event).Barrier := by
    rintro traced event - ⟨tracked, barrier⟩ inTime
    exact ⟨tracked.step event, (barrier_step_iff barrier event).mpr inTime⟩
  have broken : ∀ {traced : TracedDns} {event}, True → traced.Tracked ∧ traced.Barrier →
      (traced.step event).Cleared → traced.InTime event := by
    rintro traced event - ⟨_, barrier⟩ cleared
    exact (barrier_step_iff barrier event).mp cleared.barrier
  exact throughout_iff_along (fun traced => traced.Tracked ∧ traced.Barrier) enough kept broken
    (Along.of_forall fun _ _ => trivial) initially

/-- The cache is cleared while a query is under way, and then its answer arrives. -/
theorem not_cleared_lateAnswer :
    ¬ ∀ geo events, Throughout step Cleared (start geo) events := by
  intro claimed
  have cleared := (claimed .empty [.setOutboundMode 2, .tcpDns "example.com" 1, .lookup 0,
    .register 0, .clearDirectCache, .answer 0 (ipv4 1 2 3 4) none]).run
  have source := cleared.barrier "example.com" ⟨ipv4 1 2 3 4, false, 0⟩ (by decide +kernel)
  exact absurd source (by decide +kernel)

end TracedDns

end Mirage.Tun

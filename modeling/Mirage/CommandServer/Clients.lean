import Mirage.CommandServer.Delivery
import Mirage.Foundations.Queues

/-!
# The clients of the command bus

`start_command_server` binds the name of the socket, which one listener can hold at a time,
and accepts the clients.  How many are served is kept in an atomic counter of the process.
An attempt adds one to it and looks at what was there before; if that is the limit, it takes
one away again, and in between the counter is one too high.  The guard of a client takes one
away when the task of the client is dropped, at its end or with the runtime.

Whatever the order of these accesses, the limit is kept, no place is lost, and a client of
this application is refused only if all places are taken when it asks.
-/

namespace Mirage

open Mirage.Foundations

def maxConcurrentClients : ℕ := 2

/-- The task of a client -/
structure ClientTask where
  peerUid : ℕ
  client : CommandClient
  /-- The guard has not been dropped. -/
  guarded : Bool

inductive ListenerPhase where
  | unbound
  | accepting
  /-- The counter was increased, and this was there before. -/
  | acquiring (peerUid previous : ℕ)

structure CommandServer where
  myUid : ℕ
  activeClients : ℕ
  listener : ListenerPhase
  tasks : List ClientTask

inductive ServerEvent where
  /-- A session starts its command server. -/
  | bind
  | stop
  /-- A connection, with the credentials of the peer if they can be read -/
  | accept (peerUid : Option ℕ)
  /-- The attempt goes on with what was in the counter. -/
  | settle
  | client (index : ℕ) (event : ClientEvent)
  | drop (index : ℕ)

/-- Something happens to a client which is served. -/
def ServerEvent.OfTask : ServerEvent → Prop
  | .client _ _ | .drop _ => True
  | .bind | .stop | .accept _ | .settle => False

namespace CommandServer

def new (myUid : ℕ) : CommandServer :=
  ⟨myUid, 0, .unbound, []⟩

def served (server : CommandServer) : ℕ :=
  server.tasks.countP ClientTask.guarded

/-- What the attempt which is under way has added -/
def pending (server : CommandServer) : ℕ :=
  match server.listener with
  | .acquiring _ _ => 1
  | .unbound | .accepting => 0

/-- The first access of `ClientGuard::try_acquire` -/
def tryAcquire (server : CommandServer) (peerUid : ℕ) : CommandServer :=
  { server with
    activeClients := server.activeClients + 1
    listener := .acquiring peerUid server.activeClients }

/-- The rest of it, and the task of the client -/
def settle (server : CommandServer) : CommandServer :=
  match server.listener with
  | .acquiring peerUid previous =>
      if maxConcurrentClients ≤ previous then
        { server with activeClients := server.activeClients - 1, listener := .accepting }
      else
        { server with
          listener := .accepting
          tasks := server.tasks ++ [⟨peerUid, .start, true⟩] }
  | .unbound | .accepting => server

/-- A client which is served -/
def guarded? (server : CommandServer) (index : ℕ) : Option ClientTask :=
  server.tasks[index]?.filter ClientTask.guarded

/-- The guard is dropped with the task; `checked_sub` leaves a counter of zero as it is. -/
def drop (server : CommandServer) (index : ℕ) : CommandServer :=
  (server.guarded? index).elim server fun task =>
    { server with
      activeClients := server.activeClients - 1
      tasks := server.tasks.set index { task with guarded := false } }

def step (server : CommandServer) : ServerEvent → CommandServer
  | .bind =>
      match server.listener with
      | .unbound => { server with listener := .accepting }
      | .accepting | .acquiring _ _ => server
  | .stop =>
      match server.listener with
      | .accepting => { server with listener := .unbound }
      | .unbound | .acquiring _ _ => server
  | .accept peerUid =>
      match server.listener with
      | .accepting =>
          if peerUid = some server.myUid then server.tryAcquire server.myUid else server
      | .unbound | .acquiring _ _ => server
  | .settle => server.settle
  | .client index event =>
      (server.guarded? index).elim server fun task =>
        { server with
          tasks := server.tasks.set index { task with client := task.client.step event } }
  | .drop index => server.drop index

variable {server : CommandServer}

theorem guarded?_eq_some {index : ℕ} {task : ClientTask} :
    server.guarded? index = some task ↔ server.tasks[index]? = some task ∧ task.guarded = true := by
  rw [guarded?, Option.filter_eq_some_iff]

/-! ## The limit -/

section Limit

/-- The counter is exact up to the attempt which is under way. -/
structure Limited (server : CommandServer) : Prop where
  counted : server.activeClients = server.served + server.pending
  acquired : ∀ peerUid previous, server.listener = .acquiring peerUid previous →
    peerUid = server.myUid ∧ server.served ≤ previous
  limited : server.served ≤ maxConcurrentClients
  own : ∀ task ∈ server.tasks, task.peerUid = server.myUid

theorem limited_new (myUid : ℕ) : (new myUid).Limited where
  counted := rfl
  acquired := nofun
  limited := Nat.zero_le _
  own := nofun

/-- A task which is served is replaced. -/
theorem served_set {index : ℕ} {task : ClientTask} (found : server.guarded? index = some task)
    (next : ClientTask) :
    (server.tasks.set index next).countP ClientTask.guarded + 1 =
      server.served + next.guarded.toNat := by
  rcases guarded?_eq_some.mp found with ⟨there, guarded⟩
  have counted := countP_set_add there ClientTask.guarded next
  rwa [guarded] at counted

/-- One task which is served goes on, or ends and takes one away from the counter. -/
theorem Limited.set (limited : server.Limited) {index : ℕ} {task : ClientTask}
    (found : server.guarded? index = some task) (next : ClientTask)
    (same : next.peerUid = task.peerUid) {counter : ℕ}
    (counts : counter + 1 = server.activeClients + next.guarded.toNat) :
    Limited { server with
      activeClients := counter
      tasks := server.tasks.set index next } := by
  have served := served_set found next
  have at_most := Bool.toNat_le next.guarded
  have counted := limited.counted
  have within := limited.limited
  constructor
  · simp only [CommandServer.served, pending] at served counted ⊢
    omega
  · intro peerUid previous under_way
    rcases limited.acquired peerUid previous under_way with ⟨own, le⟩
    refine ⟨own, ?_⟩
    simp only [CommandServer.served] at served le ⊢
    omega
  · simp only [CommandServer.served] at served within ⊢
    omega
  · intro other member
    rcases List.mem_or_eq_of_mem_set member with before | rfl
    · exact limited.own other before
    · rw [same]
      exact limited.own task (List.mem_of_getElem? (guarded?_eq_some.mp found).1)

theorem Limited.drop (limited : server.Limited) (index : ℕ) : (server.drop index).Limited := by
  rw [CommandServer.drop]
  cases found : server.guarded? index with
  | none => exact limited
  | some task =>
      have one_served := served_set found { task with guarded := false }
      have counted := limited.counted
      simp only [Bool.toNat_false] at one_served
      rw [Option.elim_some]
      refine limited.set found { task with guarded := false } rfl ?_
      simp only [Bool.toNat_false]
      omega

theorem Limited.client (limited : server.Limited) (index : ℕ) (event : ClientEvent) :
    (server.step (.client index event)).Limited := by
  rw [step]
  cases found : server.guarded? index with
  | none => exact limited
  | some task =>
      have guarded : task.guarded = true := (guarded?_eq_some.mp found).2
      rw [Option.elim_some]
      refine limited.set found { task with client := task.client.step event } rfl ?_
      rw [guarded, Bool.toNat_true]

theorem Limited.tryAcquire (limited : server.Limited) (accepts : server.listener = .accepting) :
    (server.tryAcquire server.myUid).Limited := by
  have counted := limited.counted
  simp only [pending, accepts] at counted
  constructor
  · simp only [CommandServer.tryAcquire, pending]
    exact congrArg (· + 1) counted
  · intro peerUid previous under_way
    simp only [CommandServer.tryAcquire, ListenerPhase.acquiring.injEq] at under_way
    rcases under_way with ⟨rfl, rfl⟩
    exact ⟨rfl, counted.ge⟩
  · exact limited.limited
  · exact limited.own

/-- A place is taken by the client, or given back. -/
theorem Limited.settle (limited : server.Limited) : server.settle.Limited := by
  rw [CommandServer.settle]
  split
  · rename_i peerUid previous under_way
    have counted := limited.counted
    rcases limited.acquired peerUid previous under_way with ⟨own, le⟩
    simp only [pending, under_way] at counted
    split
    · refine ⟨?_, nofun, limited.limited, limited.own⟩
      exact Nat.sub_eq_of_eq_add counted
    · rename_i room
      have more :
          List.countP ClientTask.guarded (server.tasks ++ [⟨peerUid, .start, true⟩]) =
            server.served + 1 := by
        rw [List.countP_append, List.countP_singleton]
        rfl
      constructor
      · simp only [CommandServer.served, pending] at more counted ⊢
        omega
      · nofun
      · simp only [CommandServer.served] at more le ⊢
        omega
      · intro task member
        rcases List.mem_append.mp member with before | here
        · exact limited.own task before
        · rw [List.mem_singleton.mp here]
          exact own
  · exact limited
  · exact limited

theorem Limited.step (limited : server.Limited) (event : ServerEvent) :
    (server.step event).Limited := by
  cases event with
  | bind =>
      rw [CommandServer.step]
      split
      · rename_i unbound
        have counted := limited.counted
        simp only [pending, unbound] at counted
        exact ⟨counted, nofun, limited.limited, limited.own⟩
      · exact limited
      · exact limited
  | stop =>
      rw [CommandServer.step]
      split
      · rename_i accepts
        have counted := limited.counted
        simp only [pending, accepts] at counted
        exact ⟨counted, nofun, limited.limited, limited.own⟩
      · exact limited
      · exact limited
  | accept peerUid =>
      rw [CommandServer.step]
      split
      · rename_i accepts
        split
        · exact limited.tryAcquire accepts
        · exact limited
      · exact limited
      · exact limited
  | settle => exact limited.settle
  | client index event => exact limited.client index event
  | drop index => exact limited.drop index

theorem limited_run (myUid : ℕ) (events : List ServerEvent) :
    (run step (new myUid) events).Limited :=
  run_invariant events (fun event limited => limited.step event) (limited_new myUid)

theorem step_myUid (event : ServerEvent) : (server.step event).myUid = server.myUid := by
  cases event with
  | bind | stop =>
      rw [step]
      split <;> rfl
  | accept peerUid =>
      rw [step]
      split
      · split <;> rfl
      · rfl
      · rfl
  | settle =>
      rw [step, settle]
      split
      · split <;> rfl
      · rfl
      · rfl
  | client index event =>
      rw [step]
      cases server.guarded? index <;> rfl
  | drop index =>
      rw [step, CommandServer.drop]
      cases server.guarded? index <;> rfl

/-- What happens to the clients leaves the listener as it is. -/
theorem step_of_task {event : ServerEvent} (of_task : event.OfTask) :
    (server.step event).listener = server.listener ∧
      (server.step event).tasks.length = server.tasks.length := by
  cases event with
  | client index event =>
      rw [step]
      cases server.guarded? index with
      | none => exact ⟨rfl, rfl⟩
      | some task => exact ⟨rfl, List.length_set⟩
  | drop index =>
      rw [step, CommandServer.drop]
      cases server.guarded? index with
      | none => exact ⟨rfl, rfl⟩
      | some task => exact ⟨rfl, List.length_set⟩
  | bind | stop | accept peerUid | settle => exact of_task.elim

/-- The attempt decides on what it has read, whatever has happened since. -/
theorem settled_of_tasks {peerUid previous : ℕ} {between : List ServerEvent}
    (under_way : server.listener = .acquiring peerUid previous)
    (of_tasks : ∀ event ∈ between, event.OfTask) :
    (run step server (between ++ [.settle])).tasks.length =
      server.tasks.length + if previous < maxConcurrentClients then 1 else 0 := by
  have kept : (run step server between).listener = server.listener ∧
      (run step server between).tasks.length = server.tasks.length := by
    apply @run_invariant_along _ _ step (fun _ event => event.OfTask)
      (fun next => next.listener = server.listener ∧ next.tasks.length = server.tasks.length)
      _ _ _ (along_iff_forall_mem.mpr of_tasks) ⟨rfl, rfl⟩
    intro next event of_task same
    rcases step_of_task of_task with ⟨listener, tasks⟩
    exact ⟨listener.trans same.1, tasks.trans same.2⟩
  rw [run_append, run_cons, run_nil, step, settle, kept.1, under_way]
  dsimp only
  split
  · rename_i full
    rw [if_neg (Nat.not_lt.mpr full)]
    exact kept.2
  · rename_i room
    rw [if_pos (Nat.not_le.mp room), List.length_append, List.length_singleton, kept.2]

/--
However the accesses to the counter interleave with the ends of clients, and with servers
which stop and start: no more clients are served than there are places, all of them of this
application; the counter is exact but for an attempt which is under way; and a client of
this application is served exactly if a place is free when it asks.
-/
theorem clients_limited (myUid : ℕ) (events : List ServerEvent) :
    let server := run step (new myUid) events
    server.served ≤ maxConcurrentClients ∧ (∀ task ∈ server.tasks, task.peerUid = myUid) ∧
      server.activeClients = server.served + server.pending ∧
      ∀ between, (∀ event ∈ between, event.OfTask) → server.listener = .accepting →
        (run step server (.accept (some myUid) :: (between ++ [.settle]))).tasks.length =
          server.tasks.length + if server.served < maxConcurrentClients then 1 else 0 := by
  intro server
  have limited : server.Limited := limited_run myUid events
  have uid : server.myUid = myUid :=
    @run_invariant _ _ step (fun server => server.myUid = myUid) _ events
      (fun event same => (step_myUid event).trans same) rfl
  refine ⟨limited.limited, fun task member => (limited.own task member).trans uid,
    limited.counted, ?_⟩
  intro between of_tasks accepts
  have counted := limited.counted
  simp only [pending, accepts, Nat.add_zero] at counted
  have asked : server.step (.accept (some myUid)) = server.tryAcquire server.myUid := by
    simp only [step, accepts, uid, if_true]
  rw [run_cons, asked, settled_of_tasks (by rfl) of_tasks, counted]
  rfl

end Limit

/-! ## One client among others -/

section Separate

/-- The client of a task; one which is still to come starts there. -/
def clientAt (server : CommandServer) (index : ℕ) : CommandClient :=
  (server.tasks[index]?.map ClientTask.client).getD .start

/-- What the client of a task gets of an event -/
def gives (index : ℕ) (server : CommandServer) : ServerEvent → List ClientEvent
  | .client other event =>
      if other = index ∧ (server.guarded? index).isSome then [event] else []
  | .bind | .stop | .accept _ | .settle | .drop _ => []

theorem clientAt_set {other index : ℕ} {task : ClientTask}
    (found : server.guarded? other = some task) (next : ClientTask) :
    ((server.tasks.set other next)[index]?.map ClientTask.client).getD .start =
      if other = index then next.client else server.clientAt index := by
  have inside := (List.getElem?_eq_some_iff.mp (guarded?_eq_some.mp found).1).1
  rw [List.getElem?_set]
  split
  · rfl
  · rfl

theorem clientAt_append (server : CommandServer) (peerUid index : ℕ) :
    ((server.tasks ++ [ClientTask.mk peerUid .start true])[index]?.map ClientTask.client).getD
      .start = server.clientAt index := by
  rw [clientAt, List.getElem?_append]
  split
  · rfl
  · rename_i behind
    rw [List.getElem?_eq_none (Nat.not_lt.mp behind), Option.map_none, Option.getD_none]
    cases index - server.tasks.length <;> rfl

theorem clientAt_step (index : ℕ) (server : CommandServer) (event : ServerEvent) :
    (server.step event).clientAt index =
      run CommandClient.step (server.clientAt index) (server.gives index event) := by
  cases event with
  | bind | stop =>
      rw [step]
      split <;> rfl
  | accept peerUid =>
      rw [step]
      split
      · split <;> rfl
      · rfl
      · rfl
  | settle =>
      rw [step, settle]
      split
      · split
        · rfl
        · exact clientAt_append server _ index
      · rfl
      · rfl
  | client other event =>
      rw [step, gives]
      cases found : server.guarded? other with
      | none =>
          rw [if_neg]
          · rfl
          · rintro ⟨rfl, here⟩
            rw [found] at here
            cases here
      | some task =>
          refine (clientAt_set found _).trans ?_
          by_cases same : other = index
          · subst same
            have here : server.clientAt other = task.client := by
              rw [clientAt, (guarded?_eq_some.mp found).1]
              rfl
            rw [if_pos rfl, if_pos ⟨rfl, found ▸ rfl⟩, here]
            rfl
          · rw [if_neg same, if_neg fun both => same both.1]
            rfl
  | drop other =>
      rw [step, CommandServer.drop]
      cases found : server.guarded? other with
      | none => rfl
      | some task =>
          refine (clientAt_set found _).trans ?_
          by_cases same : other = index
          · subst same
            rw [if_pos rfl, clientAt, (guarded?_eq_some.mp found).1]
            rfl
          · rw [if_neg same]
            rfl

end Separate

end CommandServer

end Mirage

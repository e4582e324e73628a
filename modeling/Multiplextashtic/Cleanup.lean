import Multiplextashtic.Broadcast
import Multiplextashtic.Connection

/-! # The cleanup of idle clients

The server of `Server.lean` in time: what a client sends waits until its read loop
reads it, a read stamps the handler with `time.time()`, and `_cleanup_loop` compares
the stamps with the event loop's `time()`. -/
namespace Multiplextashtic.Cleanup
open Multiplextashtic.Protocol Multiplextashtic.Messages Multiplextashtic.Config
open Multiplextashtic.ConfigReplay Multiplextashtic.Client Multiplextashtic.Server Run

/-! ## Clocks -/

/-- A clock that counts from an origin of its own. -/
structure Clock where
  origin : Time
  deriving DecidableEq, Repr

/-- What the clock shows at a time. -/
def Clock.reading (clock : Clock) (time : Time) : Time := clock.origin + time

/-- `time.time()` and the event loop's `time()`. -/
structure Clocks where
  wall : Clock
  loop : Clock
  deriving DecidableEq, Repr

/-- How far the event loop's clock is ahead of `time.time()`. -/
def Clocks.lead (clocks : Clocks) : Time := clocks.loop.origin - clocks.wall.origin

/-- A difference across the clocks is off by the lead. -/
theorem Clocks.reading_sub (clocks : Clocks) (time since : Time) :
    clocks.loop.reading time - clocks.wall.reading since = time - since + clocks.lead := by
  rw [Clock.reading, Clock.reading, add_sub_add_comm, add_comm, Clocks.lead]

def clientTimeout : Time := 300000000

def cleanupInterval : Time := 60000000

/-! ## Connections -/

/-- A client's stream and its read loop. `inbox` is what has arrived and is not read,
`parsing` says that the loop is at its frames; `ended` that `handle` has returned.
`sentAt` and `readAt` record when the client last sent something and when it was last
read: a connection counts as both. -/
structure Connection where
  lastActivity : Time
  buffer : Bytes := []
  parsing : Bool := false
  inbox : Bytes := []
  ended : Bool := false
  sentAt : Time
  readAt : Time
  deriving DecidableEq, Repr

/-- Time runs from the start of the server; `wakeAt` is when `_cleanup_loop` has slept. -/
structure LiveServer (E : Type) where
  server : TCPServer E
  time : Time := 0
  wakeAt : Time := cleanupInterval
  connections : List Connection := []

variable {E : Type}

/-- The read task waits for nothing but its stream. -/
def readsOn : ReadTask E → Bool
  | .reading => true
  | _ => false

section
variable (clocks : Clocks) (s : LiveServer E)

def newConnection (time : Time) : Connection :=
  { lastActivity := clocks.wall.reading time, sentAt := time, readAt := time }

/-- `await self._reader.read(4096)`, up to the inner loop. -/
def readChunk (time : Time) (c : Connection) : Connection :=
  { c with
    lastActivity := clocks.wall.reading time
    buffer := c.buffer ++ c.inbox.take 4096
    inbox := c.inbox.drop 4096
    parsing := true
    readAt := time }

/-- The inner loop keeps what `find_frame` returned. -/
def keepBuffer (rest : Bytes) (parsing : Bool) (c : Connection) : Connection :=
  { c with buffer := rest, parsing }

def Connection.finish (c : Connection) : Connection := { c with ended := true }

def arrive (time : Time) (data : Bytes) (c : Connection) : Connection :=
  { c with inbox := c.inbox ++ data, sentAt := time }

def modifyConnection (cid : Nat) (f : Connection → Connection) : LiveServer E :=
  { s with connections := s.connections.modify cid f }

/-- `now - handler.last_activity > CLIENT_TIMEOUT_SECONDS`, with the event loop's `now`. -/
def expires (cid : Nat) : Bool :=
  (s.connections[cid]?).any fun c =>
    clientTimeout < clocks.loop.reading s.time - c.lastActivity

def expired : List Nat := s.server.registry.filter (expires clocks s)

/-- A turn of `_cleanup_loop`. -/
def cleanup : LiveServer E :=
  { s with
    server := (expired clocks s).foldl removeClient s.server
    wakeAt := s.time + cleanupInterval }

/-- The steps of the server that have no step of their own here. A stream ends when all
of it has been read; a read can raise before. -/
def others : Server.Event → Bool
  | .connect _ => false
  | .remove _ => false
  | .client cid e =>
    match e with
    | .payload _ _ => false
    | .hangUp lost =>
      (s.connections[cid]?).any fun c => !c.parsing && (lost || c.inbox.isEmpty)
    | _ => true
  | _ => true

end

/-! ## Steps -/

inductive Event where
  | elapse (time : Time)
  | connect (peerIp : String)
  | send (cid : Nat) (data : Bytes)
  | read (cid : Nat)
  | parse (cid : Nat)
  | other (e : Server.Event)
  | handled (cid : Nat)
  | cleanup
  deriving DecidableEq, Repr

def step (pb : Protobuf E) (clocks : Clocks) (s : LiveServer E) : Event → Option (LiveServer E)
  | .elapse time => if 0 < time then some { s with time := s.time + time } else none
  | .connect peerIp =>
    some { s with
      server := Server.connect s.server peerIp
      connections := s.connections ++ [newConnection clocks s.time] }
  | .send cid data =>
    if data ≠ [] then some (modifyConnection s cid (arrive s.time data)) else none
  | .read cid => do
    let c ← s.connections[cid]?
    let h ← s.server.handlers[cid]?
    if readsOn h.read ∧ ¬ c.parsing ∧ c.inbox ≠ [] then
      some (modifyConnection s cid (readChunk clocks s.time))
    else none
  | .parse cid => do
    let c ← s.connections[cid]?
    let h ← s.server.handlers[cid]?
    if readsOn h.read ∧ c.parsing then
      match findFrame c.buffer with
      | (none, rest) => some (modifyConnection s cid (keepBuffer rest false))
      | (some payload, rest) => do
        let now := clocks.wall.reading s.time
        let server ← Server.step pb s.server (.client cid (.payload payload now))
        some { modifyConnection s cid (keepBuffer rest true) with server }
    else none
  | .other e =>
    if others s e then (Server.step pb s.server e).map fun server => { s with server } else none
  | .handled cid => do
    let c ← s.connections[cid]?
    let h ← s.server.handlers[cid]?
    if h.read.done ∧ h.write.done ∧ ¬ c.ended then
      some { modifyConnection s cid Connection.finish with server := removeClient s.server cid }
    else none
  | .cleanup => if s.wakeAt ≤ s.time then some (cleanup clocks s) else none

def init (config : AppConfig) : LiveServer E := { server := Server.init config }

variable {pb : Protobuf E} {clocks : Clocks} {s s' : LiveServer E}

/-- What a step can do. -/
inductive Stepped (pb : Protobuf E) (clocks : Clocks) (s : LiveServer E) :
    Event → LiveServer E → Prop
  | elapse {time : Time} : 0 < time →
      Stepped pb clocks s (.elapse time) { s with time := s.time + time }
  | connect (peerIp : String) : Stepped pb clocks s (.connect peerIp) { s with
      server := Server.connect s.server peerIp
      connections := s.connections ++ [newConnection clocks s.time] }
  | send (cid : Nat) {data : Bytes} : data ≠ [] →
      Stepped pb clocks s (.send cid data) (modifyConnection s cid (arrive s.time data))
  | read (cid : Nat) :
      Stepped pb clocks s (.read cid) (modifyConnection s cid (readChunk clocks s.time))
  | parsed (cid : Nat) (rest : Bytes) :
      Stepped pb clocks s (.parse cid) (modifyConnection s cid (keepBuffer rest false))
  | payload {cid : Nat} {rest payload : Bytes} {now : Time} {server : TCPServer E} :
      Server.step pb s.server (.client cid (.payload payload now)) = some server →
      Stepped pb clocks s (.parse cid)
        { modifyConnection s cid (keepBuffer rest true) with server }
  | other {e : Server.Event} {server : TCPServer E} : others s e = true →
      Server.step pb s.server e = some server → Stepped pb clocks s (.other e) { s with server }
  | handled {cid : Nat} {h : ClientHandler E} : s.server.handlers[cid]? = some h →
      h.read.done = true → Stepped pb clocks s (.handled cid)
        { modifyConnection s cid Connection.finish with server := removeClient s.server cid }
  | cleanup : s.wakeAt ≤ s.time → Stepped pb clocks s .cleanup (cleanup clocks s)

theorem step_stepped {e : Event} (hs : step pb clocks s e = some s') :
    Stepped pb clocks s e s' := by
  cases e with
  | elapse time =>
    obtain ⟨htime, hs⟩ := Option.ite_none_right_eq_some.mp hs
    cases hs
    exact .elapse htime
  | connect peerIp =>
    cases hs
    exact .connect peerIp
  | send cid data =>
    obtain ⟨hdata, hs⟩ := Option.ite_none_right_eq_some.mp hs
    cases hs
    exact .send cid hdata
  | read cid =>
    obtain ⟨c, hc, hs⟩ := Option.bind_eq_some_iff.mp hs
    obtain ⟨h, hh, hs⟩ := Option.bind_eq_some_iff.mp hs
    obtain ⟨-, hs⟩ := Option.ite_none_right_eq_some.mp hs
    cases hs
    exact .read cid
  | parse cid =>
    obtain ⟨c, hc, hs⟩ := Option.bind_eq_some_iff.mp hs
    obtain ⟨h, hh, hs⟩ := Option.bind_eq_some_iff.mp hs
    obtain ⟨-, hs⟩ := Option.ite_none_right_eq_some.mp hs
    split at hs
    · cases hs
      exact .parsed cid _
    · obtain ⟨server, hserver, hs⟩ := Option.bind_eq_some_iff.mp hs
      cases hs
      exact .payload hserver
  | other e =>
    obtain ⟨hother, hs⟩ := Option.ite_none_right_eq_some.mp hs
    obtain ⟨server, hserver, rfl⟩ := Option.map_eq_some_iff.mp hs
    exact .other hother hserver
  | handled cid =>
    obtain ⟨c, hc, hs⟩ := Option.bind_eq_some_iff.mp hs
    obtain ⟨h, hh, hs⟩ := Option.bind_eq_some_iff.mp hs
    obtain ⟨⟨hread, -⟩, hs⟩ := Option.ite_none_right_eq_some.mp hs
    cases hs
    exact .handled hh hread
  | cleanup =>
    obtain ⟨hwake, hs⟩ := Option.ite_none_right_eq_some.mp hs
    cases hs
    exact .cleanup hwake

/-- The inner loop is never stuck: a payload it finds is one that the handler takes. -/
theorem step_parse_isSome {cid : Nat} {c : Connection} {h : ClientHandler E}
    (hc : s.connections[cid]? = some c) (hh : s.server.handlers[cid]? = some h)
    (hread : h.read = .reading) (hparsing : c.parsing = true) :
    (step pb clocks s (.parse cid)).isSome := by
  have hguard : readsOn h.read = true ∧ c.parsing = true := ⟨by rw [hread]; rfl, hparsing⟩
  simp only [step, hc, hh, Option.bind_eq_bind, Option.bind_some, if_pos hguard]
  split
  · rfl
  · next payload rest hframe =>
    simp [Server.step, hh, clientStep, hread, findFrame_length hframe]

/-! ## The server below -/

theorem cleaned_registry {cid : Nat} {server : TCPServer E} : ∀ {cids : List Nat},
    cid ∈ (cids.foldl removeClient server).registry ↔ cid ∈ server.registry ∧ cid ∉ cids := by
  intro cids
  induction cids generalizing server with
  | nil => simp
  | cons c cids ih =>
    rw [List.foldl_cons, ih, List.mem_cons, not_or, ← and_assoc]
    simp [removeClient]

theorem run_removes (pb : Protobuf E) (server : TCPServer E) (cids : List Nat) :
    run (Server.step pb) server (cids.map .remove) = some (cids.foldl removeClient server) := by
  induction cids generalizing server with
  | nil => rfl
  | cons cid cids ih => exact ih (removeClient server cid)

/-- A step is some steps of the server without time. -/
theorem step_server {e : Event} (hs : step pb clocks s e = some s') :
    ∃ es, run (Server.step pb) s.server es = some s'.server := by
  cases step_stepped hs with
  | connect peerIp => exact ⟨[.connect peerIp], rfl⟩
  | payload hserver => exact ⟨[_], run_cons.mpr ⟨_, hserver, rfl⟩⟩
  | other _ hserver => exact ⟨[_], run_cons.mpr ⟨_, hserver, rfl⟩⟩
  | @handled cid _ _ _ => exact ⟨[.remove cid], rfl⟩
  | cleanup _ => exact ⟨_, run_removes pb s.server (expired clocks s)⟩
  | elapse | send | read | parsed => exact ⟨[], rfl⟩

/-- **Every run in time is a run of the server without.** -/
theorem run_server (config : AppConfig) (es : List Event)
    (hr : run (step pb clocks) (init config) es = some s) :
    ∃ ses, run (Server.step pb) (Server.init config) ses = some s.server := by
  refine invariant (P := fun s => ∃ ses, run (Server.step pb) (Server.init config) ses =
    some s.server) ?_ ⟨[], rfl⟩ hr
  intro s e t hi hs
  obtain ⟨before, hbefore⟩ := hi
  obtain ⟨after, hafter⟩ := step_server hs
  exact ⟨before ++ after, run_append.mpr ⟨s.server, hbefore, hafter⟩⟩

def Event.connects : Event → Bool
  | .connect _ => true
  | _ => false

theorem step_handlers_length {e : Event} (hs : step pb clocks s e = some s') :
    s'.server.handlers.length = s.server.handlers.length + if e.connects then 1 else 0 := by
  cases step_stepped hs with
  | connect peerIp => exact List.length_append
  | payload hserver => exact handlers_length_step hserver
  | @other e server hother hserver =>
    have hconnects : e.connects = false := by
      cases e <;> first | rfl | cases hother
    rw [handlers_length_step hserver, hconnects]
    rfl
  | cleanup _ =>
    show ((expired clocks s).foldl removeClient s.server).handlers.length = _
    rw [run_handlers_length (run_removes pb s.server (expired clocks s))]
    simp [connections, Server.Event.connects, Event.connects, List.countP_eq_zero]
  | _ => rfl

/-- A client leaves the registry when its handler ends, and when a pass expires it. -/
theorem step_registry {e : Event} (hs : step pb clocks s e = some s') (cid : Nat) :
    cid ∈ s'.server.registry ↔
      (cid ∈ s.server.registry ∧ e ≠ .handled cid ∧ ¬ (e = .cleanup ∧ expires clocks s cid)) ∨
        (e.connects ∧ cid = s.server.handlers.length) := by
  cases step_stepped hs with
  | connect peerIp => simp [Server.connect, Event.connects]
  | payload hserver =>
    rw [registry_step hserver]
    simp [Server.Event.connects, Event.connects]
  | @other e server hother hserver =>
    rw [registry_step hserver]
    cases e <;> first | cases hother; done | simp [Server.Event.connects, Event.connects]
  | @handled c h _ _ =>
    have hne : c = cid ↔ cid = c := eq_comm
    simp [removeClient, Event.connects, hne]
  | cleanup _ =>
    show cid ∈ ((expired clocks s).foldl removeClient s.server).registry ↔ _
    rw [cleaned_registry, expired, List.mem_filter]
    simp only [Event.connects]
    tauto
  | elapse | send | read | parsed => simp [modifyConnection, Event.connects]

/-! ## Connections over time -/

/-- What a step leaves of a connection. -/
structure Evolves (clocks : Clocks) (s : LiveServer E) (e : Event) (cid : Nat)
    (c c' : Connection) : Prop where
  ended : c'.ended = true ↔ c.ended = true ∨ e = .handled cid
  stamp : (c'.lastActivity = c.lastActivity ∧ c'.readAt = c.readAt) ∨
    (c'.lastActivity = clocks.wall.reading s.time ∧ c'.readAt = s.time)

/-- Where a connection comes from. -/
inductive Came (clocks : Clocks) (s : LiveServer E) (e : Event) (cid : Nat) (c' : Connection) : Prop
  | new : e.connects = true → cid = s.connections.length → c' = newConnection clocks s.time →
      Came clocks s e cid c'
  | old {c : Connection} : s.connections[cid]? = some c → Evolves clocks s e cid c c' →
      Came clocks s e cid c'

theorem Evolves.same {e : Event} {cid : Nat} (he : e ≠ .handled cid) (c : Connection) :
    Evolves clocks s e cid c c :=
  ⟨(or_iff_left he).symm, .inl ⟨rfl, rfl⟩⟩

theorem came_modify {e : Event} {i cid : Nat} {f : Connection → Connection} {c' : Connection}
    (hf : ∀ c, Evolves clocks s e i c (f c)) (he : ∀ cid, cid ≠ i → e ≠ .handled cid)
    (hc : (s.connections.modify i f)[cid]? = some c') : Came clocks s e cid c' := by
  rw [List.getElem?_modify] at hc
  obtain ⟨c, hold, rfl⟩ := Option.map_eq_some_iff.mp hc
  refine .old hold ?_
  split
  · next hi =>
    subst hi
    exact hf c
  · next hi => exact .same (he cid (Ne.symm hi)) c

theorem step_connection {e : Event} (hs : step pb clocks s e = some s') {cid : Nat}
    {c' : Connection} (hc : s'.connections[cid]? = some c') : Came clocks s e cid c' := by
  have hsame (he : e ≠ .handled cid) (hc : s.connections[cid]? = some c') :
      Came clocks s e cid c' := .old hc (.same he c')
  cases step_stepped hs with
  | connect peerIp =>
    rcases Nat.lt_trichotomy cid s.connections.length with hlt | heq | hgt
    · exact hsame (by simp) (by rwa [List.getElem?_append_left hlt] at hc)
    · subst heq
      rw [List.getElem?_concat_length] at hc
      exact .new rfl rfl (Option.some.inj hc).symm
    · rw [List.getElem?_eq_none (by simp; omega)] at hc
      cases hc
  | @send i data _ =>
    refine came_modify (f := arrive s.time data) ?_ (by simp) hc
    exact fun c => ⟨by simp [arrive], .inl ⟨rfl, rfl⟩⟩
  | read i =>
    refine came_modify (f := readChunk clocks s.time) ?_ (by simp) hc
    exact fun c => ⟨by simp [readChunk], .inr ⟨rfl, rfl⟩⟩
  | parsed i rest =>
    refine came_modify (f := keepBuffer rest false) ?_ (by simp) hc
    exact fun c => ⟨by simp [keepBuffer], .inl ⟨rfl, rfl⟩⟩
  | @payload i rest _ _ _ _ =>
    refine came_modify (f := keepBuffer rest true) ?_ (by simp) hc
    exact fun c => ⟨by simp [keepBuffer], .inl ⟨rfl, rfl⟩⟩
  | @handled i h _ _ =>
    refine came_modify (f := Connection.finish) ?_ ?_ hc
    · exact fun c => ⟨by simp [Connection.finish], .inl ⟨rfl, rfl⟩⟩
    · intro cid hne he
      cases he
      exact hne rfl
  | elapse | other | cleanup => exact hsame (by simp) hc

theorem step_connections_length {e : Event} (hs : step pb clocks s e = some s') :
    s'.connections.length = s.connections.length + if e.connects then 1 else 0 := by
  cases step_stepped hs with
  | connect peerIp => exact List.length_append
  | elapse | other | cleanup => rfl
  | _ => exact List.length_modify ..

/-! ## Read tasks that are done -/

/-- A read task that is done stays done. -/
theorem clientStep_done {w : World} {h h' : ClientHandler E} {e : ClientEvent}
    {f : Option (Forward E)} (hdone : h.read.done = true)
    (hs : clientStep pb w h e = some (h', f)) : h'.read.done = true := by
  cases clientStep_stepped hs with
  | payload hread _ _ =>
    rw [hread] at hdone
    cases hdone
  | resumeRead hr =>
    unfold resumeRead at hr
    split at hr
    · next hread => rw [hread] at hdone; cases hdone
    · next hread => rw [hread] at hdone; cases hdone
    · next hread => rw [hread] at hdone; cases hdone
    · cases hr
  | hangUp hg =>
    unfold hangUp at hg
    split at hg
    · next hread => rw [hread] at hdone; cases hdone
    · cases hg
  | writeNext hn =>
    unfold writeNext at hn
    split at hn
    · split at hn <;> cases hn <;> exact hdone
    · cases hn
  | resumeWrite hw =>
    unfold resumeWrite at hw
    split at hw <;> cases hw
    exact hdone
  | refresh =>
    change (refreshTurn _ _ _).read.done = true
    rw [refreshTurn_read]
    exact hdone
  | resumeRefresh hr =>
    unfold resumeRefresh at hr
    split at hr <;> cases hr
    rw [refreshTurn_read]
    exact hdone
  | tearDown ht =>
    obtain ⟨-, ht⟩ := Option.ite_none_right_eq_some.mp ht
    cases ht
    simp [hdone]

/-- The client's read task is done. -/
def ReadDone (server : TCPServer E) (cid : Nat) : Prop :=
  ∃ h, server.handlers[cid]? = some h ∧ h.read.done = true

theorem ReadDone.broadcast {server : TCPServer E} {cid : Nat} (hd : ReadDone server cid)
    (data : Bytes) : ReadDone (broadcastFromRadio server data) cid := by
  have hput (hs : List (ClientHandler E)) (c : Nat)
      (hd : ∃ h, hs[cid]? = some h ∧ h.read.done = true) :
      ∃ h, (hs.modify c (put · data))[cid]? = some h ∧ h.read.done = true := by
    obtain ⟨h, hh, hdone⟩ := hd
    rw [List.getElem?_modify, hh]
    by_cases hc : c = cid
    · exact ⟨put h data, by simp [hc], hdone⟩
    · exact ⟨h, by simp [hc], hdone⟩
  unfold ReadDone broadcastFromRadio at *
  generalize server.handlers = hs at hd
  induction server.registry generalizing hs with
  | nil => exact hd
  | cons c registry ih => exact ih _ (hput hs c hd)

theorem ReadDone.step {server server' : TCPServer E} {e : Server.Event} {cid : Nat}
    (hd : ReadDone server cid) (hs : Server.step pb server e = some server') :
    ReadDone server' cid := by
  obtain ⟨h, hh, hdone⟩ := hd
  obtain ⟨hlt, -⟩ := List.getElem?_eq_some_iff.mp hh
  cases Server.step_stepped hs with
  | connect peerIp => exact ⟨h, (List.getElem?_append_left hlt).trans hh, hdone⟩
  | @client c ce h0 h1 f hh0 hc =>
    have hset : ReadDone (setHandler server c h1) cid := by
      unfold ReadDone setHandler
      rw [List.getElem?_set]
      split
      · next hcid =>
        subst hcid
        rw [hh0] at hh
        cases hh
        exact ⟨h1, if_pos hlt, clientStep_done hdone hc⟩
      · exact ⟨h, hh, hdone⟩
    cases f with
    | none => exact hset
    | some f => exact hset.broadcast _
  | broadcast hq => exact ReadDone.broadcast ⟨h, hh, hdone⟩ _
  | _ => exact ⟨h, hh, hdone⟩

theorem ReadDone.live {e : Event} {cid : Nat} (hd : ReadDone s.server cid)
    (hs : Cleanup.step pb clocks s e = some s') : ReadDone s'.server cid := by
  obtain ⟨es, hes⟩ := step_server hs
  exact invariant (P := fun server => ReadDone server cid) (fun _ _ _ hd hs => hd.step hs) hd hes

/-! ## What a live server keeps -/

/-- The client's handler runs. -/
def Running (s : LiveServer E) (cid : Nat) : Prop :=
  ∃ c, s.connections[cid]? = some c ∧ c.ended = false

structure Sound (clocks : Clocks) (s : LiveServer E) : Prop where
  length : s.connections.length = s.server.handlers.length
  running : ∀ cid ∈ s.server.registry, Running s cid
  finished : ∀ (cid : Nat) (c : Connection), s.connections[cid]? = some c → c.ended = true →
    ReadDone s.server cid
  stamped : ∀ (cid : Nat) (c : Connection), s.connections[cid]? = some c →
    c.lastActivity = clocks.wall.reading c.readAt ∧ 0 ≤ c.readAt
  time : 0 ≤ s.time

theorem Sound.init (clocks : Clocks) (config : AppConfig) : Sound clocks (init (E := E) config) :=
  ⟨rfl, List.forall_mem_nil _, by simp [Cleanup.init], by simp [Cleanup.init], Int.le_refl 0⟩

/-- A handler runs until it ends. -/
theorem step_running {e : Event} (hs : step pb clocks s e = some s') (cid : Nat) :
    Running s' cid ↔ (Running s cid ∧ e ≠ .handled cid) ∨
      (e.connects = true ∧ cid = s.connections.length) := by
  have hlen := step_connections_length hs
  constructor
  · rintro ⟨c', hc', hended⟩
    cases step_connection hs hc' with
    | new he hcid _ => exact .inr ⟨he, hcid⟩
    | @old c hc hev =>
      have hnot := mt hev.ended.mpr (Bool.eq_false_iff.mp hended)
      rw [not_or] at hnot
      exact .inl ⟨⟨c, hc, Bool.eq_false_iff.mpr hnot.1⟩, hnot.2⟩
  · intro h
    have hlt : cid < s'.connections.length := by
      rcases h with ⟨⟨c, hc, -⟩, -⟩ | ⟨he, rfl⟩
      · obtain ⟨hlt, -⟩ := List.getElem?_eq_some_iff.mp hc
        omega
      · rw [hlen, if_pos he]
        omega
    refine ⟨_, List.getElem?_eq_getElem hlt, ?_⟩
    cases step_connection hs (List.getElem?_eq_getElem hlt) with
    | new _ _ hnew => rw [hnew]; rfl
    | @old c hc hev =>
      rcases h with ⟨⟨c0, hc0, hended⟩, he⟩ | ⟨-, hcid⟩
      · cases hc.symm.trans hc0
        refine Bool.eq_false_iff.mpr (mt hev.ended.mp ?_)
        rw [not_or]
        exact ⟨Bool.eq_false_iff.mp hended, he⟩
      · obtain ⟨hlt', -⟩ := List.getElem?_eq_some_iff.mp hc
        omega

theorem step_time {e : Event} (hs : step pb clocks s e = some s') : s.time ≤ s'.time := by
  cases step_stepped hs with
  | elapse htime => exact Int.le_add_of_nonneg_right (Int.le_of_lt htime)
  | _ => exact Int.le_refl _

theorem Sound.step {e : Event} (hi : Sound clocks s) (hs : step pb clocks s e = some s') :
    Sound clocks s' := by
  refine ⟨?_, ?_, ?_, ?_, Int.le_trans hi.time (step_time hs)⟩
  · rw [step_connections_length hs, step_handlers_length hs, hi.length]
  · intro cid hm
    rcases (step_registry hs cid).mp hm with ⟨hm, hne, -⟩ | ⟨he, hcid⟩
    · exact (step_running hs cid).mpr (.inl ⟨hi.running cid hm, hne⟩)
    · exact (step_running hs cid).mpr (.inr ⟨he, hcid.trans hi.length.symm⟩)
  · intro cid c' hc' hended
    cases step_connection hs hc' with
    | new _ _ hnew => rw [hnew] at hended; cases hended
    | old hc hev =>
      rcases hev.ended.mp hended with hended | rfl
      · exact (hi.finished cid _ hc hended).live hs
      · cases step_stepped hs with
        | handled hh hdone => exact ReadDone.live ⟨_, hh, hdone⟩ hs
  · intro cid c' hc'
    cases step_connection hs hc' with
    | new _ _ hnew =>
      rw [hnew]
      exact ⟨rfl, hi.time⟩
    | old hc hev =>
      rcases hev.stamp with ⟨hlast, hread⟩ | ⟨hlast, hread⟩
      · rw [hlast, hread]
        exact hi.stamped cid _ hc
      · rw [hlast, hread]
        exact ⟨rfl, hi.time⟩

theorem run_sound (config : AppConfig) (es : List Event)
    (hr : run (step pb clocks) (init config) es = some s) : Sound clocks s :=
  invariant (P := Sound clocks) (fun _ _ _ hi hs => hi.step hs) (.init clocks config) hr

/-! ## After a pass -/

/-- The payload that the read loop finds next in its buffer. -/
def nextPayload (c : Connection) : Option Bytes :=
  if c.parsing then (findFrame c.buffer).1 else none

/-- The packet a step hands to the router, with the client that sent it. -/
def routed (pb : Protobuf E) (s : LiveServer E) : Event → Option (Nat × MeshPacket E)
  | .parse cid => do
    let c ← s.connections[cid]?
    let h ← s.server.handlers[cid]?
    let payload ← nextPayload c
    let packet ← handedToRouter pb h payload
    some (cid, packet)
  | _ => none

/-- The client is out of the registry, its handler has ended, and in no run from here
does a packet of it reach the router. -/
structure Disconnected (pb : Protobuf E) (clocks : Clocks) (s : LiveServer E) (cid : Nat) :
    Prop where
  unregistered : cid ∉ s.server.registry
  ended : ¬ Running s cid
  unheard : ∀ es t, run (step pb clocks) s es = some t →
    ∀ e packet, routed pb t e ≠ some (cid, packet)

/-- How long the client has sent nothing. -/
def silence (s : LiveServer E) (c : Connection) : Time := s.time - c.sentAt

/-- A client that has been silent for longer than the timeout is disconnected. One that
has not, and whose handler runs, is registered. -/
structure TimedOut (pb : Protobuf E) (clocks : Clocks) (s : LiveServer E) : Prop where
  silent : ∀ (cid : Nat) (c : Connection), s.connections[cid]? = some c →
    clientTimeout < silence s c → Disconnected pb clocks s cid
  active : ∀ (cid : Nat) (c : Connection), s.connections[cid]? = some c → c.ended = false →
    silence s c ≤ clientTimeout → cid ∈ s.server.registry

/-- Every client whose handler runs has sent something within the timeout, and the time
since it was last read is within it too, with the lead of the event loop's clock added. -/
def Punctual (clocks : Clocks) (s : LiveServer E) : Prop :=
  ∀ c ∈ s.connections, c.ended = false →
    silence s c ≤ clientTimeout ∧ s.time - c.readAt + clocks.lead ≤ clientTimeout

instance (s : LiveServer E) : Decidable (Punctual clocks s) := List.decidableBAll _ _

theorem ReadDone.not_routed {cid : Nat} (hd : ReadDone s.server cid) (e : Event)
    (packet : MeshPacket E) : routed pb s e ≠ some (cid, packet) := by
  intro hrouted
  obtain ⟨h, hh, hdone⟩ := hd
  cases e with
  | parse i =>
    obtain ⟨c, -, hrouted⟩ := Option.bind_eq_some_iff.mp hrouted
    obtain ⟨h', hh', hrouted⟩ := Option.bind_eq_some_iff.mp hrouted
    obtain ⟨payload, -, hrouted⟩ := Option.bind_eq_some_iff.mp hrouted
    obtain ⟨packet', hhand, hrouted⟩ := Option.bind_eq_some_iff.mp hrouted
    cases hrouted
    cases hh.symm.trans hh'
    obtain ⟨hread, -⟩ := handedToRouter_eq_some.mp hhand
    rw [hread] at hdone
    cases hdone
  | _ => cases hrouted

/-- A handler that has ended leaves nothing of its client behind. -/
theorem Sound.disconnected (hi : Sound clocks s) {cid : Nat} {c : Connection}
    (hc : s.connections[cid]? = some c) (hended : c.ended = true) :
    Disconnected pb clocks s cid := by
  have hnot : ¬ Running s cid := by
    rintro ⟨c0, hc0, hruns⟩
    cases hc.symm.trans hc0
    rw [hended] at hruns
    cases hruns
  refine ⟨fun hm => hnot (hi.running cid hm), hnot, ?_⟩
  intro es t hr
  have hdone : ReadDone t.server cid :=
    invariant (P := fun t => ReadDone t.server cid) (fun _ _ _ hd hs => hd.live hs)
      (hi.finished cid c hc hended) hr
  exact hdone.not_routed

theorem Sound.expires_iff (hi : Sound clocks s) {cid : Nat} {c : Connection}
    (hc : s.connections[cid]? = some c) :
    expires clocks s cid = true ↔ clientTimeout < s.time - c.readAt + clocks.lead := by
  obtain ⟨hstamp, -⟩ := hi.stamped cid c hc
  rw [expires, hc, Option.any_some, decide_eq_true_eq, hstamp, clocks.reading_sub]

/-- The clients whose handlers run are registered. -/
def AllRegistered (s : LiveServer E) : Prop := ∀ cid, Running s cid → cid ∈ s.server.registry

/-- A step of a run leaves nobody out when a pass finds every client punctual. -/
theorem AllRegistered.step {e : Event} (hi : Sound clocks s) (ha : AllRegistered s)
    (hp : e = .cleanup → Punctual clocks s) (hs : step pb clocks s e = some s') :
    AllRegistered s' := by
  intro cid hruns
  refine (step_registry hs cid).mpr ?_
  rcases (step_running hs cid).mp hruns with ⟨hruns, hne⟩ | ⟨he, hcid⟩
  · refine .inl ⟨ha cid hruns, hne, ?_⟩
    rintro ⟨he, hexp⟩
    obtain ⟨c, hc, hended⟩ := hruns
    obtain ⟨-, hread⟩ := hp he c (List.mem_of_getElem? hc) hended
    exact Int.not_lt.mpr hread ((hi.expires_iff hc).mp hexp)
  · exact .inr ⟨he, hcid.trans hi.length⟩

/-- A pass over punctual clients does what the timeout says. -/
theorem timedOut_of_punctual (hi : Sound clocks s) (ha : AllRegistered s)
    (hp : Punctual clocks s) (hs : step pb clocks s .cleanup = some s') :
    TimedOut pb clocks s' := by
  have ha' : AllRegistered s' := ha.step hi (fun _ => hp) hs
  have hi' := hi.step hs
  cases step_stepped hs with
  | cleanup _ =>
    constructor
    · intro cid c hc hsilent
      refine hi'.disconnected hc ?_
      by_contra hruns
      obtain ⟨hrecent, -⟩ := hp c (List.mem_of_getElem? hc) (Bool.eq_false_iff.mpr hruns)
      exact Int.not_lt.mpr hrecent hsilent
    · intro cid c hc hended _
      exact ha' cid ⟨c, hc, hended⟩

/-- A pass after which the timeout is kept has found every client punctual. -/
theorem punctual_of_timedOut (hi : Sound clocks s) (hs : step pb clocks s .cleanup = some s')
    (ht : TimedOut pb clocks s') : Punctual clocks s := by
  intro c hm hended
  obtain ⟨cid, hc⟩ := List.mem_iff_getElem?.mp hm
  have hreg := step_registry hs cid
  cases step_stepped hs with
  | cleanup _ =>
    have hsilence : silence s c ≤ clientTimeout := by
      by_contra hsilent
      exact (ht.silent cid c hc (Int.not_le.mp hsilent)).ended ⟨c, hc, hended⟩
    refine ⟨hsilence, ?_⟩
    rcases hreg.mp (ht.active cid c hc hended hsilence) with ⟨-, -, hnot⟩ | ⟨he, -⟩
    · rw [not_and, hi.expires_iff hc] at hnot
      exact Int.not_lt.mp (hnot rfl)
    · cases he

/-- The timeout is kept after each pass of a run. -/
def TimesOut (pb : Protobuf E) (clocks : Clocks) (config : AppConfig) (es : List Event) : Prop :=
  ∀ before after s, es = before ++ .cleanup :: after →
    run (step pb clocks) (init config) (before ++ [.cleanup]) = some s → TimedOut pb clocks s

/-- **The timeout is kept in just the runs whose passes find every client punctual.** -/
theorem run_timesOut_iff (config : AppConfig) (es : List Event)
    (hr : run (step pb clocks) (init config) es = some s) :
    TimesOut pb clocks config es ↔
      Along (step pb clocks) (fun s e => e = .cleanup → Punctual clocks s) (init config) es := by
  constructor
  · intro ht
    rcases along_or_breaks (fun s e => e = .cleanup → Punctual clocks s) hr with
      halong | ⟨before, e, after, u, v, hes, -, hu, hbreak, hv, -⟩
    · exact halong
    · refine absurd ?_ hbreak
      rintro rfl
      have hrun : run (step pb clocks) (init config) (before ++ [.cleanup]) = some v :=
        run_append.mpr ⟨u, hu, run_cons.mpr ⟨v, hv, rfl⟩⟩
      exact punctual_of_timedOut (run_sound config before hu) hv (ht before after v hes hrun)
  · rintro halong before after t rfl ht
    obtain ⟨u, hu, hlast⟩ := run_append.mp ht
    obtain ⟨v, hv, hlast⟩ := run_cons.mp hlast
    cases hlast
    obtain ⟨hbefore, hpunctual, -⟩ := (along_append hu).mp halong
    have hkept : Sound clocks u ∧ AllRegistered u := by
      refine invariant_along (P := fun s => Sound clocks s ∧ AllRegistered s) ?_ ?_ hbefore hu
      · intro s e s' hi hp hs
        exact ⟨hi.1.step hs, hi.2.step hi.1 hp hs⟩
      · refine ⟨.init clocks config, ?_⟩
        rintro cid ⟨c, hc, -⟩
        cases hc
    exact timedOut_of_punctual hkept.1 hkept.2 (hpunctual rfl) hv

/-- **A lagging event loop expires nobody**: with its clock behind `time.time()` by what
the server has run, less the timeout, a pass removes no client. -/
theorem run_expires_nobody (config : AppConfig) (es : List Event)
    (hr : run (step pb clocks) (init config) es = some s)
    (hlag : s.time + clocks.lead ≤ clientTimeout) : expired clocks s = [] := by
  have hi : Sound clocks s := run_sound config es hr
  refine List.filter_eq_nil_iff.mpr ?_
  intro cid hm hexp
  obtain ⟨c, hc, -⟩ := hi.running cid hm
  obtain ⟨-, hread⟩ := hi.stamped cid c hc
  have hage : s.time - c.readAt ≤ s.time := Int.sub_le_self _ hread
  have hlate := (hi.expires_iff hc).mp hexp
  exact Int.not_lt.mpr ((Int.add_le_add_right hage _).trans hlag) hlate

/-! ## A client that is silent -/

/-- A host that has been up for a day, its `time.time()` counting from 1970. -/
def hostClocks : Clocks := ⟨⟨1750000000000000⟩, ⟨86400000000⟩⟩

/-- A client connects and is sent the node list it asks for. -/
def asksNodes : List Event :=
  [.connect "192.168.1.50", .send 0 (frame (wire.serializeToRadio (.wantConfigId 69421))),
    .read 0, .parse 0, .other (.client 0 (.resumeRead false)),
    .other (.client 0 (.resumeRead false)), .parse 0]

/-- The cleanup loop sleeps a minute before each pass. -/
def passes (minutes : Nat) : List Event :=
  (List.replicate minutes [.elapse 60000000, .cleanup]).flatten

/-- It sends nothing for seven minutes. -/
def fallsSilent : List Event := asksNodes ++ passes 7

def sendsAgain : List Event := [.send 0 (frame packetPayload), .read 0]

/-- It is still registered, its handler still runs, and its next packet reaches the
router. -/
theorem run_keeps_silent :
    ∃ s c, run (step wire hostClocks) (init {}) fallsSilent = some s ∧
      s.connections[0]? = some c ∧ clientTimeout < silence s c ∧ 0 ∈ s.server.registry ∧
      c.ended = false ∧ (∃ t, run (step wire hostClocks) s sendsAgain = some t ∧
        routed wire t (.parse 0) = some (0, somePacket)) ∧
      ¬ TimesOut wire hostClocks {} fallsSilent := by
  have hrouted : ((run (step wire hostClocks) (init {}) (fallsSilent ++ sendsAgain)).bind
      fun t => routed wire t (.parse 0)) = some (0, somePacket) := by decide +kernel
  obtain ⟨t, ht, hpacket⟩ := Option.bind_eq_some_iff.mp hrouted
  obtain ⟨s, hs, hagain⟩ := run_append.mp ht
  have hstate : ((run (step wire hostClocks) (init {}) fallsSilent).bind fun s =>
      (s.connections[0]?).map fun c =>
        (decide (clientTimeout < silence s c ∧ c.ended = false), s.server.registry)) =
      some (true, [0]) := by decide +kernel
  rw [hs, Option.bind_some] at hstate
  obtain ⟨c, hc, hstate⟩ := Option.map_eq_some_iff.mp hstate
  obtain ⟨hsilent, hregistry⟩ := Prod.mk.inj hstate
  obtain ⟨hsilent, hended⟩ := of_decide_eq_true hsilent
  have hm : 0 ∈ s.server.registry := hregistry ▸ List.mem_singleton_self 0
  refine ⟨s, c, hs, hc, hsilent, hm, hended, ⟨t, hagain, hpacket⟩, ?_⟩
  intro hkept
  have hpass := hkept (asksNodes ++ passes 6 ++ [Event.elapse 60000000]) [] s rfl hs
  exact (hpass.silent 0 c hc hsilent).unregistered hm

/-- A client that is there for nine minutes, with a heartbeat between the fourth pass and the
fifth. -/
def beats : List Event :=
  asksNodes ++ passes 4 ++ [.elapse 20000000,
    .send 0 (frame (wire.serializeToRadio .heartbeat)), .read 0, .elapse 40000000, .cleanup] ++
    passes 4

theorem run_timesOut_beats : ∃ s, run (step wire hostClocks) (init {}) beats = some s ∧
    TimesOut wire hostClocks {} beats := by
  obtain ⟨s, hs⟩ : ∃ s, run (step wire hostClocks) (init {}) beats = some s :=
    Option.isSome_iff_exists.mp (by decide +kernel)
  exact ⟨s, hs, (run_timesOut_iff {} beats hs).mpr (by decide +kernel)⟩

end Multiplextashtic.Cleanup

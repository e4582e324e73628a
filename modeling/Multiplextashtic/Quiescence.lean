import Multiplextashtic.EchoAgreement
import Multiplextashtic.Lib.Progress

/-! # Coming to rest

What the server still does when nothing more arrives: the processor tasks drain the
message queue, `process_incoming` takes the payloads it was given, the write tasks
empty their queues and the replays run to their ends. Each of these turns lowers one
measure, so that no order of them goes on for ever. -/
namespace Multiplextashtic.MessageQueue
open Run

variable {α : Type} {q q' : MessageQueue α}

/-! ## The message queue -/

/-- The turns a task has left if it finds the queue empty. -/
def Task.turns : Task α → Nat
  | .scheduled => 1
  | .sending _ => 2
  | .sleeping => 1
  | .finished => 0

/-- A message takes three turns, one of which a task has left anyway. -/
def turns (q : MessageQueue α) : Nat := 3 * q.queue.length + total Task.turns q.tasks

/-- A turn of a processor task. -/
def Event.turn : Event α → Bool
  | .start _ => true
  | .sent _ _ => true
  | .wake _ => true
  | _ => false

theorem turns_nextMessage {i : Nat} {t : Task α} (h : q.tasks[i]? = some t) (ht : t.turns = 1) :
    turns (q.nextMessage i) < turns q := by
  unfold nextMessage
  split
  · next hq =>
    have hset : _ + t.turns = total Task.turns q.tasks + 0 := total_set .finished h
    unfold finish turns
    simp only [setTask, hq, List.length_nil, Nat.lt_irrefl, if_false]
    omega
  · next raw rest hq =>
    have hset : _ + t.turns = total Task.turns q.tasks + 2 := total_set (.sending raw) h
    unfold turns
    simp only [setTask, hq, List.length_cons]
    omega

theorem turns_step {e : Event α} (he : e.turn = true) (hs : step q e = some q') :
    turns q' < turns q := by
  cases step_stepped hs with
  | enqueue | unscheduled | cancelled => cases he
  | start ht =>
    unfold start
    split
    · have hset := total_set (μ := Task.turns) .finished ht
      simp only [Task.turns] at hset
      unfold turns
      simp only [setTask]
      omega
    · exact turns_nextMessage (q := { q with processing := true }) ht rfl
  | sent ht =>
    have hset := total_set (μ := Task.turns) .sleeping ht
    simp only [Task.turns] at hset
    unfold turns
    simp only [setTask]
    omega
  | wake ht => exact turns_nextMessage ht rfl

/-- Where no task has a turn left everything has been handed over. -/
theorem handed_of_rest (ho : Ordered q) (ha : Attended q)
    (hrest : ∀ e : Event α, e.turn = true → step q e = none) :
    q.queue = [] ∧ q.handed = q.accepted := by
  have hfinished : ∀ t ∈ q.tasks, t = .finished := by
    intro t ht
    obtain ⟨i, hi⟩ := List.mem_iff_getElem?.mp ht
    cases t with
    | finished => rfl
    | scheduled =>
      have hnone := hrest (.start i) rfl
      simp only [step, hi] at hnone
      cases hnone
    | sending raw =>
      have hnone := hrest (.sent i false) rfl
      simp only [step, hi] at hnone
      cases hnone
    | sleeping =>
      have hnone := hrest (.wake i) rfl
      simp only [step, hi] at hnone
      cases hnone
  have hidle : activeTasks q.tasks = 0 := by
    refine List.countP_eq_zero.mpr ?_
    intro t ht
    rw [hfinished t ht]
    exact Bool.false_ne_true
  have hq : q.queue = [] := by
    by_contra hne
    rcases ha hne with hp | hs
    · rw [ho.flag, hp] at hidle
      cases hidle
    · cases hfinished _ hs
  refine ⟨hq, ?_⟩
  rw [ho.accepted_eq, hq, List.append_nil]

end Multiplextashtic.MessageQueue

namespace Multiplextashtic.ConfigReplay
open Multiplextashtic.Protocol Multiplextashtic.Messages Multiplextashtic.Capture

variable {E : Type} {pb : Protobuf E} {env : Env} {r : Replay} {C C' N N' A A' n k : Nat}

/-! ## Replays -/

/-- The size of what a replay may still read: at most so many channels, known nodes and
captured entries. -/
structure Within (C N A : Nat) (env : Env) : Prop where
  channels : env.cache.channels.length ≤ C
  knownNodes : env.cache.knownNodes.length ≤ N
  captured : env.capture.captured.length ≤ A

/-- The writes that can still follow the one a replay waits on. -/
def Phase.writes (C N A : Nat) : Phase → Nat
  | .configComplete => 0
  | .syntheticNode rest => rest.length + 1
  | .knownNode rest _ => rest.length + (A + 1)
  | .config rest => rest.length + (N + (A + 1))
  | .capturedChannel rest => rest.length + (A + (N + (A + 1)))
  | .channel next _ => C - next + (A + (A + (N + (A + 1))))
  | .metadata => C + (A + (A + (N + (A + 1))))
  | .ownNodeInfo => C + (A + (A + (N + (A + 1)))) + 1
  | .myInfo => C + (A + (A + (N + (A + 1)))) + 2
  | .start => C + (A + (A + (N + (A + 1)))) + 3

theorem Phase.writes_mono (hC : C' ≤ C) (hN : N' ≤ N) (hA : A' ≤ A)
    (phase : Phase) : phase.writes C' N' A' ≤ phase.writes C N A := by
  cases phase
  all_goals
    simp only [Phase.writes]
    omega

/-- A turn that writes leaves fewer than `n` writes to do. -/
def Leaves (C N A n : Nat) (turn : Turn) : Prop :=
  ∀ data r, turn = .wrote data r → r.phase.writes C N A < n

theorem Leaves.mono {turn : Turn} {m : Nat} (h : Leaves C N A m turn) (hmn : m ≤ n) :
    Leaves C N A n turn := fun data r he => Nat.lt_of_lt_of_le (h data r he) hmn

theorem leaves_raised {e : PyError} : Leaves C N A n (.raised e) := nofun

theorem leaves_sendFr {variant : FromRadioVariant E} {phase : Phase}
    (h : phase.writes C N A < n) : Leaves C N A n (sendFr pb r variant phase) := by
  unfold sendFr
  split
  · exact leaves_raised
  · intro data r' he
    cases he
    exact h

theorem leaves_sendCaptured {phase : List Entry → Phase} {done : Replay → Turn}
    (hphase : ∀ rest, (phase rest).writes C N A = rest.length + k)
    (hdone : ∀ r, Leaves C N A k (done r)) (rest : List Entry) :
    ∀ r, Leaves C N A (rest.length + k) (sendCaptured pb phase done r rest) := by
  induction rest with
  | nil =>
    intro r
    exact (hdone r).mono (Nat.le_add_left _ _)
  | cons entry rest ih =>
    intro r
    have hshorter : rest.length + k ≤ (entry :: rest).length + k := by
      rw [List.length_cons]
      omega
    unfold sendCaptured
    split
    · exact (ih r).mono hshorter
    · split
      · exact (ih { r with nextId := r.nextId + 1 }).mono hshorter
      · intro data r' he
        cases he
        show (phase rest).writes C N A < _
        rw [hphase, List.length_cons]
        omega

theorem entries_length (h : Within C N A env) (type : EntryType) :
    (env.entries type).length ≤ A :=
  (List.length_filter_le _ _).trans h.captured

theorem leaves_sendConfigComplete : Leaves C N A (n + 1) (sendConfigComplete pb r) :=
  leaves_sendFr (Nat.succ_pos n)

theorem leaves_nextSyntheticNode (rest : List Entry) :
    Leaves C N A (rest.length + 1) (nextSyntheticNode pb r rest) :=
  leaves_sendCaptured (fun _ => rfl) (fun _ => leaves_sendConfigComplete) rest r

theorem leaves_nextKnownNode (h : Within C N A env) {sent : Nat}
    (rest : List (NodeNum × Cache.CachedNode)) :
    Leaves C N A (rest.length + (A + 1)) (nextKnownNode pb env r sent rest) := by
  cases rest with
  | nil =>
    have hentries := entries_length h .nodeInfo
    rw [nextKnownNode]
    split
    · refine (leaves_nextSyntheticNode _).mono ?_
      rw [List.length_nil]
      omega
    · exact (leaves_sendConfigComplete (n := 0)).mono (by omega)
  | cons node rest =>
    refine leaves_sendFr ?_
    rw [Phase.writes, List.length_cons]
    omega

theorem leaves_sendKnownNodes (h : Within C N A env) :
    Leaves C N A (N + (A + 1)) (sendKnownNodes pb env r) := by
  have hnodes : (sortedNodes env.cache).length ≤ N := by
    refine Nat.le_trans (List.length_filter_le _ _) ?_
    rw [List.length_insertionSort]
    exact h.knownNodes
  exact (leaves_nextKnownNode h _).mono (by omega)

theorem leaves_afterConfigs (h : Within C N A env) :
    Leaves C N A (N + (A + 1)) (afterConfigs pb env r) := by
  unfold afterConfigs
  split
  · exact (leaves_sendConfigComplete (n := 0)).mono (by omega)
  · exact leaves_sendKnownNodes h

theorem leaves_nextConfig (h : Within C N A env) (rest : List Entry) :
    Leaves C N A (rest.length + (N + (A + 1))) (nextConfig pb env r rest) :=
  leaves_sendCaptured (fun _ => rfl) (fun _ => leaves_afterConfigs h) rest r

theorem leaves_sendConfigs (h : Within C N A env) :
    Leaves C N A (A + (N + (A + 1))) (sendConfigs pb env r) := by
  have hentries : env.configEntries.length ≤ A := (List.length_filter_le _ _).trans h.captured
  exact (leaves_nextConfig h _).mono (by omega)

theorem leaves_nextCapturedChannel (h : Within C N A env) (rest : List Entry) :
    Leaves C N A (rest.length + (A + (N + (A + 1)))) (nextCapturedChannel pb env r rest) :=
  leaves_sendCaptured (fun _ => rfl) (fun _ => leaves_sendConfigs h) rest r

theorem leaves_nextChannel (h : Within C N A env) (next sent : Nat) :
    Leaves C N A (C - next + (A + (A + (N + (A + 1))))) (nextChannel pb env r next sent) := by
  unfold nextChannel
  split
  · next ch hch =>
    obtain ⟨hlt, -⟩ := List.getElem?_eq_some_iff.mp hch
    have hchannels := h.channels
    refine leaves_sendFr ?_
    rw [Phase.writes]
    omega
  · have hentries := entries_length h .channel
    split
    · exact (leaves_nextCapturedChannel h _).mono (by omega)
    · exact (leaves_sendConfigs h).mono (by omega)

theorem leaves_sendMetadata : Leaves C N A (C + (A + (A + (N + (A + 1)))) + 1)
    (sendMetadata pb env r) := by
  unfold sendMetadata
  split
  · split
    · exact leaves_raised
    · exact leaves_sendFr (Nat.lt_succ_self _)
  · exact leaves_sendFr (Nat.lt_succ_self _)

theorem leaves_sendOwnNodeInfo : Leaves C N A (C + (A + (A + (N + (A + 1)))) + 2)
    (sendOwnNodeInfo pb env r) := leaves_sendFr (Nat.lt_succ_self _)

/-- **Every turn of a replay leaves less to write.** -/
theorem leaves_proceed (h : Within C N A env) (r : Replay) :
    Leaves C N A (r.phase.writes C N A) (proceed pb env r) := by
  unfold proceed
  cases r.phase with
  | start =>
    simp only [Phase.writes]
    split
    · exact leaves_sendOwnNodeInfo.mono (by omega)
    · exact leaves_sendFr (Nat.lt_succ_self _)
  | myInfo => exact leaves_sendOwnNodeInfo
  | ownNodeInfo =>
    simp only [Phase.writes]
    split
    · exact (leaves_sendKnownNodes h).mono (by omega)
    · exact leaves_sendMetadata
  | metadata => exact leaves_nextChannel h 0 0
  | channel next sent => exact leaves_nextChannel h next sent
  | capturedChannel rest => exact leaves_nextCapturedChannel h rest
  | config rest => exact leaves_nextConfig h rest
  | knownNode rest sent => exact leaves_nextKnownNode h rest
  | syntheticNode rest => exact leaves_nextSyntheticNode rest
  | configComplete => exact nofun

theorem leaves_drainRaised (h : Within C N A env) (r : Replay) (e : PyError) :
    Leaves C N A (r.phase.writes C N A) (drainRaised pb env r e) := by
  unfold drainRaised
  split
  all_goals first
    | exact leaves_proceed h r
    | exact leaves_raised

end Multiplextashtic.ConfigReplay

namespace Multiplextashtic.Client
open Multiplextashtic.Protocol Multiplextashtic.Messages Multiplextashtic.ConfigReplay Run

variable {E : Type} {pb : Protobuf E} {w : World} {h h' : ClientHandler E}
  {f : Option (Forward E)} {C C' N N' A A' : Nat}

/-! ## One connection -/

def ReadTask.turns (C N A : Nat) : ReadTask E → Nat
  | .replaying r => r.phase.writes C N A + 1
  | .sendingStatus => 1
  | .responding _ => 1
  | _ => 0

def WriteTask.turns : WriteTask → Nat
  | .draining => 1
  | _ => 0

def RefreshTask.turns (C N A : Nat) : RefreshTask → Nat
  | .replaying r => r.phase.writes C N A + 1
  | _ => 0

/-- A queued payload is taken in one turn, and drained in another. -/
def turns (C N A : Nat) (h : ClientHandler E) : Nat :=
  h.read.turns C N A + 2 * h.queue.length + h.write.turns +
    total (RefreshTask.turns C N A) h.refreshes

/-- A turn of one of the connection's tasks, without anything new from the client. -/
def ClientEvent.turn : ClientEvent → Bool
  | .resumeRead _ => true
  | .writeNext => true
  | .resumeWrite _ => true
  | .resumeRefresh _ _ => true
  | _ => false

theorem leaves_replayTurn (hw : Within C N A w.env) (r : Replay) (lost : Bool) :
    Leaves C N A (r.phase.writes C N A) (replayTurn pb w r lost) := by
  unfold replayTurn
  split
  · exact leaves_drainRaised hw r _
  · exact leaves_proceed hw { r with sent := r.sent + 1 }

theorem turns_resumeRead (hw : Within C N A w.env) {lost : Bool}
    (hs : resumeRead h pb w lost = some (h', f)) : turns C N A h' < turns C N A h := by
  unfold resumeRead at hs
  unfold turns
  split at hs
  · next r hread =>
    cases hs
    have hleaves : Leaves C N A (r.phase.writes C N A) (replayTurn pb w r lost) :=
      leaves_replayTurn hw r lost
    cases hturn : replayTurn pb w r lost with
    | wrote data r' =>
      have hless := hleaves data r' hturn
      simp only [hread, readTurn, log, ReadTask.turns]
      omega
    | returned sent =>
      simp only [hread, readTurn, ReadTask.turns]
      omega
    | raised e =>
      simp only [hread, readTurn, ReadTask.turns]
      omega
  · next hread =>
    cases hs
    simp only [hread, ReadTask.turns]
    omega
  · next forward hread =>
    split at hs
    all_goals
      cases hs
      simp only [hread, ReadTask.turns]
      omega
  · cases hs

theorem turns_writeNext (hs : writeNext h = some h') : turns C N A h' < turns C N A h := by
  unfold writeNext at hs
  unfold turns
  split at hs
  · next data rest hwrite hqueue =>
    split at hs
    all_goals
      cases hs
      simp only [hwrite, hqueue, log, WriteTask.turns, List.length_cons]
      omega
  · cases hs

theorem turns_resumeWrite {lost : Bool} (hs : resumeWrite h lost = some h') :
    turns C N A h' < turns C N A h := by
  unfold resumeWrite at hs
  unfold turns
  split at hs
  · next hwrite =>
    cases hs
    cases lost
    all_goals
      simp only [hwrite, WriteTask.turns, if_true, Bool.false_eq_true, if_false]
      omega
  · cases hs

theorem turns_resumeRefresh (hw : Within C N A w.env) {i : Nat} {lost : Bool}
    (hs : resumeRefresh h pb w i lost = some h') : turns C N A h' < turns C N A h := by
  unfold resumeRefresh at hs
  unfold turns
  split at hs
  · next r hr =>
    cases hs
    have hleaves : Leaves C N A (r.phase.writes C N A) (replayTurn pb w r lost) :=
      leaves_replayTurn hw r lost
    have hset (t : RefreshTask) := total_set (μ := RefreshTask.turns C N A) t hr
    cases hturn : replayTurn pb w r lost with
    | wrote data r' =>
      have hless := hleaves data r' hturn
      have hsum := hset (.replaying r')
      simp only [RefreshTask.turns] at hsum
      simp only [refreshTurn, log]
      omega
    | returned sent =>
      have hsum := hset .finished
      simp only [RefreshTask.turns] at hsum
      simp only [refreshTurn]
      omega
    | raised e =>
      have hsum := hset (.failed e)
      simp only [RefreshTask.turns] at hsum
      simp only [refreshTurn]
      omega
  · cases hs

theorem turns_step (hw : Within C N A w.env) {e : ClientEvent} (he : e.turn = true)
    (hs : clientStep pb w h e = some (h', f)) : turns C N A h' < turns C N A h := by
  cases clientStep_stepped hs with
  | resumeRead hr => exact turns_resumeRead hw hr
  | writeNext hn => exact turns_writeNext hn
  | resumeWrite hr => exact turns_resumeWrite hr
  | resumeRefresh hr => exact turns_resumeRefresh hw hr
  | payload | hangUp | refresh | tearDown => cases he

/-- Nothing is left to do on the connection: what is queued will never be taken, as the
write task is done. -/
structure Rests (h : ClientHandler E) : Prop where
  written : h.write.done = true ∨ h.queue = []
  read : h.read = .reading ∨ h.read.done = true
  refreshed : ∀ t ∈ h.refreshes, ∀ r, t ≠ .replaying r

theorem rests_of_rest (hrest : ∀ e : ClientEvent, e.turn = true → clientStep pb w h e = none) :
    Rests h := by
  have hread := hrest (.resumeRead false) rfl
  have hnext := hrest .writeNext rfl
  have hwrite := hrest (.resumeWrite false) rfl
  refine ⟨?_, ?_, ?_⟩
  · cases hw : h.write with
    | failed e => exact .inl rfl
    | cancelled => exact .inl rfl
    | draining => simp [clientStep, resumeWrite, hw] at hwrite
    | waiting =>
      cases hq : h.queue with
      | nil => exact .inr rfl
      | cons data rest =>
        cases hf : encodeFrame data <;> simp [clientStep, writeNext, hw, hq, hf] at hnext
  · cases hr : h.read with
    | reading => exact .inl rfl
    | finished => exact .inr rfl
    | failed e => exact .inr rfl
    | cancelled => exact .inr rfl
    | replaying r => simp [clientStep, resumeRead, hr] at hread
    | sendingStatus => simp [clientStep, resumeRead, hr] at hread
    | responding forward => simp [clientStep, resumeRead, hr] at hread
  · rintro t ht r rfl
    obtain ⟨i, hi⟩ := List.mem_iff_getElem?.mp ht
    have hrefresh := hrest (.resumeRefresh i false) rfl
    simp [clientStep, resumeRefresh, hi] at hrefresh

theorem turns_mono (hC : C' ≤ C) (hN : N' ≤ N) (hA : A' ≤ A) (h : ClientHandler E) :
    turns C' N' A' h ≤ turns C N A h := by
  have hread : h.read.turns C' N' A' ≤ h.read.turns C N A := by
    cases h.read with
    | replaying r => exact Nat.succ_le_succ (Phase.writes_mono hC hN hA r.phase)
    | _ => exact Nat.le_refl _
  have hrefreshes : total (RefreshTask.turns C' N' A') h.refreshes ≤
      total (RefreshTask.turns C N A) h.refreshes := by
    refine total_mono ?_ _
    intro t
    cases t with
    | replaying r => exact Nat.succ_le_succ (Phase.writes_mono hC hN hA r.phase)
    | _ => exact Nat.le_refl _
  unfold turns
  omega

theorem turns_put (h : ClientHandler E) (data : Bytes) :
    turns C N A (put h data) = turns C N A h + 2 := by
  simp only [turns, put, List.length_append, List.length_singleton]
  omega

/-- Between two payloads of the client nothing is forwarded. -/
theorem turn_forwards (hn : NonePending h) {e : ClientEvent} (he : e.turn = true)
    (hs : clientStep pb w h e = some (h', f)) : f = none := by
  cases clientStep_stepped hs with
  | resumeRead hr =>
    unfold resumeRead at hr
    split at hr
    · cases hr
      rfl
    · cases hr
      rfl
    · next forward hread =>
      split at hr
      · cases hr
        rfl
      · cases hr
        cases f with
        | none => rfl
        | some f => exact absurd hread (hn f)
    · cases hr
  | writeNext | resumeWrite | resumeRefresh => rfl
  | payload | hangUp | refresh | tearDown => cases he

end Multiplextashtic.Client

namespace Multiplextashtic.Cache
open Multiplextashtic.Messages

variable {E : Type} {pb : Protobuf E}

/-- One channel more at most, and one node. -/
structure Grows (cache cache' : StateCache) : Prop where
  channels : cache'.channels.length ≤ cache.channels.length + 1
  knownNodes : cache'.knownNodes.length ≤ cache.knownNodes.length + 1

theorem grows_refl (cache : StateCache) : Grows cache cache := ⟨Nat.le_succ _, Nat.le_succ _⟩

theorem grows_updateChannel (cache : StateCache) (channel : CachedChannel) :
    Grows cache (updateChannel cache channel) := by
  unfold updateChannel
  split
  · exact ⟨by simp [sortChannels], Nat.le_succ _⟩
  · exact ⟨by simp [sortChannels], Nat.le_succ _⟩

theorem grows_noteNode (cache : StateCache) (node : CachedNode) :
    Grows cache (noteNode cache node) := by
  have hknown : Grows cache (updateKnownNode cache node) := by
    unfold updateKnownNode
    split
    · exact ⟨Nat.le_succ _, by simp⟩
    · exact ⟨Nat.le_succ _, by simp⟩
  unfold noteNode
  simp only
  split
  · exact ⟨hknown.channels, hknown.knownNodes⟩
  · exact hknown

theorem grows_updateCache (cache : StateCache) (payload : Protocol.Bytes) :
    Grows cache (updateCache pb cache payload) := by
  unfold updateCache
  split
  · exact grows_refl cache
  · split
    · exact grows_noteNode cache _
    · exact grows_updateChannel cache _
    · split
      · split
        · exact grows_refl cache
        · split
          · exact grows_refl cache
          · exact grows_noteNode cache _
      · exact grows_refl cache
    · exact grows_refl cache

end Multiplextashtic.Cache

namespace Multiplextashtic.Server
open Multiplextashtic.Protocol Multiplextashtic.Messages Multiplextashtic.Config
open Multiplextashtic.Cache Multiplextashtic.ConfigReplay Multiplextashtic.Client Run

variable {E : Type} {pb : Protobuf E} {s s' : TCPServer E}

/-! ## The server -/

/-- A turn that needs nothing new from a client or from the physical node. -/
def Event.turn : Event → Bool
  | .client _ e => e.turn
  | .processIncoming => true
  | .startTask _ => true
  | .sent _ _ => true
  | .wake _ => true
  | _ => false

/-- The turns of a connection, with what the cache may still hold when all that was read
is processed. -/
def clientTurns (s : TCPServer E) : ClientHandler E → Nat :=
  Client.turns (s.cache.channels.length + s.phys.readQueue.length)
    (s.cache.knownNodes.length + s.phys.readQueue.length) s.capture.captured.length

/-- A payload of the physical node is processed in a turn, and costs every registered
client two. -/
def turns (s : TCPServer E) : Nat :=
  total (clientTurns s) s.handlers + s.phys.readQueue.length * (1 + 2 * s.registry.length) +
    s.messages.turns

theorem within_world (s : TCPServer E) :
    Within (s.cache.channels.length + s.phys.readQueue.length)
      (s.cache.knownNodes.length + s.phys.readQueue.length) s.capture.captured.length
      (world s).env :=
  ⟨Nat.le_add_right _ _, Nat.le_add_right _ _, Nat.le_refl _⟩

theorem total_broadcast {C N A : Nat} (data : Bytes) (registry : List Nat) :
    ∀ hs : List (ClientHandler E),
      total (Client.turns C N A) (registry.foldl (fun hs cid => hs.modify cid (put · data)) hs) ≤
        total (Client.turns C N A) hs + 2 * registry.length := by
  induction registry with
  | nil => intro hs; exact Nat.le_refl _
  | cons cid registry ih =>
    intro hs
    have hone := total_modify_le (μ := Client.turns C N A) (f := (put · data)) (k := 2)
      (fun h => Nat.le_of_eq (turns_put h data)) hs cid
    have hrest := ih (hs.modify cid (put · data))
    rw [List.foldl_cons, List.length_cons]
    omega

/-- A payload that is processed, whether or not it is broadcast. -/
theorem turns_processed {payload : Bytes} {rest : List Bytes} {handlers : List (ClientHandler E)}
    (hq : s.phys.readQueue = payload :: rest)
    (hh : ∀ C N A, total (Client.turns C N A) handlers ≤
      total (Client.turns C N A) s.handlers + 2 * s.registry.length) :
    turns { taken pb s payload rest with handlers } < turns s := by
  have hgrows : Grows s.cache (updateCache pb s.cache payload) := grows_updateCache s.cache payload
  have hchannels : (updateCache pb s.cache payload).channels.length + rest.length ≤
      s.cache.channels.length + (rest.length + 1) := by
    have := hgrows.channels
    omega
  have hnodes : (updateCache pb s.cache payload).knownNodes.length + rest.length ≤
      s.cache.knownNodes.length + (rest.length + 1) := by
    have := hgrows.knownNodes
    omega
  have hmono := total_mono (turns_mono hchannels hnodes (Nat.le_refl s.capture.captured.length))
    s.handlers
  have hput := hh ((updateCache pb s.cache payload).channels.length + rest.length)
    ((updateCache pb s.cache payload).knownNodes.length + rest.length) s.capture.captured.length
  simp only [turns, clientTurns, taken, hq, List.length_cons, Nat.add_mul, Nat.one_mul]
  omega

/-- A turn of a processor task. -/
theorem turns_queue {e : MessageQueue.Event Bytes} {messages : MessageQueue Bytes}
    (he : e.turn = true) (hm : MessageQueue.step s.messages e = some messages) :
    turns { s with messages } < turns s := by
  have hless := MessageQueue.turns_step he hm
  show total (clientTurns s) s.handlers +
    s.phys.readQueue.length * (1 + 2 * s.registry.length) + messages.turns < _
  unfold turns
  omega

/-- **Every turn of the server lowers its measure.** -/
theorem turns_step (hn : ∀ h ∈ s.handlers, NonePending h) {e : Event} (he : e.turn = true)
    (hs : step pb s e = some s') : turns s' < turns s := by
  cases step_stepped hs with
  | @client cid ce h h' f hh hc =>
    obtain rfl := turn_forwards (hn h (List.mem_of_getElem? hh)) he hc
    have hless : clientTurns s h' < clientTurns s h := Client.turns_step (within_world s) he hc
    have hset := total_set (μ := clientTurns s) h' hh
    show total (clientTurns s) (s.handlers.set cid h') +
      s.phys.readQueue.length * (1 + 2 * s.registry.length) + s.messages.turns < _
    unfold turns
    omega
  | dropped hq =>
    exact turns_processed hq fun C N A => Nat.le_add_right _ _
  | broadcast hq =>
    exact turns_processed hq fun C N A => total_broadcast _ s.registry s.handlers
  | startTask hm | sent hm | wake hm => exact turns_queue rfl hm
  | connect | remove | radio | cacheMyInfo | recapture => cases he

/-! ## Runs -/

/-- What the turns rely on in every state that is reached. -/
structure Running (s : TCPServer E) : Prop where
  nonePending : ∀ h ∈ s.handlers, NonePending h
  ordered : MessageQueue.Ordered s.messages
  attended : MessageQueue.Attended s.messages

theorem Running.init (config : AppConfig) : Running (init (E := E) config) :=
  ⟨List.forall_mem_nil _, ⟨rfl, Nat.zero_le _, rfl⟩, fun h => absurd rfl h⟩

/-- The server never cancels a processor task. -/
theorem messages_step {e : Event} (hs : step pb s e = some s') :
    s'.messages = s.messages ∨ ∃ qe, MessageQueue.CancelsRunning s.messages qe ∧
      MessageQueue.step s.messages qe = some s'.messages := by
  cases step_stepped hs with
  | @client cid ce h h' f hh hc =>
    cases f with
    | none => exact .inl rfl
    | some f => exact .inr ⟨.enqueue f.raw, trivial, rfl⟩
  | @startTask i messages hm => exact .inr ⟨.start i, trivial, hm⟩
  | @sent i raised messages hm => exact .inr ⟨.sent i raised, trivial, hm⟩
  | @wake i messages hm => exact .inr ⟨.wake i, trivial, hm⟩
  | connect | remove | radio | dropped | broadcast | cacheMyInfo | recapture => exact .inl rfl

theorem Running.step {e : Event} (h : Running s) (hs : step pb s e = some s') : Running s' := by
  have hpending := step_nonePending h.nonePending hs
  rcases messages_step hs with hm | ⟨qe, hqe, hm⟩
  · exact ⟨hpending, hm ▸ h.ordered, hm ▸ h.attended⟩
  · exact ⟨hpending, h.ordered.step hm, h.attended.step h.ordered hqe hm⟩

theorem running_run {config : AppConfig} {es : List Event}
    (hr : run (Server.step pb) (init config) es = some s) : Running s :=
  invariant (P := Running) (fun _ _ _ h hs => h.step hs) (Running.init config) hr

/-- A turn takes in nothing new for the physical node. -/
theorem accepted_turn (hn : ∀ h ∈ s.handlers, NonePending h) {e : Event} (he : e.turn = true)
    (hs : step pb s e = some s') : s'.messages.accepted = s.messages.accepted := by
  cases step_stepped hs with
  | client hh hc =>
    obtain rfl := turn_forwards (hn _ (List.mem_of_getElem? hh)) he hc
    rfl
  | dropped | broadcast => rfl
  | @startTask i messages hm =>
    exact MessageQueue.accepted_of_not_enqueue (e := .start i) (fun _ => nofun) hm
  | @sent i raised messages hm =>
    exact MessageQueue.accepted_of_not_enqueue (e := .sent i raised) (fun _ => nofun) hm
  | @wake i messages hm =>
    exact MessageQueue.accepted_of_not_enqueue (e := .wake i) (fun _ => nofun) hm
  | connect | remove | radio | cacheMyInfo | recapture => cases he

/-- What was read has been shown to the clients, what was accepted has been handed over, and
no connection has anything left to send or to answer. -/
structure Settled (s : TCPServer E) : Prop where
  read : s.phys.readQueue = []
  queue : s.messages.queue = []
  handed : s.messages.handed = s.messages.accepted
  clients : ∀ h ∈ s.handlers, Rests h

theorem settled_of_rest (h : Running s) (hrest : AtRest (step pb) (Event.turn · = true) s) :
    Settled s := by
  have hread : s.phys.readQueue = [] := by
    have hnone := hrest .processIncoming rfl
    simp only [step, processIncoming] at hnone
    split at hnone
    · next hq => exact hq
    · cases hnone
  have hqueue : ∀ e : MessageQueue.Event Bytes, e.turn = true →
      MessageQueue.step s.messages e = none := by
    intro e he
    cases e with
    | start i => exact Option.map_eq_none_iff.mp (hrest (.startTask i) rfl)
    | sent i raised => exact Option.map_eq_none_iff.mp (hrest (.sent i raised) rfl)
    | wake i => exact Option.map_eq_none_iff.mp (hrest (.wake i) rfl)
    | enqueue | cancel => cases he
  obtain ⟨hempty, hhanded⟩ := MessageQueue.handed_of_rest h.ordered h.attended hqueue
  refine ⟨hread, hempty, hhanded, ?_⟩
  intro h hm
  obtain ⟨cid, hcid⟩ := List.mem_iff_getElem?.mp hm
  have hnone : ∀ e : ClientEvent, e.turn = true → clientStep pb (world s) h e = none := by
    intro e he
    have hnone := hrest (.client cid e) he
    cases hc : clientStep pb (world s) h e with
    | none => rfl
    | some result => simp [step, hcid, hc] at hnone
  exact rests_of_rest hnone

/-- **Whatever order the tasks are resumed in, the server comes to rest.** From every state
that is reached, a run of turns takes no more of them than its measure says, and accepts no
message; where it can go no further everything that was read is processed, everything
that was accepted is handed over, and every connection is served. Some run gets there. -/
theorem run_rests (config : AppConfig) (es : List Event)
    (hr : run (step pb) (init config) es = some s) :
    (∀ fs t, (∀ e ∈ fs, e.turn = true) → run (step pb) s fs = some t →
      fs.length + turns t ≤ turns s ∧ t.messages.accepted = s.messages.accepted ∧
        (AtRest (step pb) (Event.turn · = true) t → Settled t)) ∧
    ∃ fs t, (∀ e ∈ fs, e.turn = true) ∧ run (step pb) s fs = some t ∧
      AtRest (step pb) (Event.turn · = true) t := by
  have hs := running_run hr
  have hstep : ∀ s e t, Running s → e.turn = true → step pb s e = some t → Running t :=
    fun s e t h _ he => h.step he
  have hturns : ∀ s e t, Running s → e.turn = true → step pb s e = some t → turns t < turns s :=
    fun s e t h he hs => turns_step h.nonePending he hs
  refine ⟨?_, comes_to_rest hstep hturns hs⟩
  intro fs t hfs ht
  refine ⟨length_add_measure hstep hturns hs hfs ht, ?_, ?_⟩
  · have hboth := invariant_along (C := fun _ e => e.turn = true)
      (P := fun t => Running t ∧ t.messages.accepted = s.messages.accepted) ?_ ⟨hs, rfl⟩
      (along_of_mem fun _ => hfs) ht
    · exact hboth.2
    · intro u e v hu he hv
      exact ⟨hu.1.step hv, (accepted_turn hu.1.nonePending he hv).trans hu.2⟩
  · intro hrest
    exact settled_of_rest (running_run (run_append.mpr ⟨s, hr, ht⟩)) hrest

set_option maxRecDepth 10000 in
/-- A packet of a client is echoed to two clients, answered and handed over. -/
theorem run_rests_sent : ∃ s fs t, run (step wire) (init {}) (configured ++ [send 3]) = some s ∧
    run (step wire) s fs = some t ∧ fs.length ≤ 8 ∧ Settled t := by
  have hturns : (run (step wire) (init {}) (configured ++ [send 3])).map turns = some 8 := by decide
  obtain ⟨s, hs, hmeasure⟩ := Option.map_eq_some_iff.mp hturns
  obtain ⟨hbound, fs, t, hfs, ht, hrest⟩ := run_rests {} _ hs
  obtain ⟨hlen, -, hsettled⟩ := hbound fs t hfs ht
  exact ⟨s, fs, t, hs, ht, by omega, hsettled hrest⟩

end Multiplextashtic.Server

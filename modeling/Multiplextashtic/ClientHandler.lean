import Multiplextashtic.ConfigReplay
import Multiplextashtic.Router

/-! # Client handlers

`client_handler.py`. A handler has a read task, a write task and any number of
running `refresh_config` calls. Each of them runs without interruption until it
waits for the writer to drain; `written` records, in the order of the calls of
`writer.write`, the payloads they frame. -/
namespace Multiplextashtic.Client
open Multiplextashtic.Protocol Multiplextashtic.Messages Multiplextashtic.Config
open Multiplextashtic.Router Multiplextashtic.ConfigReplay

/-- `time.time()` in microseconds. -/
abbrev Time := Int

def configCooldown : Time := 5000000

/-- A packet the router allowed, with the bytes for the physical node. -/
structure Forward (E : Type) where
  packet : MeshPacket E
  raw : Bytes
  deriving DecidableEq, Repr

/-- The read task, between payloads or at the wait it stands in. -/
inductive ReadTask (E : Type) where
  | reading
  | replaying (r : Replay)
  | sendingStatus
  | responding (forward : Option (Forward E))
  | finished
  | failed (e : PyError)
  | cancelled
  deriving DecidableEq, Repr

inductive WriteTask where
  | waiting
  | draining
  | failed (e : PyError)
  | cancelled
  deriving DecidableEq, Repr

inductive RefreshTask where
  | replaying (r : Replay)
  | finished
  | failed (e : PyError)
  deriving DecidableEq, Repr

/-- Who wrote a payload to the client: a replay that was asked for, the `i`-th
`refresh_config`, the write task, or an answer. -/
inductive Source where
  | request
  | refresh (i : Nat)
  | queue
  | queueStatus
  | response
  deriving DecidableEq, Repr

/-- `requested` records the nonces of the requests that were not suppressed. -/
structure ClientHandler (E : Type) where
  peerIp : String
  queue : List Bytes := []
  configSent : Bool := false
  lastConfigSentAt : Time := 0
  lastConfigId : UInt32 := 0
  read : ReadTask E := .reading
  write : WriteTask := .waiting
  refreshes : List RefreshTask := []
  written : List (Source × Bytes) := []
  requested : List UInt32 := []
  deriving DecidableEq, Repr

variable {E : Type}

/-- What a handler reads of the rest of the program. -/
structure World where
  env : Env
  myNodeNum : NodeNum

section
variable (h : ClientHandler E)

def put (data : Bytes) : ClientHandler E := { h with queue := h.queue ++ [data] }

def log (source : Source) (data : Bytes) : ClientHandler E :=
  { h with written := h.written ++ [(source, data)] }

/-! ## The read task -/

/-- A turn of `_send_initial_config` in the read task, and the line behind it. -/
def readTurn : Turn → ClientHandler E
  | .wrote data r => { log h .request data with read := .replaying r }
  | .returned _ => { h with read := .reading, configSent := true }
  | .raised e => { h with read := .failed e }

def queueStatus : QueueStatus := ⟨0, 32, 32, 0⟩

variable (pb : Protobuf E)

/-- `_send_queue_status`: what raises in it is only logged. -/
def sendQueueStatus : ClientHandler E :=
  let data := pb.serializeFromRadio ⟨0, .queueStatus queueStatus⟩
  match encodeFrame data with
  | .error _ => h
  | .ok _ => { log h .queueStatus data with read := .sendingStatus }

/-- `allowed and raw_to_forward` -/
def forwardOf (packet : MeshPacket E) (routed : Routed) : Option (Forward E) :=
  match routed.allowed, routed.rawToForward with
  | true, some raw => if raw ≠ [] then some ⟨packet, raw⟩ else none
  | _, _ => none

/-- The answer to the client goes out before the packet is forwarded. -/
def respond (packet : MeshPacket E) (routed : Routed) : ClientHandler E × Option (Forward E) :=
  match routed.clientResponse with
  | some response =>
    if response ≠ [] then
      match encodeFrame response with
      | .error e => ({ h with read := .failed e }, none)
      | .ok _ =>
        ({ log h .response response with read := .responding (forwardOf packet routed) }, none)
    else (h, forwardOf packet routed)
  | none => (h, forwardOf packet routed)

/-- A request repeated too soon. -/
def throttled (nonce : UInt32) (now : Time) : Bool :=
  h.configSent && nonce == h.lastConfigId && decide (now - h.lastConfigSentAt < configCooldown)

/-- `_handle_to_radio` up to its first wait. -/
def handleToRadio (w : World) (payload : Bytes) (now : Time) :
    ClientHandler E × Option (Forward E) :=
  match pb.parseToRadio payload with
  | none => (h, none)
  | some toRadio =>
    if toRadio.nonce ≠ 0 then
      if throttled h toRadio.nonce now then (h, none)
      else
        let h := { h with
          lastConfigId := toRadio.nonce
          lastConfigSentAt := now
          requested := h.requested ++ [toRadio.nonce] }
        (readTurn h (proceed pb w.env (Replay.new w.myNodeNum h.lastConfigId)), none)
    else match toRadio with
      | .heartbeat => (sendQueueStatus h pb, none)
      | toRadio =>
        if !h.configSent then (h, none)
        else if toRadio.disconnects then (h, none)
        else match toRadio with
          | .packet packet =>
            respond h packet (routeFromClient pb w.env.config w.myNodeNum payload h.peerIp)
          | _ => (h, none)

/-- A drain raises when the connection is lost. -/
def replayTurn (w : World) (r : Replay) (lost : Bool) : Turn :=
  if lost then drainRaised pb w.env r .connectionReset else drained pb w.env r

/-- The drain the read task waits for returns or raises. -/
def resumeRead (w : World) (lost : Bool) : Option (ClientHandler E × Option (Forward E)) :=
  match h.read with
  | .replaying r => some (readTurn h (replayTurn pb w r lost), none)
  | .sendingStatus => some ({ h with read := .reading }, none)
  | .responding forward =>
    if lost then some ({ h with read := .failed .connectionReset }, none)
    else some ({ h with read := .reading }, forward)
  | _ => none

/-! ## The write task -/

/-- `_write_loop` from `queue.get()` to the drain. -/
def writeNext : Option (ClientHandler E) :=
  match h.write, h.queue with
  | .waiting, data :: rest =>
    match encodeFrame data with
    | .error e => some { h with queue := rest, write := .failed e }
    | .ok _ => some { log h .queue data with queue := rest, write := .draining }
  | _, _ => none

def resumeWrite (lost : Bool) : Option (ClientHandler E) :=
  match h.write with
  | .draining => some { h with write := if lost then .failed .connectionReset else .waiting }
  | _ => none

/-! ## Refreshes -/

/-- A turn of the `i`-th `refresh_config`, and the line behind it. -/
def refreshTurn (i : Nat) : Turn → ClientHandler E
  | .wrote data r => { log h (.refresh i) data with refreshes := h.refreshes.set i (.replaying r) }
  | .returned _ => { h with configSent := true, refreshes := h.refreshes.set i .finished }
  | .raised e => { h with refreshes := h.refreshes.set i (.failed e) }

def refreshConfig (w : World) : ClientHandler E :=
  let r := Replay.new w.myNodeNum 0
  let h := { h with
    configSent := false
    lastConfigId := 0
    lastConfigSentAt := 0
    refreshes := h.refreshes ++ [.replaying r] }
  refreshTurn h (h.refreshes.length - 1) (proceed pb w.env r)

def resumeRefresh (w : World) (i : Nat) (lost : Bool) : Option (ClientHandler E) :=
  match h.refreshes[i]? with
  | some (.replaying r) => some (refreshTurn h i (replayTurn pb w r lost))
  | _ => none

/-! ## The end of a connection -/

def ReadTask.done : ReadTask E → Bool
  | .finished => true
  | .failed _ => true
  | .cancelled => true
  | _ => false

def WriteTask.done : WriteTask → Bool
  | .failed _ => true
  | .cancelled => true
  | _ => false

/-- The first task that is done takes the other with it. -/
def tearDown : Option (ClientHandler E) :=
  if h.read.done || h.write.done then
    some { h with
      read := if h.read.done then h.read else .cancelled
      write := if h.write.done then h.write else .cancelled }
  else none

/-- The client closes the connection, or reading from it raises. -/
def hangUp (lost : Bool) : Option (ClientHandler E) :=
  match h.read with
  | .reading => some { h with read := if lost then .failed .connectionReset else .finished }
  | _ => none

end

/-! ## Steps -/

inductive ClientEvent where
  | payload (payload : Bytes) (now : Time)
  | resumeRead (lost : Bool)
  | hangUp (lost : Bool)
  | writeNext
  | resumeWrite (lost : Bool)
  | refresh
  | resumeRefresh (i : Nat) (lost : Bool)
  | tearDown
  deriving DecidableEq, Repr

/-- A step of one connection, and the packet it forwards. A payload is what
`find_frame` delivers to a read task that is not waiting. -/
def clientStep (pb : Protobuf E) (w : World) (h : ClientHandler E) :
    ClientEvent → Option (ClientHandler E × Option (Forward E))
  | .payload payload now =>
    match h.read with
    | .reading =>
      if payload.length ≤ maxPacketSize then some (handleToRadio h pb w payload now) else none
    | _ => none
  | .resumeRead lost => resumeRead h pb w lost
  | .hangUp lost => (hangUp h lost).map (·, none)
  | .writeNext => (writeNext h).map (·, none)
  | .resumeWrite lost => (resumeWrite h lost).map (·, none)
  | .refresh => some (refreshConfig h pb w, none)
  | .resumeRefresh i lost => (resumeRefresh h pb w i lost).map (·, none)
  | .tearDown => (tearDown h).map (·, none)

variable {pb : Protobuf E} {w : World} {h h' : ClientHandler E} {f : Option (Forward E)}

/-- What a step of a connection can do. -/
inductive ClientStepped (pb : Protobuf E) (w : World) (h : ClientHandler E) :
    ClientEvent → ClientHandler E → Option (Forward E) → Prop
  | payload {payload : Bytes} {now : Time} {h' : ClientHandler E} {f : Option (Forward E)} :
      h.read = .reading → payload.length ≤ maxPacketSize →
      handleToRadio h pb w payload now = (h', f) → ClientStepped pb w h (.payload payload now) h' f
  | resumeRead {lost : Bool} {h' : ClientHandler E} {f : Option (Forward E)} :
      resumeRead h pb w lost = some (h', f) → ClientStepped pb w h (.resumeRead lost) h' f
  | hangUp {lost : Bool} {h' : ClientHandler E} :
      hangUp h lost = some h' → ClientStepped pb w h (.hangUp lost) h' none
  | writeNext {h' : ClientHandler E} :
      writeNext h = some h' → ClientStepped pb w h .writeNext h' none
  | resumeWrite {lost : Bool} {h' : ClientHandler E} :
      resumeWrite h lost = some h' → ClientStepped pb w h (.resumeWrite lost) h' none
  | refresh : ClientStepped pb w h .refresh (refreshConfig h pb w) none
  | resumeRefresh {i : Nat} {lost : Bool} {h' : ClientHandler E} :
      resumeRefresh h pb w i lost = some h' → ClientStepped pb w h (.resumeRefresh i lost) h' none
  | tearDown {h' : ClientHandler E} : tearDown h = some h' → ClientStepped pb w h .tearDown h' none

theorem clientStep_stepped {e : ClientEvent} (hs : clientStep pb w h e = some (h', f)) :
    ClientStepped pb w h e h' f := by
  have hmap {o : Option (ClientHandler E)} (hm : o.map (·, none) = some (h', f)) :
      o = some h' ∧ f = none := by
    obtain ⟨g, rfl, he⟩ := Option.map_eq_some_iff.mp hm
    cases he
    exact ⟨rfl, rfl⟩
  cases e with
  | payload payload now =>
    simp only [clientStep] at hs
    split at hs
    · next hread =>
      split at hs
      · next hlen => exact .payload hread hlen (Option.some.inj hs)
      · cases hs
    · cases hs
  | resumeRead lost => exact .resumeRead hs
  | refresh =>
    cases hs
    exact .refresh
  | hangUp lost => obtain ⟨hg, rfl⟩ := hmap hs; exact .hangUp hg
  | writeNext => obtain ⟨hg, rfl⟩ := hmap hs; exact .writeNext hg
  | resumeWrite lost => obtain ⟨hg, rfl⟩ := hmap hs; exact .resumeWrite hg
  | resumeRefresh i lost => obtain ⟨hg, rfl⟩ := hmap hs; exact .resumeRefresh hg
  | tearDown => obtain ⟨hg, rfl⟩ := hmap hs; exact .tearDown hg

/-! ## What only the write task touches -/

/-- The queue and the write task are as they were. -/
def SameWriter (h h' : ClientHandler E) : Prop := h'.queue = h.queue ∧ h'.write = h.write

theorem readTurn_writer (h : ClientHandler E) (turn : Turn) : SameWriter h (readTurn h turn) := by
  cases turn <;> exact ⟨rfl, rfl⟩

theorem refreshTurn_writer (h : ClientHandler E) (i : Nat) (turn : Turn) :
    SameWriter h (refreshTurn h i turn) := by
  cases turn <;> exact ⟨rfl, rfl⟩

theorem refreshTurn_read (h : ClientHandler E) (i : Nat) (turn : Turn) :
    (refreshTurn h i turn).read = h.read := by
  cases turn <;> rfl

theorem sendQueueStatus_writer (h : ClientHandler E) : SameWriter h (sendQueueStatus h pb) := by
  unfold sendQueueStatus
  simp only
  split <;> exact ⟨rfl, rfl⟩

theorem respond_writer (h : ClientHandler E) (packet : MeshPacket E) (routed : Routed) :
    SameWriter h (respond h packet routed).1 := by
  unfold respond
  split
  · split
    · split <;> exact ⟨rfl, rfl⟩
    · exact ⟨rfl, rfl⟩
  · exact ⟨rfl, rfl⟩

theorem handleToRadio_writer (h : ClientHandler E) (payload : Bytes) (now : Time) :
    SameWriter h (handleToRadio h pb w payload now).1 := by
  unfold handleToRadio
  split
  · exact ⟨rfl, rfl⟩
  · split
    · split
      · exact ⟨rfl, rfl⟩
      · exact readTurn_writer { h with lastConfigId := _, lastConfigSentAt := now, requested := _ } _
    · split
      · exact sendQueueStatus_writer h
      · split
        · exact ⟨rfl, rfl⟩
        · split
          · exact ⟨rfl, rfl⟩
          · split
            · exact respond_writer h _ _
            · exact ⟨rfl, rfl⟩

/-- A step of the write task, or one that leaves it alone. -/
theorem clientStep_writer {e : ClientEvent} (hs : clientStep pb w h e = some (h', f)) :
    SameWriter h h' ∨ (e = .writeNext ∧ writeNext h = some h') ∨
      (∃ lost, e = .resumeWrite lost ∧ resumeWrite h lost = some h') ∨
      (e = .tearDown ∧ tearDown h = some h') := by
  cases clientStep_stepped hs with
  | payload hread hlen hp =>
    have he : _ = h' := congrArg Prod.fst hp
    exact .inl (he ▸ handleToRadio_writer h _ _)
  | resumeRead hr =>
    unfold resumeRead at hr
    split at hr
    · cases hr; exact .inl (readTurn_writer h _)
    · cases hr; exact .inl ⟨rfl, rfl⟩
    · split at hr <;> cases hr <;> exact .inl ⟨rfl, rfl⟩
    · cases hr
  | hangUp hg =>
    unfold hangUp at hg
    split at hg <;> cases hg
    exact .inl ⟨rfl, rfl⟩
  | writeNext hn => exact .inr (.inl ⟨rfl, hn⟩)
  | resumeWrite hw => exact .inr (.inr (.inl ⟨_, rfl, hw⟩))
  | refresh => exact .inl (refreshTurn_writer _ _ _)
  | resumeRefresh hr =>
    unfold resumeRefresh at hr
    split at hr <;> cases hr
    exact .inl (refreshTurn_writer h _ _)
  | tearDown ht => exact .inr (.inr (.inr ⟨rfl, ht⟩))

end Multiplextashtic.Client

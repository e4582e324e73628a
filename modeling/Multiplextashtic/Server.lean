import Multiplextashtic.ClientHandler
import Multiplextashtic.MessageQueue

/-! # The server

`tcp_server.py` with what `main.py` wires around it: the client handlers and the
registry of those that are broadcast to, the physical node's side as far as it
decides what clients see, the cache and the capture, and the message queue. -/
namespace Multiplextashtic.Server
open Multiplextashtic.Protocol Multiplextashtic.Messages Multiplextashtic.Config
open Multiplextashtic.Cache Multiplextashtic.Capture Multiplextashtic.ConfigReplay
open Multiplextashtic.Router Multiplextashtic.Client

/-- What `PhysicalNodeManager` has learned from its stream, and the payloads it
has read that `process_incoming` has not taken yet. -/
structure PhysicalNode where
  myNodeNum : NodeNum := 0
  myInfo : Option MyNodeInfo := none
  metadata : Option DeviceMetadata := none
  readQueue : List Bytes := []
  deriving DecidableEq, Repr

/-- A client's number is its position in `handlers`; `registry` is `_clients` in
insertion order. `radioed` records what the physical node sent, `echoed` the
forwarded packets that were broadcast, `accepted` those `enqueue_raw` accepted. -/
structure TCPServer (E : Type) where
  config : AppConfig
  phys : PhysicalNode := {}
  cache : StateCache := {}
  capture : ConfigCapture := {}
  handlers : List (ClientHandler E) := []
  registry : List Nat := []
  messages : MessageQueue Bytes := {}
  radioed : List Bytes := []
  echoed : List (Nat × Forward E) := []
  accepted : List (Nat × Forward E) := []

variable {E : Type}

section
variable (pb : Protobuf E) (s : TCPServer E)

def world : World := ⟨⟨s.config, s.cache, s.capture⟩, s.phys.myNodeNum⟩

/-! ## Clients -/

def connect (peerIp : String) : TCPServer E :=
  { s with
    handlers := s.handlers ++ [{ peerIp }]
    registry := s.registry ++ [s.handlers.length] }

def removeClient (cid : Nat) : TCPServer E := { s with registry := s.registry.filter (· ≠ cid) }

/-- `put` on an unbounded queue neither waits nor raises. -/
def broadcastFromRadio (fromRadioBytes : Bytes) : TCPServer E :=
  { s with
    handlers := s.registry.foldl (fun hs cid => hs.modify cid (put · fromRadioBytes)) s.handlers }

/-- A packet without a sender is shown as sent by the own node. -/
def echoPacket (myNodeNum : NodeNum) (packet : MeshPacket E) : MeshPacket E :=
  if packet.fromNode = 0 then { packet with fromNode := myNodeNum } else packet

def echoBytes (myNodeNum : NodeNum) (packet : MeshPacket E) : Bytes :=
  pb.serializeFromRadio ⟨packet.id, .packet (echoPacket myNodeNum packet)⟩

def processLocally (cid : Nat) (f : Forward E) : TCPServer E :=
  { broadcastFromRadio s (echoBytes pb s.phys.myNodeNum f.packet) with
    echoed := s.echoed ++ [(cid, f)] }

/-- The answer of `enqueue_raw` is not looked at. -/
def enqueueRaw (cid : Nat) (f : Forward E) : TCPServer E :=
  let answer := s.messages.enqueueRaw f.raw
  { s with
    messages := answer.2
    accepted := if answer.1 then s.accepted ++ [(cid, f)] else s.accepted }

/-- The end of `_handle_to_radio` for a packet that is allowed. -/
def forwardPacket (cid : Nat) : Option (Forward E) → TCPServer E
  | some f => enqueueRaw (processLocally pb s cid f) cid f
  | none => s

def setHandler (cid : Nat) (h : ClientHandler E) : TCPServer E :=
  { s with handlers := s.handlers.set cid h }

/-! ## The physical node -/

def maybeCaptureMyInfo (phys : PhysicalNode) (payload : Bytes) : PhysicalNode :=
  match pb.parseFromRadio payload with
  | none => phys
  | some fr =>
    match fr.variant with
    | .myInfo info => { phys with myNodeNum := info.myNodeNum, myInfo := some info }
    | .metadata metadata => { phys with metadata := some metadata }
    | _ => phys

/-- The physical read loop delivers a payload. -/
def radioPayload (payload : Bytes) : TCPServer E :=
  let phys := maybeCaptureMyInfo pb s.phys payload
  { s with
    phys := { phys with readQueue := phys.readQueue ++ [payload] }
    radioed := s.radioed ++ [payload] }

/-- `_broadcast_callback`, which parses only to log. -/
def broadcastCallback (fromRadioBytes : Bytes) : TCPServer E :=
  match pb.parseFromRadio fromRadioBytes with
  | none => s
  | some _ => broadcastFromRadio s fromRadioBytes

def routeBroadcast (fromRadioBytes : Bytes) : TCPServer E :=
  match routeFromPhysical pb fromRadioBytes with
  | some result => broadcastCallback pb s result
  | none => s

/-- One payload through the two subscribed callbacks. -/
def processIncoming : Option (TCPServer E) :=
  match s.phys.readQueue with
  | [] => none
  | payload :: rest =>
    let s := { s with
      phys := { s.phys with readQueue := rest }
      cache := updateCache pb s.cache payload }
    some (routeBroadcast pb s payload)

def myInfoRecord (info : MyNodeInfo) : CachedMyInfo :=
  ⟨info.myNodeNum, info.rebootCount, some info.minAppVersion, some info.deviceId,
    some info.firmwareEdition, some info.nodedbCount⟩

/-- The handler of a (re)connect, once `my_info` has arrived. -/
def cacheMyInfo : Option (TCPServer E) :=
  s.phys.myInfo.map fun info => { s with cache := updateMyInfo s.cache (myInfoRecord info) }

/-- The handler of a (re)connect, once it has waited for the metadata. -/
def recapture (syntheticNodes : Nat) : TCPServer E :=
  { s with capture :=
      captureDefaults pb s.phys.myNodeNum syntheticNodes (s.phys.metadata.map (·.firmwareVersion)) }

end

/-! ## Steps -/

/-- A client is removed at the end of `_handle_client` or by the cleanup loop. -/
inductive Event where
  | connect (peerIp : String)
  | client (cid : Nat) (e : ClientEvent)
  | remove (cid : Nat)
  | radio (payload : Bytes)
  | processIncoming
  | cacheMyInfo
  | recapture (syntheticNodes : Nat)
  | startTask (i : Nat)
  | sent (i : Nat) (raised : Bool)
  | wake (i : Nat)
  deriving DecidableEq, Repr

/-- A step of the message queue's processor. -/
def queueStep (s : TCPServer E) (e : MessageQueue.Event Bytes) : Option (TCPServer E) :=
  (MessageQueue.step s.messages e).map fun messages => { s with messages }

def step (pb : Protobuf E) (s : TCPServer E) : Event → Option (TCPServer E)
  | .connect peerIp => some (connect s peerIp)
  | .client cid e => do
    let h ← s.handlers[cid]?
    let (h, f) ← clientStep pb (world s) h e
    return forwardPacket pb (setHandler s cid h) cid f
  | .remove cid => some (removeClient s cid)
  | .radio payload =>
    if payload.length ≤ maxPacketSize then some (radioPayload pb s payload) else none
  | .processIncoming => processIncoming pb s
  | .cacheMyInfo => cacheMyInfo s
  | .recapture syntheticNodes => some (recapture pb s syntheticNodes)
  | .startTask i => queueStep s (.start i)
  | .sent i raised => queueStep s (.sent i raised)
  | .wake i => queueStep s (.wake i)

/-- The server as `main` starts it. -/
def init (config : AppConfig) : TCPServer E := { config }

/-! ## What a step broadcasts -/

/-- The client and the packet of a step that forwards one. -/
def forwarded (pb : Protobuf E) (s : TCPServer E) : Event → Option (Nat × Forward E)
  | .client cid e => do
    let h ← s.handlers[cid]?
    let (_, f) ← clientStep pb (world s) h e
    let f ← f
    return (cid, f)
  | _ => none

/-- A step puts these bytes on the registered clients' queues. -/
inductive Broadcasts (pb : Protobuf E) (s : TCPServer E) : Event → Bytes → Prop
  | echo {e : Event} {cid : Nat} {f : Forward E} : forwarded pb s e = some (cid, f) →
      Broadcasts pb s e (echoBytes pb s.phys.myNodeNum f.packet)
  | radio {payload : Bytes} {rest : List Bytes} : s.phys.readQueue = payload :: rest →
      Broadcasts pb s .processIncoming payload

variable {pb : Protobuf E} {s s' : TCPServer E} {P : ClientHandler E → Prop} {data : Bytes}

theorem modify_forall {α : Type} {P : α → Prop} {g : α → α} (hg : ∀ a, P a → P (g a)) {l : List α}
    (h : ∀ a ∈ l, P a) (i : Nat) : ∀ a ∈ l.modify i g, P a := by
  intro a ha
  obtain ⟨j, hj⟩ := List.mem_iff_getElem?.mp ha
  rw [List.getElem?_modify] at hj
  obtain ⟨b, hb, rfl⟩ := Option.map_eq_some_iff.mp hj
  have hPb := h b (List.mem_of_getElem? hb)
  split
  · exact hg b hPb
  · exact hPb

theorem broadcast_forall (hput : ∀ h, P h → P (put h data)) (h : ∀ h ∈ s.handlers, P h) :
    ∀ h ∈ (broadcastFromRadio s data).handlers, P h := by
  unfold broadcastFromRadio
  generalize s.handlers = hs at h
  induction s.registry generalizing hs with
  | nil => exact h
  | cons cid registry ih => exact ih _ (modify_forall hput h cid)

theorem forwardPacket_forall {cid : Nat} {f : Option (Forward E)}
    (hput : ∀ g, f = some g → ∀ h, P h → P (put h (echoBytes pb s.phys.myNodeNum g.packet)))
    (h : ∀ h ∈ s.handlers, P h) : ∀ h ∈ (forwardPacket pb s cid f).handlers, P h := by
  cases f with
  | none => exact h
  | some g => exact broadcast_forall (hput g rfl) h

/-- The callback broadcasts what parses, and drops the rest. -/
theorem routeBroadcast_cases (pb : Protobuf E) (s : TCPServer E) (data : Bytes) :
    routeBroadcast pb s data = s ∨ routeBroadcast pb s data = broadcastFromRadio s data := by
  have hr : routeFromPhysical pb data = some data := by
    unfold routeFromPhysical
    split <;> rfl
  unfold routeBroadcast broadcastCallback
  simp only [hr]
  split
  · exact .inl rfl
  · exact .inr rfl

/-- The server once `process_incoming` has taken a payload and cached what is in it. -/
def taken (pb : Protobuf E) (s : TCPServer E) (payload : Bytes) (rest : List Bytes) : TCPServer E :=
  { s with phys := { s.phys with readQueue := rest }, cache := updateCache pb s.cache payload }

/-- What a step can do. -/
inductive Stepped (pb : Protobuf E) (s : TCPServer E) : Event → TCPServer E → Prop
  | connect (peerIp : String) : Stepped pb s (.connect peerIp) (connect s peerIp)
  | client {cid : Nat} {e : ClientEvent} {h h' : ClientHandler E} {f : Option (Forward E)} :
      s.handlers[cid]? = some h → clientStep pb (world s) h e = some (h', f) →
      Stepped pb s (.client cid e) (forwardPacket pb (setHandler s cid h') cid f)
  | remove (cid : Nat) : Stepped pb s (.remove cid) (removeClient s cid)
  | radio {payload : Bytes} : payload.length ≤ maxPacketSize →
      Stepped pb s (.radio payload) (radioPayload pb s payload)
  | dropped {payload : Bytes} {rest : List Bytes} : s.phys.readQueue = payload :: rest →
      Stepped pb s .processIncoming (taken pb s payload rest)
  | broadcast {payload : Bytes} {rest : List Bytes} : s.phys.readQueue = payload :: rest →
      Stepped pb s .processIncoming (broadcastFromRadio (taken pb s payload rest) payload)
  | cacheMyInfo {info : MyNodeInfo} : s.phys.myInfo = some info →
      Stepped pb s .cacheMyInfo { s with cache := updateMyInfo s.cache (myInfoRecord info) }
  | recapture (syntheticNodes : Nat) :
      Stepped pb s (.recapture syntheticNodes) (recapture pb s syntheticNodes)
  | startTask {i : Nat} {messages : MessageQueue Bytes} :
      MessageQueue.step s.messages (.start i) = some messages →
      Stepped pb s (.startTask i) { s with messages }
  | sent {i : Nat} {raised : Bool} {messages : MessageQueue Bytes} :
      MessageQueue.step s.messages (.sent i raised) = some messages →
      Stepped pb s (.sent i raised) { s with messages }
  | wake {i : Nat} {messages : MessageQueue Bytes} :
      MessageQueue.step s.messages (.wake i) = some messages →
      Stepped pb s (.wake i) { s with messages }

theorem step_stepped {e : Event} (hs : step pb s e = some s') : Stepped pb s e s' := by
  cases e with
  | connect peerIp => cases hs; exact .connect peerIp
  | client cid ce =>
    obtain ⟨h, hh, hs⟩ := Option.bind_eq_some_iff.mp hs
    obtain ⟨⟨h', f⟩, hc, hs⟩ := Option.bind_eq_some_iff.mp hs
    cases hs
    exact .client hh hc
  | remove cid => cases hs; exact .remove cid
  | radio payload =>
    simp only [step] at hs
    split at hs <;> cases hs
    next hlen => exact .radio hlen
  | processIncoming =>
    simp only [step, processIncoming] at hs
    split at hs <;> cases hs
    next payload rest hq =>
    rcases routeBroadcast_cases pb (taken pb s payload rest) payload with he | he
    · exact he ▸ .dropped hq
    · exact he ▸ .broadcast hq
  | cacheMyInfo =>
    obtain ⟨info, hinfo, rfl⟩ := Option.map_eq_some_iff.mp hs
    exact .cacheMyInfo hinfo
  | recapture syntheticNodes => cases hs; exact .recapture syntheticNodes
  | startTask i =>
    obtain ⟨messages, hm, rfl⟩ := Option.map_eq_some_iff.mp hs
    exact .startTask hm
  | sent i raised =>
    obtain ⟨messages, hm, rfl⟩ := Option.map_eq_some_iff.mp hs
    exact .sent hm
  | wake i =>
    obtain ⟨messages, hm, rfl⟩ := Option.map_eq_some_iff.mp hs
    exact .wake hm

/-- What a new client, the step of a client and every broadcast keep, a step keeps. -/
theorem step_forall_client {e : Event} (hs : step pb s e = some s') (h : ∀ h ∈ s.handlers, P h)
    (hnew : ∀ peerIp, P { peerIp })
    (hclient : ∀ cid ce h h' f, e = .client cid ce → s.handlers[cid]? = some h →
      clientStep pb (world s) h ce = some (h', f) → P h → P h')
    (hput : ∀ data, Broadcasts pb s e data → ∀ h, P h → P (put h data)) :
    ∀ h ∈ s'.handlers, P h := by
  cases step_stepped hs with
  | connect peerIp =>
    intro h' hm
    rcases List.mem_append.mp hm with hm | hm
    · exact h h' hm
    · rw [List.mem_singleton.mp hm]; exact hnew peerIp
  | @client cid ce h0 h1 f hh hc =>
    refine forwardPacket_forall ?_ ?_
    · intro g hg
      have hf : forwarded pb s (.client cid ce) = some (cid, g) := by simp [forwarded, hh, hc, hg]
      exact hput _ (.echo hf)
    · intro h' hm
      rcases List.mem_or_eq_of_mem_set hm with hm | rfl
      · exact h h' hm
      · exact hclient cid ce h0 h' f rfl hh hc (h h0 (List.mem_of_getElem? hh))
  | broadcast hq =>
    exact broadcast_forall (s := taken pb s _ _) (hput _ (.radio hq)) h
  | remove | radio | dropped | cacheMyInfo | recapture | startTask | sent | wake => exact h

/-- What a new client, the client's own steps and every broadcast keep, a step keeps. -/
theorem step_forall {e : Event} (hs : step pb s e = some s') (h : ∀ h ∈ s.handlers, P h)
    (hnew : ∀ peerIp, P { peerIp })
    (hclient : ∀ h h' ce f, clientStep pb (world s) h ce = some (h', f) → P h → P h')
    (hput : ∀ data, Broadcasts pb s e data → ∀ h, P h → P (put h data)) :
    ∀ h ∈ s'.handlers, P h :=
  step_forall_client hs h hnew (fun _ ce h h' f _ _ => hclient h h' ce f) hput

end Multiplextashtic.Server

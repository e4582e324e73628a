import Mathlib.Data.List.Nodup
import Multiplextashtic.Echo

/-! # What reaches the clients' queues

`process_incoming` takes the physical node's payloads in the order they arrived;
the callbacks decide what of them is broadcast. A broadcast, the echo of a
client's packet among them, goes on the queue of every registered client. -/
namespace Multiplextashtic.Server
open Multiplextashtic.Protocol Multiplextashtic.Messages Multiplextashtic.Config
open Multiplextashtic.Router Multiplextashtic.Client Run

variable {E : Type} {pb : Protobuf E} {s s' : TCPServer E}

/-! ## From the physical node -/

/-- The payload that arrives with a step. -/
def arrived (_ : TCPServer E) : Event → Option Bytes
  | .radio payload => some payload
  | _ => none

/-- The payload `process_incoming` takes. -/
def processed (s : TCPServer E) : Event → Option Bytes
  | .processIncoming => s.phys.readQueue.head?
  | _ => none

/-- What `_route_broadcast` hands to `broadcast_from_radio`. -/
def handedOn (pb : Protobuf E) (payload : Bytes) : Option Bytes :=
  (routeFromPhysical pb payload).bind fun result => (pb.parseFromRadio result).map fun _ => result

theorem routeBroadcast_eq (pb : Protobuf E) (s : TCPServer E) (payload : Bytes) :
    routeBroadcast pb s payload = (handedOn pb payload).elim s (broadcastFromRadio s) := by
  unfold routeBroadcast handedOn broadcastCallback
  cases routeFromPhysical pb payload with
  | none => rfl
  | some result => cases hp : pb.parseFromRadio result <;> simp [hp]

/-- What a step hands to `broadcast_from_radio` for the physical node. -/
def handed (pb : Protobuf E) (s : TCPServer E) (e : Event) : Option Bytes :=
  (processed s e).bind (handedOn pb)

theorem step_processIncoming (hs : step pb s .processIncoming = some s') :
    ∃ payload rest, s.phys.readQueue = payload :: rest ∧
      s' = (handed pb s .processIncoming).elim (taken pb s payload rest)
        (broadcastFromRadio (taken pb s payload rest)) := by
  simp only [step, processIncoming] at hs
  split at hs
  · cases hs
  · next payload rest hq =>
    refine ⟨payload, rest, hq, ?_⟩
    rw [← Option.some.inj hs]
    show routeBroadcast pb (taken pb s payload rest) payload = _
    rw [routeBroadcast_eq]
    simp [handed, processed, hq]

/-- A payload is handed on as it is, if it parses. -/
theorem handedOn_eq (pb : Protobuf E) (payload : Bytes) :
    handedOn pb payload = if (pb.parseFromRadio payload).isSome then some payload else none := by
  have hr : routeFromPhysical pb payload = some payload := by
    unfold routeFromPhysical
    split <;> rfl
  rw [handedOn, hr, Option.bind_some]
  cases pb.parseFromRadio payload <;> rfl

theorem filterMap_handedOn (pb : Protobuf E) (payloads : List Bytes) :
    payloads.filterMap (handedOn pb) =
      payloads.filter fun payload => (pb.parseFromRadio payload).isSome := by
  rw [← List.filterMap_eq_filter]
  refine List.filterMap_congr ?_
  intro payload _
  rw [handedOn_eq]
  rfl

/-- A payload that arrives is queued, and the one that is taken leaves the queue. -/
theorem readQueue_conserved {e : Event} (hs : step pb s e = some s') :
    (processed s e).toList ++ s'.phys.readQueue = s.phys.readQueue ++ (arrived s e).toList := by
  cases step_stepped hs with
  | client hh hc =>
    rw [phys_forwardPacket]
    exact (List.append_nil _).symm
  | radio hlen =>
    show (maybeCaptureMyInfo pb s.phys _).readQueue ++ _ = _
    rw [readQueue_maybeCaptureMyInfo]
    rfl
  | dropped hq | broadcast hq =>
    simp only [processed, arrived, hq, List.head?_cons, Option.toList_some, Option.toList_none]
    exact (List.append_nil _).symm
  | connect | remove | cacheMyInfo | recapture | startTask | sent | wake =>
    exact (List.append_nil _).symm

theorem radioed_recorded {e : Event} (hs : step pb s e = some s') :
    s'.radioed = s.radioed ++ (arrived s e).toList := by
  cases step_stepped hs with
  | @client cid ce h0 h1 f hh hc =>
    cases f <;> exact (List.append_nil _).symm
  | radio hlen => rfl
  | _ => exact (List.append_nil _).symm

/-- **What the physical node sends is taken once each and in order, and all of it is
broadcast in the runs in which all that is taken parses.** -/
theorem run_handed_iff (config : AppConfig) (es : List Event)
    (hr : run (step pb) (init config) es = some s) :
    outputs (step pb) processed (init config) es ++ s.phys.readQueue = s.radioed ∧
    (outputs (step pb) (handed pb) (init config) es =
        outputs (step pb) processed (init config) es ↔
      ∀ payload ∈ outputs (step pb) processed (init config) es,
        (pb.parseFromRadio payload).isSome) := by
  constructor
  · have hradioed : s.radioed = [] ++ outputs (step pb) arrived (init config) es :=
      recorded (fun s e t => radioed_recorded) hr
    have htaken : outputs (step pb) processed (init config) es ++ s.phys.readQueue =
        [] ++ outputs (step pb) arrived (init config) es :=
      conserved (P := fun _ => True) (fun _ _ _ _ _ => trivial)
        (fun s e t _ => readQueue_conserved) trivial hr
    rw [htaken, hradioed]
  · have hhanded : outputs (step pb) (handed pb) (init config) es =
        (outputs (step pb) processed (init config) es).filterMap (handedOn pb) :=
      outputs_filterMap (fun _ _ => rfl) es _
    rw [hhanded, filterMap_handedOn, List.filter_eq_self]

/-- The NodeInfo of a user whose long name is the byte FF, which is not UTF-8. -/
def notUtf8 : Bytes := [0x22, 0x05, 0x12, 0x03, 0x12, 0x01, 0xFF]

/-- It is taken, but the client on the registry is never handed it. -/
theorem run_drops_notUtf8 :
    ∃ es, (run (step wire) (init {}) es).map (fun s => s.handlers.map (·.queue)) = some [[]] ∧
      outputs (step wire) processed (init {}) es = [notUtf8] ∧
      outputs (step wire) (handed wire) (init {}) es = [] := by
  refine ⟨[.connect "192.168.1.50", .radio notUtf8, .processIncoming], ?_⟩
  decide

/-- A packet of the node's, which is sent twice below. -/
def packetBytes : Bytes := wire.serializeFromRadio ⟨7, .packet (meshPacket 3)⟩

def metadataBytes : Bytes :=
  wire.serializeFromRadio ⟨8, .metadata ⟨"2.6.4", 24, true, true, true, false, 0, 0⟩⟩

/-- Three payloads for a client that is there from the start and one that comes later. -/
def joinsLate : List Event :=
  [.connect "192.168.1.50", .radio packetBytes, .radio metadataBytes, .processIncoming,
    .connect "192.168.1.51", .radio packetBytes, .processIncoming, .processIncoming]

theorem run_handed_once :
    ∃ s, run (step wire) (init {}) joinsLate = some s ∧
      outputs (step wire) (handed wire) (init {}) joinsLate =
        [packetBytes, metadataBytes, packetBytes] ∧
      s.handlers.map (·.queue) =
        [[packetBytes, metadataBytes, packetBytes], [metadataBytes, packetBytes]] := by
  have hrun : (run (step wire) (init {}) joinsLate).map (fun s => s.handlers.map (·.queue)) =
      some [[packetBytes, metadataBytes, packetBytes], [metadataBytes, packetBytes]] := by decide
  obtain ⟨s, hs, hqueues⟩ := Option.map_eq_some_iff.mp hrun
  refine ⟨s, hs, ?_, hqueues⟩
  rw [(run_handed_iff {} joinsLate hs).2.mpr (by decide)]
  decide

/-! ## The registry -/

/-- `f"client-{n}"`, the first of them being 1. -/
def clientId (cid : Nat) : String := "client-" ++ toString (cid + 1)

theorem clientId_injective : Function.Injective clientId := by
  intro a b h
  have hrepr : Nat.repr (a + 1) = Nat.repr (b + 1) := (String.append_right_inj "client-").mp h
  have hdigits := congrArg (fun s => Nat.ofDigitChars 10 s.toList 0) hrepr
  simp only [Nat.toList_repr, Nat.ofDigitChars_ten_toDigits] at hdigits
  exact Nat.succ.inj hdigits

def Event.connects : Event → Bool
  | .connect _ => true
  | _ => false

/-- How many connections the events make. -/
def connections (es : List Event) : Nat := es.countP Event.connects

/-- Registered clients are connections, each registered once. -/
structure Registered (s : TCPServer E) : Prop where
  nodup : s.registry.Nodup
  connected : ∀ cid ∈ s.registry, cid < s.handlers.length

@[simp] theorem broadcast_length (s : TCPServer E) (data : Bytes) :
    (broadcastFromRadio s data).handlers.length = s.handlers.length := by
  unfold broadcastFromRadio
  generalize s.handlers = hs
  induction s.registry generalizing hs with
  | nil => rfl
  | cons cid registry ih => exact (ih _).trans (List.length_modify ..)

/-- What a handler has beside its queue is left alone by a broadcast. -/
theorem map_broadcast {A : Type} {f : ClientHandler E → A} (hf : ∀ h data, f (put h data) = f h)
    (s : TCPServer E) (data : Bytes) :
    (broadcastFromRadio s data).handlers.map f = s.handlers.map f := by
  unfold broadcastFromRadio
  simp only
  generalize s.handlers = hs
  induction s.registry generalizing hs with
  | nil => rfl
  | cons cid registry ih =>
    refine (ih _).trans (List.ext_getElem? ?_)
    intro i
    rw [List.getElem?_map, List.getElem?_map, List.getElem?_modify]
    cases hs[i]? with
    | none => rfl
    | some h =>
      simp only [Option.map_eq_map, Option.map_some]
      split
      · rw [hf]
      · rfl

/-- The next connection gets the next number. -/
theorem handlers_length_step {e : Event} (hs : step pb s e = some s') :
    s'.handlers.length = s.handlers.length + if e.connects then 1 else 0 := by
  cases step_stepped hs with
  | connect peerIp => exact List.length_append
  | @client cid ce h0 h1 f hh hc =>
    have hset : (setHandler s cid h1).handlers.length = s.handlers.length := List.length_set
    cases f with
    | none => exact hset
    | some f => exact (broadcast_length _ _).trans hset
  | broadcast hq => exact broadcast_length _ _
  | _ => rfl

/-- Only a connection enters the registry, and only a client's own removal leaves it. -/
theorem registry_step {e : Event} (hs : step pb s e = some s') (cid : Nat) :
    cid ∈ s'.registry ↔
      (cid ∈ s.registry ∧ e ≠ .remove cid) ∨ (e.connects ∧ cid = s.handlers.length) := by
  cases step_stepped hs with
  | connect peerIp => simp [connect, Event.connects]
  | remove c =>
    have hne : c = cid ↔ cid = c := eq_comm
    simp [removeClient, Event.connects, hne]
  | @client c ce h0 h1 f hh hc =>
    cases f <;> simp [forwardPacket, setHandler, enqueueRaw, processLocally, broadcastFromRadio,
      Event.connects]
  | _ => simp [recapture, radioPayload, taken, broadcastFromRadio, Event.connects]

theorem Registered.step {e : Event} (h : Registered s) (hs : step pb s e = some s') :
    Registered s' := by
  constructor
  · cases step_stepped hs with
    | connect peerIp =>
      refine List.nodup_append.mpr ⟨h.nodup, List.nodup_singleton _, ?_⟩
      rintro a ha b hb rfl
      rw [List.mem_singleton.mp hb] at ha
      exact Nat.lt_irrefl _ (h.connected _ ha)
    | remove cid => exact h.nodup.filter _
    | @client cid ce h0 h1 f hh hc => cases f <;> exact h.nodup
    | _ => exact h.nodup
  · intro cid hm
    rw [handlers_length_step hs]
    rcases (registry_step hs cid).mp hm with ⟨hm, -⟩ | ⟨hc, rfl⟩
    · exact Nat.lt_add_right _ (h.connected cid hm)
    · rw [if_pos hc]; exact Nat.lt_succ_self _

theorem run_handlers_length : ∀ {es : List Event} {s s' : TCPServer E},
    run (step pb) s es = some s' → s'.handlers.length = s.handlers.length + connections es
  | [], _, _, hr => by cases hr; rfl
  | e :: es, s, s', hr => by
    obtain ⟨t, ht, hr⟩ := run_cons.mp hr
    rw [run_handlers_length hr, handlers_length_step ht, connections, connections, List.countP_cons]
    omega

/-- A connection stays registered until its own removal. -/
theorem run_registry {cid : Nat} : ∀ {es : List Event} {s s' : TCPServer E},
    cid < s.handlers.length → run (step pb) s es = some s' →
      (cid ∈ s'.registry ↔ cid ∈ s.registry ∧ .remove cid ∉ es)
  | [], s, _, _, hr => by cases hr; simp
  | e :: es, s, s', hlt, hr => by
    obtain ⟨t, ht, hr⟩ := run_cons.mp hr
    have hlt' : cid < t.handlers.length := by
      rw [handlers_length_step ht]
      exact Nat.lt_add_right _ hlt
    have hne : cid ≠ s.handlers.length := Nat.ne_of_lt hlt
    rw [run_registry hlt' hr, registry_step ht, List.mem_cons, not_or, ← and_assoc]
    simp only [hne, and_false, or_false, ne_eq, eq_comm]

/-! ## The queues -/

/-- What a step hands to `broadcast_from_radio`, from the physical node or as an echo. -/
def broadcast (pb : Protobuf E) (s : TCPServer E) (e : Event) : Option Bytes :=
  (handed pb s e).or ((forwarded pb s e).map fun f => echoBytes pb s.phys.myNodeNum f.2.packet)

/-- A broadcast with the clients that are registered when it is made. -/
def broadcasts (pb : Protobuf E) (s : TCPServer E) (e : Event) : Option (List Nat × Bytes) :=
  (broadcast pb s e).map (s.registry, ·)

/-- A broadcast made while the client is registered. -/
def receivedBy (cid : Nat) (b : List Nat × Bytes) : Option Bytes :=
  if cid ∈ b.1 then some b.2 else none

def queueOf (s : TCPServer E) (cid : Nat) : List Bytes := (s.handlers[cid]?).elim [] (·.queue)

/-- What the client's write task takes from its queue. -/
def dequeued (cid : Nat) (s : TCPServer E) : Event → Option Bytes
  | .client c .writeNext =>
    if c = cid then
      (s.handlers[c]?).bind fun h => if h.write = .waiting then h.queue.head? else none
    else none
  | _ => none

theorem handlers_broadcast {registry : List Nat} (hnd : registry.Nodup) (cid : Nat)
    (data : Bytes) : ∀ hs : List (ClientHandler E),
    (registry.foldl (fun hs cid => hs.modify cid (put · data)) hs)[cid]? =
      if cid ∈ registry then hs[cid]?.map (put · data) else hs[cid]? := by
  induction registry with
  | nil => intro hs; rfl
  | cons c registry ih =>
    intro hs
    obtain ⟨hc, hnd⟩ := List.nodup_cons.mp hnd
    rw [List.foldl_cons, ih hnd, List.getElem?_modify]
    by_cases he : c = cid
    · subst he
      simp [hc]
    · simp [he, Ne.symm he]

theorem queueOf_broadcast (hreg : Registered s) (cid : Nat) (data : Bytes) :
    queueOf (broadcastFromRadio s data) cid =
      queueOf s cid ++ (receivedBy cid (s.registry, data)).toList := by
  unfold queueOf broadcastFromRadio receivedBy
  simp only [handlers_broadcast hreg.nodup cid data s.handlers]
  split
  · next hm =>
    rw [List.getElem?_eq_getElem (hreg.connected cid hm)]
    rfl
  · exact (List.append_nil _).symm

theorem queueOf_setHandler {c : Nat} {h : ClientHandler E} (hh : s.handlers[c]? = some h)
    (h' : ClientHandler E) (cid : Nat) :
    queueOf (setHandler s c h') cid = if c = cid then h'.queue else queueOf s cid := by
  obtain ⟨hlt, -⟩ := List.getElem?_eq_some_iff.mp hh
  unfold queueOf setHandler
  rw [List.getElem?_set]
  split <;> rfl

theorem writeNext_queue {h h' : ClientHandler E} (hn : writeNext h = some h') :
    ∃ data, h.write = .waiting ∧ h.queue = data :: h'.queue := by
  unfold writeNext at hn
  split at hn
  · next data rest hwait hqueue =>
    refine ⟨data, hwait, ?_⟩
    rw [hqueue]
    split at hn <;> cases hn <;> rfl
  · cases hn

/-- Only the write task takes from the queue. -/
theorem clientStep_queue {w : World} {h h' : ClientHandler E} {ce : ClientEvent}
    {f : Option (Forward E)} (hne : ce ≠ .writeNext) (hc : clientStep pb w h ce = some (h', f)) :
    h'.queue = h.queue := by
  rcases clientStep_writer hc with ⟨hq, -⟩ | ⟨he, -⟩ | ⟨lost, -, hr⟩ | ⟨-, ht⟩
  · exact hq
  · exact absurd he hne
  · unfold resumeWrite at hr
    split at hr <;> cases hr
    rfl
  · unfold tearDown at ht
    split at ht <;> cases ht
    rfl

theorem dequeued_conserved {c : Nat} {ce : ClientEvent} {h h' : ClientHandler E}
    {f : Option (Forward E)} (hh : s.handlers[c]? = some h)
    (hc : clientStep pb (world s) h ce = some (h', f)) :
    (dequeued c s (.client c ce)).toList ++ h'.queue = h.queue := by
  by_cases he : ce = .writeNext
  · subst he
    obtain ⟨g, hn, hg⟩ := Option.map_eq_some_iff.mp hc
    cases hg
    obtain ⟨data, hwait, hq⟩ := writeNext_queue hn
    simp [dequeued, hh, hwait, hq]
  · have hnone : dequeued c s (.client c ce) = none := by
      cases ce with
      | writeNext => exact absurd rfl he
      | _ => rfl
    rw [hnone, clientStep_queue he hc]
    rfl

theorem dequeued_other {c cid : Nat} (hne : c ≠ cid) (ce : ClientEvent) :
    dequeued cid s (.client c ce) = none := by
  cases ce with
  | writeNext => exact if_neg hne
  | _ => rfl

/-- What a step takes from a client's queue and what it leaves there is what was
there and what the step broadcasts to the client. -/
theorem queue_conserved (hreg : Registered s) {e : Event} (hs : step pb s e = some s') (cid : Nat) :
    (dequeued cid s e).toList ++ queueOf s' cid =
      queueOf s cid ++ ((broadcasts pb s e).bind (receivedBy cid)).toList := by
  by_cases he : e = .processIncoming
  · subst he
    obtain ⟨payload, rest, hq, rfl⟩ := step_processIncoming hs
    have hregt : Registered (taken pb s payload rest) := ⟨hreg.nodup, hreg.connected⟩
    have hb : broadcast pb s .processIncoming = handed pb s .processIncoming := by
      simp [broadcast, forwarded]
    rw [broadcasts, hb]
    cases handed pb s .processIncoming with
    | none => exact (List.append_nil _).symm
    | some data => exact queueOf_broadcast hregt cid data
  · have hhanded : handed pb s e = none := by
      cases e with
      | processIncoming => exact absurd rfl he
      | _ => rfl
    have hb : broadcast pb s e =
        (forwarded pb s e).map fun f => echoBytes pb s.phys.myNodeNum f.2.packet := by
      rw [broadcast, hhanded, Option.none_or]
    cases step_stepped hs with
    | @client c ce h0 h1 f hh hc =>
      have hforwarded : forwarded pb s (.client c ce) = f.map (c, ·) := by
        cases f <;> simp [forwarded, hh, hc]
      have hset : (dequeued cid s (.client c ce)).toList ++ queueOf (setHandler s c h1) cid =
          queueOf s cid := by
        rw [queueOf_setHandler hh]
        split
        · next heq =>
          subst heq
          rw [dequeued_conserved hh hc, queueOf, hh]
          rfl
        · next hne =>
          rw [dequeued_other hne]
          rfl
      have hregt : Registered (setHandler s c h1) :=
        ⟨hreg.nodup, fun cid hm => (List.length_set ..).symm ▸ hreg.connected cid hm⟩
      rw [broadcasts, hb, hforwarded]
      cases f with
      | none => exact hset.trans (List.append_nil _).symm
      | some f =>
        show _ ++ queueOf (broadcastFromRadio (setHandler s c h1) _) cid = _
        rw [queueOf_broadcast hregt, ← List.append_assoc, hset]
        rfl
    | connect peerIp =>
      refine Eq.trans ?_ (List.append_nil _).symm
      show ((s.handlers ++ [_])[cid]?).elim [] _ = (s.handlers[cid]?).elim [] _
      rw [List.getElem?_append]
      split
      · rfl
      · next hlt =>
        rw [List.getElem?_eq_none (Nat.le_of_not_lt hlt), List.getElem?_singleton]
        split <;> rfl
    | dropped hq | broadcast hq => exact absurd rfl he
    | remove | radio | cacheMyInfo | recapture | startTask | sent | wake =>
      exact (List.append_nil _).symm

/-- The broadcasts both clients are registered for. -/
def shared (a b : Nat) (log : List (List Nat × Bytes)) : List Bytes :=
  (log.filter fun entry => b ∈ entry.1).filterMap (receivedBy a)

theorem shared_comm (a b : Nat) (log : List (List Nat × Bytes)) :
    shared a b log = shared b a log := by
  unfold shared
  rw [List.filterMap_filter, List.filterMap_filter]
  refine List.filterMap_congr ?_
  intro entry _
  by_cases ha : a ∈ entry.1 <;> by_cases hb : b ∈ entry.1 <;> simp [receivedBy, ha, hb]

theorem shared_sublist (a b : Nat) (log : List (List Nat × Bytes)) :
    (shared a b log).Sublist (log.filterMap (receivedBy a)) :=
  (List.filter_sublist).filterMap _

/-- **A client's queue is given the broadcasts made while the client is registered**,
in the order they are made: what has left the queue and what is in it is just that.
A connection gets a new number and keeps its registration until its own removal. -/
theorem run_broadcasts (config : AppConfig) (es : List Event)
    (hr : run (step pb) (init config) es = some s) :
    (∀ cid, outputs (step pb) (dequeued cid) (init config) es ++ queueOf s cid =
      (outputs (step pb) (broadcasts pb) (init config) es).filterMap (receivedBy cid)) ∧
    (∀ a b,
      (shared a b (outputs (step pb) (broadcasts pb) (init config) es)).Sublist
        (outputs (step pb) (dequeued a) (init config) es ++ queueOf s a) ∧
      (shared a b (outputs (step pb) (broadcasts pb) (init config) es)).Sublist
        (outputs (step pb) (dequeued b) (init config) es ++ queueOf s b)) ∧
    (s.registry.map clientId).Nodup ∧
    ∀ before peerIp after, es = before ++ .connect peerIp :: after →
      (connections before ∈ s.registry ↔ .remove (connections before) ∉ after) := by
  have hinit : Registered (init config : TCPServer E) := ⟨List.nodup_nil, List.forall_mem_nil _⟩
  have hqueue (cid : Nat) : outputs (step pb) (dequeued cid) (init config) es ++ queueOf s cid =
      (outputs (step pb) (broadcasts pb) (init config) es).filterMap (receivedBy cid) := by
    have hreceived : outputs (step pb) (fun s e => (broadcasts pb s e).bind (receivedBy cid))
        (init config) es =
          (outputs (step pb) (broadcasts pb) (init config) es).filterMap (receivedBy cid) :=
      outputs_filterMap (fun _ _ => rfl) es _
    have hkept : outputs (step pb) (dequeued cid) (init config) es ++ queueOf s cid =
        queueOf (init config : TCPServer E) cid ++
          outputs (step pb) (fun s e => (broadcasts pb s e).bind (receivedBy cid))
            (init config) es :=
      conserved (fun s e t hreg => hreg.step)
        (fun s e t hreg hs => queue_conserved hreg hs cid) hinit hr
    rw [hkept, hreceived]
    rfl
  refine ⟨hqueue, ?_, ?_, ?_⟩
  · intro a b
    rw [hqueue, hqueue]
    exact ⟨shared_sublist a b _, shared_comm a b _ ▸ shared_sublist b a _⟩
  · have hreg : Registered s := invariant (fun s e t hreg => hreg.step) hinit hr
    exact hreg.nodup.map clientId_injective
  · rintro before peerIp after rfl
    obtain ⟨t, ht, hr⟩ := run_append.mp hr
    obtain ⟨u, hu, hr⟩ := run_cons.mp hr
    have hlen : t.handlers.length = connections before := by
      rw [run_handlers_length ht]
      exact Nat.zero_add _
    have hlt : connections before < u.handlers.length := by
      rw [handlers_length_step hu, hlen]
      exact Nat.lt_succ_self _
    have hmem : connections before ∈ u.registry :=
      (registry_step hu _).mpr (.inr ⟨rfl, hlen.symm⟩)
    rw [run_registry hlt hr]
    exact and_iff_right hmem

/-- An echo and a packet of the node's go to both clients. Then the first is removed, and
the next echo of its own goes to the other alone. -/
def leavesBehind : List Event :=
  [send 3, .radio packetBytes, .processIncoming, .client 1 .writeNext, .remove 0, send 5,
    .connect "192.168.1.50"]

set_option maxRecDepth 10000 in
theorem run_broadcasts_echo :
    ∃ s, run (step wire) (init {}) (configured ++ leavesBehind) = some s ∧
      shared 0 1 (outputs (step wire) (broadcasts wire) (init {}) (configured ++ leavesBehind)) =
        [echoBytes wire 0x11 (meshPacket 3), packetBytes] ∧
      outputs (step wire) (dequeued 0) (init {}) (configured ++ leavesBehind) ++ queueOf s 0 =
        [echoBytes wire 0x11 (meshPacket 3), packetBytes] ∧
      outputs (step wire) (dequeued 1) (init {}) (configured ++ leavesBehind) ++ queueOf s 1 =
        [echoBytes wire 0x11 (meshPacket 3), packetBytes, echoBytes wire 0x11 (meshPacket 5)] ∧
      0 ∉ s.registry := by
  obtain ⟨s, hs⟩ : ∃ s, run (step wire) (init {}) (configured ++ leavesBehind) = some s :=
    Option.isSome_iff_exists.mp (by decide)
  obtain ⟨hqueue, -, -, hregistered⟩ := run_broadcasts {} _ hs
  refine ⟨s, hs, by decide, ?_, ?_, ?_⟩
  · rw [hqueue]
    decide
  · rw [hqueue]
    decide
  · intro hmem
    have hstays := (hregistered (configured.take 6) "192.168.1.50" _ rfl).mp hmem
    exact hstays (by decide)

end Multiplextashtic.Server

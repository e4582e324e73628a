import Multiplextashtic.Broadcast
import Multiplextashtic.ClientStream
import Multiplextashtic.Lib.Interleaving
import Multiplextashtic.Lib.Simulation

/-! # What a client is shown while it stays

A client that is not removed is given every broadcast from its connection on. What
the physical node sends and what the clients send come mixed, each in its own order,
and of what the node sends nothing is missing. -/
namespace Multiplextashtic.Server
open Multiplextashtic.Protocol Multiplextashtic.Messages Multiplextashtic.Config
open Multiplextashtic.Client Multiplextashtic.ReadLoop Extractor Run Interleaving

variable {E : Type} {pb : Protobuf E} {s t : TCPServer E} {es : List Event}

/-! ## Where a broadcast comes from -/

inductive Origin where
  | radio
  | client
  deriving DecidableEq, Repr

/-- The echo of the packet that a step forwards. -/
def echo (pb : Protobuf E) (s : TCPServer E) (e : Event) : Option Bytes :=
  (forwarded pb s e).map fun f => echoBytes pb s.phys.myNodeNum f.2.packet

def shown (pb : Protobuf E) (s : TCPServer E) (e : Event) : Option (Origin × Bytes) :=
  ((handed pb s e).map (.radio, ·)).or ((echo pb s e).map (.client, ·))

theorem broadcast_shown (s : TCPServer E) (e : Event) :
    broadcast pb s e = (shown pb s e).bind fun item => some item.2 := by
  unfold broadcast shown echo
  cases handed pb s e with
  | some data => rfl
  | none => cases forwarded pb s e <;> rfl

def itemOf (origin : Origin) (item : Origin × Bytes) : Option Bytes :=
  if item.1 = origin then some item.2 else none

theorem part_filterMap (items : List (Origin × Bytes)) (origin : Origin) :
    part items origin = items.filterMap (itemOf origin) := by
  induction items with
  | nil => rfl
  | cons item items ih =>
    obtain ⟨o, data⟩ := item
    rw [part_cons, ih]
    by_cases ho : o = origin <;> simp [itemOf, ho]

theorem handed_shown (s : TCPServer E) (e : Event) :
    handed pb s e = (shown pb s e).bind (itemOf .radio) := by
  unfold shown
  cases handed pb s e with
  | some data => rfl
  | none => cases echo pb s e <;> rfl

/-- A step that takes a payload of the physical node forwards nothing. -/
theorem echo_shown (s : TCPServer E) (e : Event) :
    echo pb s e = (shown pb s e).bind (itemOf .client) := by
  unfold shown
  cases hh : handed pb s e with
  | none => cases echo pb s e <;> rfl
  | some data =>
    cases e with
    | processIncoming => rfl
    | _ => cases hh

/-! ## What the client is written of its queue -/

/-- The payload fits in a frame. The write task fails at one that does not. -/
def fits (data : Bytes) : Bool := data.length ≤ maxPacketSize

def fromQueue (h : ClientHandler E) : List Bytes := part h.written .queue

theorem fromQueue_append {h h' : ClientHandler E} {source : Source} {data : Bytes}
    (hw : h'.written = h.written ++ [(source, data)]) :
    fromQueue h' = fromQueue h ++ if source = .queue then [data] else [] := by
  rw [fromQueue, hw, part_append, part_cons]
  rfl

theorem fromQueue_writeNext {h h' : ClientHandler E} (hn : writeNext h = some h') :
    fromQueue h' = fromQueue h ++ (h.queue.head?.filter fits).toList := by
  unfold writeNext at hn
  split at hn
  · next data rest _ hqueue =>
    rw [hqueue, List.head?_cons]
    by_cases hfits : fits data = true
    · rw [encodeFrame_ok (of_decide_eq_true hfits)] at hn
      cases hn
      rw [Option.filter_some, if_pos hfits]
      exact @fromQueue_append E h _ .queue data rfl
    · cases he : encodeFrame data with
      | ok f => exact absurd (decide_eq_true (length_of_encodeFrame he)) hfits
      | error e =>
        rw [he] at hn
        cases hn
        rw [Option.filter_some, if_neg hfits]
        exact (List.append_nil _).symm
  · cases hn

/-- What the write task takes from the queue it writes, and no other task does. -/
theorem clientStep_fromQueue {c : Nat} {ce : ClientEvent} {h h' : ClientHandler E}
    {f : Option (Forward E)} (hh : s.handlers[c]? = some h)
    (hc : clientStep pb (world s) h ce = some (h', f)) :
    fromQueue h' = fromQueue h ++ ((dequeued c s (.client c ce)).filter fits).toList := by
  have hother (hne : ce.writer h ≠ some .write) (hnone : dequeued c s (.client c ce) = none) :
      fromQueue h' = fromQueue h ++ ((dequeued c s (.client c ce)).filter fits).toList := by
    rw [hnone]
    refine Eq.trans ?_ (List.append_nil _).symm
    cases clientStep_frame hc with
    | nothing hw => rw [fromQueue, hw, fromQueue]
    | @frame source data htask _ hw =>
      rw [fromQueue_append hw, if_neg, List.append_nil]
      rintro rfl
      exact hne htask
  cases ce with
  | writeNext =>
    obtain ⟨g, hn, hg⟩ := Option.map_eq_some_iff.mp hc
    cases hg
    obtain ⟨data, hwait, -⟩ := writeNext_queue hn
    rw [fromQueue_writeNext hn]
    simp [dequeued, hh, hwait]
  | resumeWrite lost =>
    obtain ⟨g, hr, hg⟩ := Option.map_eq_some_iff.mp hc
    cases hg
    unfold resumeWrite at hr
    split at hr <;> cases hr
    exact (List.append_nil _).symm
  | payload | resumeRead | hangUp | refresh | resumeRefresh | tearDown =>
    exact hother (by simp [ClientEvent.writer]) rfl

def fromQueueOf (s : TCPServer E) (cid : Nat) : List Bytes :=
  ((s.handlers.map fromQueue)[cid]?).getD []

theorem fromQueueOf_setHandler {c : Nat} {h : ClientHandler E} (hh : s.handlers[c]? = some h)
    (h' : ClientHandler E) (cid : Nat) :
    fromQueueOf (setHandler s c h') cid = if c = cid then fromQueue h' else fromQueueOf s cid := by
  obtain ⟨hlt, -⟩ := List.getElem?_eq_some_iff.mp hh
  unfold fromQueueOf setHandler
  rw [List.map_set]
  by_cases heq : c = cid
  · subst heq
    rw [if_pos rfl, List.getElem?_set_self (by rwa [List.length_map])]
    rfl
  · rw [if_neg heq, List.getElem?_set_ne heq]

theorem step_fromQueue {e : Event} (hs : step pb s e = some t) (cid : Nat) :
    fromQueueOf t cid = fromQueueOf s cid ++ ((dequeued cid s e).filter fits).toList := by
  have hkept (data : Bytes) (u : TCPServer E) :
      fromQueueOf (broadcastFromRadio u data) cid = fromQueueOf u cid := by
    rw [fromQueueOf, map_broadcast (fun _ _ => rfl), fromQueueOf]
  cases step_stepped hs with
  | @client c ce h0 h1 f hh hc =>
    have hset : fromQueueOf (setHandler s c h1) cid =
        fromQueueOf s cid ++ ((dequeued cid s (.client c ce)).filter fits).toList := by
      rw [fromQueueOf_setHandler hh]
      split
      · next heq =>
        subst heq
        rw [clientStep_fromQueue hh hc, fromQueueOf, List.getElem?_map, hh]
        rfl
      · next hne =>
        rw [dequeued_other hne]
        exact (List.append_nil _).symm
    cases f with
    | none => exact hset
    | some f => exact (hkept _ _).trans hset
  | connect peerIp =>
    refine Eq.trans ?_ (List.append_nil _).symm
    show (((s.handlers ++ [({ peerIp } : ClientHandler E)]).map fromQueue)[cid]?).getD [] = _
    rw [List.map_append, fromQueueOf, List.getElem?_append]
    split
    · rfl
    · next hlt =>
      rw [List.getElem?_eq_none (Nat.le_of_not_lt hlt), List.map_singleton,
        List.getElem?_singleton]
      split <;> rfl
  | broadcast hq => exact (hkept _ _).trans (List.append_nil _).symm
  | _ => exact (List.append_nil _).symm

/-- **A client is written what is taken off its queue**, as long as it fits in frames. -/
theorem run_written (hr : run (step pb) s es = some t) (cid : Nat) :
    fromQueueOf t cid =
      fromQueueOf s cid ++ (outputs (step pb) (dequeued cid) s es).filter fits := by
  have hfilter (s : TCPServer E) (e : Event) : (dequeued cid s e).filter fits =
      (dequeued cid s e).bind fun data => if fits data then some data else none := by
    cases dequeued cid s e <;> rfl
  have hout : outputs (step pb) (fun s e => (dequeued cid s e).filter fits) s es =
      (outputs (step pb) (dequeued cid) s es).filterMap
        fun data => if fits data then some data else none :=
    outputs_filterMap hfilter es s
  rw [recorded (fun s e t hs => step_fromQueue hs cid) hr, hout, ← List.filterMap_eq_filter]
  rfl

/-- What a client decodes from what its writer was given. -/
theorem run_decodes (config : AppConfig) (hr : run (step pb) (init config) es = some s)
    {h : ClientHandler E} (hm : h ∈ s.handlers) :
    drain frames (output h) = (h.written.map Prod.snd, []) := by
  obtain ⟨peerIp, ces, hc⟩ := run_connections config es hr h hm
  have hfits := run_fits peerIp ces hc
  rw [output_eq hfits]
  refine drain_frames ?_
  intro data hd
  obtain ⟨x, hx, rfl⟩ := List.mem_map.mp hd
  exact hfits x hx

/-! ## A client that stays -/

/-- A registered client that is not removed receives all that is broadcast. -/
theorem run_received {cid : Nat} : ∀ {es : List Event} {s t : TCPServer E}, cid ∈ s.registry →
    .remove cid ∉ es → run (step pb) s es = some t →
      (outputs (step pb) (broadcasts pb) s es).filterMap (receivedBy cid) =
        outputs (step pb) (broadcast pb) s es
  | [], _, _, _, _, _ => rfl
  | e :: es, s, t, hreg, hstay, hr => by
    obtain ⟨u, hu, hr⟩ := run_cons.mp hr
    obtain ⟨hne, hstay⟩ := not_or.mp (mt List.mem_cons.mpr hstay)
    have hnext : cid ∈ u.registry := (registry_step hu cid).mpr (.inl ⟨hreg, fun h => hne h.symm⟩)
    have hfirst : (broadcasts pb s e).toList.filterMap (receivedBy cid) =
        (broadcast pb s e).toList := by
      unfold broadcasts receivedBy
      cases broadcast pb s e <;> simp [hreg]
    rw [outputs_cons hu, outputs_cons hu, List.filterMap_append, hfirst,
      run_received hnext hstay hr]

/-- What has been read has been taken in order, or waits. -/
theorem run_taken (hr : run (step pb) s es = some t) (hs : s.phys.readQueue = s.radioed) :
    outputs (step pb) processed s es ++ t.phys.readQueue = t.radioed := by
  have hradioed : t.radioed = s.radioed ++ outputs (step pb) arrived s es :=
    recorded (fun s e t => radioed_recorded) hr
  rw [hradioed, ← hs]
  exact conserved (P := fun _ => True) (fun _ _ _ _ _ => trivial)
    (fun s e t _ => readQueue_conserved) trivial hr

/-- What a run takes off a client's queue, and what it leaves there. -/
theorem run_queue (hreg : Registered s) (hr : run (step pb) s es = some t)
    (cid : Nat) : outputs (step pb) (dequeued cid) s es ++ queueOf t cid =
      queueOf s cid ++ (outputs (step pb) (broadcasts pb) s es).filterMap (receivedBy cid) := by
  have hreceived : outputs (step pb) (fun s e => (broadcasts pb s e).bind (receivedBy cid)) s es =
      (outputs (step pb) (broadcasts pb) s es).filterMap (receivedBy cid) :=
    outputs_filterMap (fun _ _ => rfl) es s
  rw [← hreceived]
  exact conserved (fun s e t hreg => hreg.step) (fun s e t hreg hs => queue_conserved hreg hs cid)
    hreg hr

/-- **What a client is shown from its connection on.** While it is not removed, its queue is
given what the physical node sends and what clients send, and nothing else. The former is
all that `process_incoming` had not taken when it connected, once each and in order, but
for what does not parse; the latter are the echoes of the packets forwarded since. -/
theorem run_subscribed (config : AppConfig) (before : List Event) (peerIp : String)
    (after : List Event)
    (hr : run (step pb) (init config) (before ++ .connect peerIp :: after) = some s)
    (hstay : .remove (connections before) ∉ after) :
    ∃ t, ∃ items : List (Origin × Bytes),
      run (step pb) (init config) (before ++ [.connect peerIp]) = some t ∧
      outputs (step pb) (dequeued (connections before)) t after ++
        queueOf s (connections before) = items.map Prod.snd ∧
      part items .radio ++ s.phys.readQueue.filterMap (handedOn pb) =
        (s.radioed.drop (outputs (step pb) processed (init config) before).length).filterMap
          (handedOn pb) ∧
      part items .client = outputs (step pb) (echo pb) t after := by
  rw [← List.singleton_append, ← List.append_assoc] at hr
  have hrun := hr
  obtain ⟨t, ht, hafter⟩ := run_append.mp hr
  obtain ⟨u, hu, hconnect⟩ := run_append.mp ht
  obtain ⟨t', hstep, ht'⟩ := run_cons.mp hconnect
  cases ht'
  have hlen : u.handlers.length = connections before := by
    rw [run_handlers_length hu]
    exact Nat.zero_add _
  have hregt : Registered t :=
    invariant (fun s e t hreg => hreg.step) ⟨List.nodup_nil, List.forall_mem_nil _⟩ ht
  have hreg : connections before ∈ t.registry :=
    (registry_step hstep _).mpr (.inr ⟨rfl, hlen.symm⟩)
  have hempty : queueOf t (connections before) = [] := by
    cases hstep
    simp [queueOf, connect, ← hlen]
  refine ⟨t, outputs (step pb) (shown pb) t after, ht, ?_, ?_, ?_⟩
  · rw [run_queue hregt hafter, hempty, run_received hreg hstay hafter,
      outputs_filterMap broadcast_shown]
    simp
  · have hfirst : outputs (step pb) processed (init config) (before ++ [.connect peerIp]) =
        outputs (step pb) processed (init config) before := by
      rw [outputs_append hu, outputs_cons hstep]
      exact List.append_nil _
    have hradioed : s.radioed = outputs (step pb) processed (init config) before ++
        (outputs (step pb) processed t after ++ s.phys.readQueue) := by
      rw [← run_taken hrun rfl, outputs_append ht, hfirst, List.append_assoc]
    have hhanded : part (outputs (step pb) (shown pb) t after) .radio =
        (outputs (step pb) processed t after).filterMap (handedOn pb) := by
      rw [part_filterMap, ← outputs_filterMap handed_shown]
      exact outputs_filterMap (fun _ _ => rfl) after t
    rw [hhanded, ← List.filterMap_append, hradioed, List.drop_left]
  · rw [part_filterMap, ← outputs_filterMap echo_shown]

/-- The node has told of itself before two clients come. One of them sends a packet and stays,
the other leaves. -/
example : (run (step wire) (init {}) (configured ++ [send 3, .remove 1, .radio metadataBytes,
    .processIncoming])).map (fun s => [queueOf s 0, queueOf s 1]) =
      some [[echoBytes wire 0x11 (meshPacket 3), metadataBytes],
        [echoBytes wire 0x11 (meshPacket 3)]] := by decide

end Multiplextashtic.Server

import Multiplextashtic.Components
import Multiplextashtic.Subscription

/-! # From the physical node to the clients

The read loops come one after the other, each with a buffer of its own. What all of
them deliver, in this order, is what the clients are shown. -/
namespace Multiplextashtic.PhysicalNode
open Multiplextashtic.Protocol

variable {m m' n : PhysicalNodeManager} {i : Nat} {a : Await}

/-! ## The tasks come one after the other -/

def Live (m : PhysicalNodeManager) (i : Nat) : Prop := ∃ t, m.tasks[i]? = some t ∧ t.live

/-- What is live was so before, or comes after all the tasks there were. -/
structure Spawns (m m' : PhysicalNodeManager) : Prop where
  length : m.tasks.length ≤ m'.tasks.length
  live : ∀ i, Live m' i → Live m i ∨ m.tasks.length ≤ i

theorem Spawns.trans (h : Spawns m n) (h' : Spawns n m') : Spawns m m' := by
  refine ⟨h.length.trans h'.length, ?_⟩
  intro i hlive
  rcases h'.live i hlive with hlive | hi
  · exact h.live i hlive
  · exact .inr (h.length.trans hi)

theorem spawns_same (ht : m'.tasks = m.tasks) : Spawns m m' := by
  refine ⟨Nat.le_of_eq (congrArg List.length ht.symm), ?_⟩
  rintro i ⟨t, hi, hlive⟩
  exact .inl ⟨t, ht ▸ hi, hlive⟩

theorem Spawns.after (h : Spawns n m') (ht : n.tasks = m.tasks) : Spawns m m' :=
  (spawns_same ht).trans h

theorem spawns_append {t : Task} (ht : m'.tasks = m.tasks ++ [t]) : Spawns m m' := by
  refine ⟨by rw [ht, List.length_append]; exact Nat.le_add_right _ _, ?_⟩
  rintro i ⟨u, hi, hlive⟩
  by_cases hlt : i < m.tasks.length
  · rw [ht, List.getElem?_append_left hlt] at hi
    exact .inl ⟨u, hi, hlive⟩
  · exact .inr (Nat.le_of_not_lt hlt)

theorem spawns_goto (h : Live m i ∨ a = .done) : Spawns m (goto m i a) := by
  refine ⟨Nat.le_of_eq (List.length_set ..).symm, ?_⟩
  rintro j ⟨t, hj, hlive⟩
  change (m.tasks.set i { await := a })[j]? = some t at hj
  by_cases hij : i = j
  · subst hij
    rcases h with hi | rfl
    · exact .inl hi
    · rw [List.getElem?_set] at hj
      simp only [if_true] at hj
      split at hj <;> cases hj
      exact absurd rfl hlive
  · rw [List.getElem?_set_ne hij] at hj
    exact .inl ⟨t, hj, hlive⟩

theorem spawns_endReadLoop : Spawns m (endReadLoop m i) := by
  have hdone : Spawns m (goto { m with connected := false } i .done) :=
    (spawns_goto (.inr rfl)).after rfl
  unfold endReadLoop
  simp only
  split
  · exact hdone.trans (spawns_append rfl)
  · exact hdone

theorem spawns_whileConnected (h : Live m i) : Spawns m (whileConnected m i) := by
  unfold whileConnected
  split
  · exact spawns_goto (.inl h)
  · exact spawns_endReadLoop

theorem spawns_whileDisconnected {delay : Int} (h : Live m i) :
    Spawns m (whileDisconnected m i delay) := by
  unfold whileDisconnected
  split
  · exact spawns_goto (.inl h)
  · exact spawns_goto (.inr rfl)

theorem spawns_connectReturned {delay : Int} {await : ConnectAwait} (h : Live m i) :
    Spawns m (connectReturned m i delay await) := by
  unfold connectReturned
  generalize hopened : (if await = .openConnection then { m with stream := true } else m) = opened
  have htasks : opened.tasks = m.tasks := by
    rw [← hopened]
    split <;> rfl
  have hlive : Live opened i := by
    unfold Live
    rwa [htasks]
  refine (spawns_same htasks).trans ?_
  simp only
  split
  · exact spawns_goto (.inl hlive)
  · rw [if_pos (show (finishConnect opened).connected = true from rfl)]
    exact (spawns_append rfl).trans (spawns_goto (.inr rfl))

theorem spawns_resume {outcome : Outcome} (h : Live m i) (hs : resume m i a outcome = some m') :
    Spawns m m' := by
  have hturn (c : Prop) [Decidable c] :
      Spawns m (if c then endReadLoop m i else whileConnected m i) := by
    split
    · exact spawns_endReadLoop
    · exact spawns_whileConnected h
  unfold resume at hs
  split at hs <;> cases hs
  · exact spawns_whileConnected h
  · exact spawns_whileDisconnected h
  · exact hturn _
  · exact hturn _
  · exact spawns_endReadLoop
  · exact spawns_goto (.inl h)
  · exact spawns_connectReturned h
  · exact spawns_whileDisconnected h

theorem spawns_cancel : Spawns m (cancel m i) := by
  refine ⟨Nat.le_of_eq (List.length_modify ..).symm, ?_⟩
  rintro j ⟨t, hj, hlive⟩
  rw [show (cancel m i).tasks = m.tasks.modify i _ from rfl, List.getElem?_modify] at hj
  obtain ⟨u, hu, rfl⟩ := Option.map_eq_some_iff.mp hj
  refine .inl ⟨u, hu, ?_⟩
  intro hdone
  refine hlive ?_
  split <;> exact hdone

theorem spawns_closeStream : Spawns m (closeStream m) := by
  unfold closeStream
  split <;> exact spawns_same rfl

theorem spawns_stopReconnectLoop : Spawns m (stopReconnectLoop m) := by
  unfold stopReconnectLoop
  split
  · exact spawns_closeStream
  · split
    · exact spawns_closeStream.after rfl
    · exact spawns_cancel.trans (spawns_same rfl)

theorem spawns_stopReadLoop : Spawns m (stopReadLoop m) := by
  unfold stopReadLoop
  split
  · exact spawns_stopReconnectLoop
  · split
    · exact spawns_stopReconnectLoop.after rfl
    · exact spawns_cancel.trans (spawns_same rfl)

theorem spawns_step {e : Event} (hs : step m e = some m') : Spawns m m' := by
  cases e with
  | resume i outcome =>
    obtain ⟨t, ht, hs⟩ := Option.bind_eq_some_iff.mp hs
    split at hs
    · cases hs
    · exact spawns_resume ⟨t, ht, resume_live hs⟩ hs
  | cancelledError i =>
    obtain ⟨t, ht, hs⟩ := Option.bind_eq_some_iff.mp hs
    split at hs <;> cases hs
    exact spawns_goto (.inr rfl)
  | disconnect =>
    rw [step] at hs
    split at hs <;> cases hs
    exact spawns_stopReadLoop.after rfl
  | awaited =>
    rw [step] at hs
    split at hs
    · split at hs <;> cases hs
      exact spawns_stopReconnectLoop.after rfl
    · split at hs <;> cases hs
      exact spawns_closeStream.after rfl
    · cases hs
      exact spawns_same rfl
    · cases hs

/-- A read is taken in by a task that is live. -/
theorem live_chunk {chunk : Bytes} (hs : step m (.resume i (.chunk chunk)) = some m') :
    Live m i := by
  obtain ⟨t, ht, hs⟩ := Option.bind_eq_some_iff.mp hs
  split at hs
  · cases hs
  · exact ⟨t, ht, resume_live hs⟩

end Multiplextashtic.PhysicalNode

namespace Multiplextashtic.Main
open Multiplextashtic.Protocol Multiplextashtic.Messages Multiplextashtic.Config
open Multiplextashtic.PhysicalNode (RadioLink PhysicalNodeManager PhysicalNodeConfig ConnectAwait)
open Multiplextashtic.PhysicalNode (Live Spawns)
open Multiplextashtic.Server (TCPServer)
open Multiplextashtic.ReadLoop Multiplextashtic.Client Extractor Interleaving Run

variable {E : Type} {pb : Protobuf E} {p p' : Program E} {i : Nat}

/-! ## What the read loops deliver -/

/-- What the read loops deliver, one after the other. -/
def delivered (p : Program E) : List Bytes :=
  (List.range p.link.manager.tasks.length).flatMap fun i => (readLoop [] (part p.reads i)).1

/-- Each read loop has the buffer its own reads leave, none reads any more once another is
live, and the payloads are what they deliver. -/
structure Delivers (p : Program E) : Prop where
  buffer : ∀ i, p.buffer i = (readLoop [] (part p.reads i)).2
  nonempty : ∀ x ∈ p.reads, x.2 ≠ []
  past : ∀ x ∈ p.reads, x.1 < p.link.manager.tasks.length ∧
    ∀ i, Live p.link.manager i → x.1 ≤ i
  radioed : p.server.radioed = delivered p

/-- The read loops as they were. -/
structure SameReads (p p' : Program E) : Prop where
  buffer : p'.buffer = p.buffer
  reads : p'.reads = p.reads
  radioed : p'.server.radioed = p.server.radioed

theorem Delivers.past_spawns (h : Delivers p) {manager : PhysicalNodeManager}
    (hs : Spawns p.link.manager manager) : ∀ x ∈ p.reads, x.1 < manager.tasks.length ∧
      ∀ i, Live manager i → x.1 ≤ i := by
  intro x hx
  obtain ⟨hlt, hle⟩ := h.past x hx
  refine ⟨Nat.lt_of_lt_of_le hlt hs.length, ?_⟩
  intro i hlive
  rcases hs.live i hlive with hlive | hi
  · exact hle i hlive
  · exact Nat.le_of_lt (Nat.lt_of_lt_of_le hlt hi)

theorem Delivers.keep (h : Delivers p) (hsame : SameReads p p')
    (hs : Spawns p.link.manager p'.link.manager) : Delivers p' := by
  refine ⟨?_, ?_, ?_, ?_⟩
  · rw [hsame.buffer, hsame.reads]
    exact h.buffer
  · rw [hsame.reads]
    exact h.nonempty
  · rw [hsame.reads]
    exact h.past_spawns hs
  · rw [hsame.radioed, h.radioed, delivered, delivered, hsame.reads]
    exact (flatMap_part_range (f := fun cs => (readLoop [] cs).1) rfl hs.length
      fun x hx => (h.past x hx).1).symm

theorem foldl_radioed (payloads : List Bytes) (q : Program E) :
    (payloads.foldl (radioPayload pb) q).server.radioed = q.server.radioed ++ payloads := by
  induction payloads generalizing q with
  | nil => exact (List.append_nil _).symm
  | cons payload payloads ih =>
    rw [List.foldl_cons, ih, radioPayload_server]
    simp [Server.radioPayload]

theorem radioPayload_reads (q : Program E) (payload : Bytes) :
    (radioPayload pb q payload).reads = q.reads ∧
      (radioPayload pb q payload).buffer = q.buffer := by
  unfold radioPayload
  cases capturedBy pb payload <;> exact ⟨rfl, rfl⟩

theorem foldl_kept (payloads : List Bytes) (q : Program E) :
    (payloads.foldl (radioPayload pb) q).reads = q.reads ∧
      (payloads.foldl (radioPayload pb) q).buffer = q.buffer ∧
      (payloads.foldl (radioPayload pb) q).link = q.link := by
  induction payloads generalizing q with
  | nil => exact ⟨rfl, rfl, rfl⟩
  | cons payload payloads ih =>
    obtain ⟨hr, hb, hl⟩ := ih (radioPayload pb q payload)
    exact ⟨hr.trans (radioPayload_reads q payload).1, hb.trans (radioPayload_reads q payload).2,
      hl.trans (radioPayload_link q payload)⟩

/-- A read of the loop that is live. -/
theorem Delivers.chunk (h : Delivers p) {chunk : Bytes} (hlive : Live p.link.manager i)
    (hsingle : ∀ j, Live p.link.manager j → j = i) {link : RadioLink} (hs : Spawns p.link.manager link.manager) :
    Delivers (radioChunk pb { p with link } i chunk) := by
  have hkept : Delivers { p with link } := h.keep ⟨rfl, rfl, rfl⟩ hs
  by_cases hc : chunk = []
  · rw [radioChunk, if_pos hc]
    exact hkept
  have hi : i < p.link.manager.tasks.length := by
    obtain ⟨t, ht, -⟩ := hlive
    exact (List.getElem?_eq_some_iff.mp ht).1
  have hle : ∀ x ∈ p.reads, x.1 ≤ i := fun x hx => (h.past x hx).2 i hlive
  have hreads : ∀ c ∈ part p.reads i, c ≠ [] := by
    intro c hm
    obtain ⟨x, hx, rfl⟩ := List.mem_map.mp hm
    exact h.nonempty x (List.mem_of_mem_filter hx)
  have hconcat := readLoop_concat hreads hc
  rw [radioChunk_cons hc]
  obtain ⟨hr, hb, hl⟩ : _ ∧ _ ∧ _ := foldl_kept (drain frames (p.buffer i ++ chunk)).1
    (buffered { p with link } i chunk)
  have hradioed : ((drain frames (p.buffer i ++ chunk)).1.foldl (radioPayload pb)
      (buffered { p with link } i chunk)).server.radioed =
        p.server.radioed ++ (drain frames (p.buffer i ++ chunk)).1 := foldl_radioed _ _
  generalize (drain frames (p.buffer i ++ chunk)).1.foldl (radioPayload pb)
    (buffered { p with link } i chunk) = q at hr hb hl hradioed
  have hr : q.reads = p.reads ++ [(i, chunk)] := hr
  have hb : q.buffer = Function.update p.buffer i (drain frames (p.buffer i ++ chunk)).2 := hb
  have hl : q.link = link := hl
  have hpast := h.past_spawns hs
  refine ⟨?_, ?_, ?_, ?_⟩
  · intro j
    rw [hb, hr, part_append]
    by_cases hij : i = j
    · subst hij
      simp [part_cons, hconcat, h.buffer]
    · simp [part_cons, hij, Ne.symm hij, h.buffer]
  · intro x hx
    rw [hr] at hx
    rcases List.mem_append.mp hx with hx | hx
    · exact h.nonempty x hx
    · rw [List.mem_singleton.mp hx]
      exact hc
  · intro x hx
    rw [hr] at hx
    rw [hl]
    rcases List.mem_append.mp hx with hx | hx
    · exact hpast x hx
    · rw [List.mem_singleton.mp hx]
      refine ⟨Nat.lt_of_lt_of_le hi hs.length, ?_⟩
      intro j hj
      rcases hs.live j hj with hj | hj
      · exact Nat.le_of_eq (hsingle j hj).symm
      · exact Nat.le_of_lt (Nat.lt_of_lt_of_le hi hj)
  · rw [hradioed, delivered, hr, hl]
    have hadd := flatMap_part_concat (f := fun cs => (readLoop [] cs).1) rfl hle
      (Nat.lt_of_lt_of_le hi hs.length) (congrArg Prod.fst hconcat)
    rw [hadd, ← h.buffer]
    exact congrArg (· ++ _) hkept.radioed

theorem SameReads.after {q : Program E} (h' : SameReads q p') (h : SameReads p q) :
    SameReads p p' :=
  ⟨h'.buffer.trans h.buffer, h'.reads.trans h.reads, h'.radioed.trans h.radioed⟩

theorem radioed_step {s s' : TCPServer E} {e : Server.Event} (he : ∀ payload, e ≠ .radio payload)
    (hs : Server.step pb s e = some s') : s'.radioed = s.radioed := by
  have hnone : Server.arrived s e = none := by
    cases e with
    | radio payload => exact absurd rfl (he payload)
    | _ => rfl
  rw [Server.radioed_recorded hs, hnone]
  exact List.append_nil _

theorem radioed_client {s s' : TCPServer E} {cid : Nat} {ce : ClientEvent}
    (hs : Server.step pb s (.client cid ce) = some s') : s'.radioed = s.radioed :=
  radioed_step (e := .client cid ce) (fun _ => nofun) hs

theorem radioed_refreshConfig (s : TCPServer E) (cid : Nat) :
    (refreshConfig pb s cid).radioed = s.radioed := by
  unfold refreshConfig
  cases hs : Server.step pb s (.client cid .refresh) with
  | none => rfl
  | some s' => exact radioed_client hs

theorem sameReads_refreshAllClients (cids : List Nat) :
    ∀ p : Program E, SameReads p (refreshAllClients pb i cids p) := by
  induction cids with
  | nil => exact fun _ => ⟨rfl, rfl, rfl⟩
  | cons cid rest ih =>
    intro p
    unfold refreshAllClients
    simp only
    split
    · exact ⟨rfl, rfl, radioed_refreshConfig _ _⟩
    · exact (ih _).after ⟨rfl, rfl, radioed_refreshConfig _ _⟩

theorem radioed_cacheMyInfo (p : Program E) (ok : Bool) :
    (cacheMyInfo p ok).server.radioed = p.server.radioed := by
  unfold cacheMyInfo Server.cacheMyInfo
  cases ok with
  | false => rfl
  | true => cases p.server.phys.myInfo <;> rfl

theorem linkStep_manager {l l' : RadioLink} {e : PhysicalNode.Event} {nonce : UInt32}
    (hs : PhysicalNode.linkStep pb l (.task e nonce) = some l') :
    PhysicalNode.step l.manager e = some l'.manager := by
  obtain ⟨manager, hm, hs⟩ := Option.bind_eq_some_iff.mp hs
  cases hs
  exact hm

theorem sendRawToRadio_manager (l : RadioLink) (raw : Bytes) :
    (PhysicalNode.sendRawToRadio l raw).manager = l.manager := by
  unfold PhysicalNode.sendRawToRadio
  split
  · rfl
  · split <;> rfl

theorem Delivers.step (h : Delivers p) (hloops : PhysicalNode.Loops p.link.manager) {e : Event}
    (hs : Main.step pb p e = some p') : Delivers p' := by
  cases step_stepped hs with
  | @chunk i chunk nonce link hl =>
    have hm := linkStep_manager hl
    have hlive := PhysicalNode.live_chunk hm
    refine h.chunk hlive ?_ (PhysicalNode.spawns_step hm)
    obtain ⟨t, ht, hlt⟩ := hlive
    rintro j ⟨u, hu, hlu⟩
    exact hloops.exclusive.single j i u t hu ht hlu hlt
  | connected hl hr => exact h.keep ⟨rfl, rfl, rfl⟩ (PhysicalNode.spawns_step (linkStep_manager hl))
  | link hl hd hchunk =>
    exact h.keep ⟨rfl, rfl, rfl⟩ (PhysicalNode.spawns_step (linkStep_manager hl))
  | @server e server ha hserver =>
    refine h.keep ⟨rfl, rfl, radioed_step ?_ hserver⟩ ?_
    · rintro payload rfl
      cases ha
    · show Spawns p.link.manager ((sending server e).elim p.link _).manager
      cases sending server e with
      | none => exact PhysicalNode.spawns_same rfl
      | some raw => exact PhysicalNode.spawns_same (by rw [← sendRawToRadio_manager p.link raw]; rfl)
  | starts | mainCaptures | stops => exact h.keep ⟨rfl, rfl, rfl⟩ (PhysicalNode.spawns_same rfl)
  | identifies | mainIdentifies =>
    exact h.keep ⟨rfl, rfl, radioed_cacheMyInfo p _⟩ (PhysicalNode.spawns_same rfl)
  | captures hr hw =>
    refine h.keep ?_ (PhysicalNode.spawns_same (by rw [refreshAllClients_link]; rfl))
    exact (sameReads_refreshAllClients _ (captureDefaults pb p)).after ⟨rfl, rfl, rfl⟩
  | drained hr hserver hwaits =>
    exact h.keep ⟨rfl, rfl, radioed_client hserver⟩ (PhysicalNode.spawns_same rfl)
  | @refreshed i cid n rest lost server hr hserver hover =>
    refine h.keep ?_ (PhysicalNode.spawns_same (by rw [refreshAllClients_link]))
    exact (sameReads_refreshAllClients rest { p with server }).after
      ⟨rfl, rfl, radioed_client hserver⟩
  | disconnects hm hl =>
    exact h.keep ⟨rfl, rfl, rfl⟩ (PhysicalNode.spawns_step (linkStep_manager hl))

/-! ## Runs -/

section
variable {config : AppConfig} {phys : PhysicalNodeConfig} {failed : Option ConnectAwait}
  {nonce : UInt32} {es : List Event}

theorem delivers_start : Delivers (start pb config phys failed nonce) := by
  refine ⟨?_, ?_, ?_, ?_⟩
  · intro i
    rw [start_buffer, start_reads]
    rfl
  · rw [start_reads]
    exact List.forall_mem_nil _
  · rw [start_reads]
    exact List.forall_mem_nil _
  · rw [start_server, delivered, start_reads]
    exact (List.flatMap_eq_nil_iff.mpr fun _ _ => rfl).symm

/-- Only the read loop of the last connection reads, so the payloads come loop by loop. -/
theorem run_delivers (hr : run (step pb) (start pb config phys failed nonce) es = some p) :
    Delivers p := by
  have hdown : PhysicalNode.Down (start pb config phys failed nonce).link.manager := by
    rw [start_link]
    exact PhysicalNode.down_connect phys failed
  have hboth := invariant (P := fun p : Program E => Delivers p ∧ PhysicalNode.Down p.link.manager)
    ?_ ⟨delivers_start, hdown⟩ hr
  · exact hboth.1
  · intro p e p' h hs
    refine ⟨h.1.step h.2.loops hs, ?_⟩
    exact invariant (P := fun l : RadioLink => PhysicalNode.Down l.manager)
      (fun _ _ _ h hs => PhysicalNode.down_linkStep h hs) h.2 (step_link hs)

/-- **Frames arrive whole, whatever happens to the connections.** If each read loop is sent a
stream of frames, of which some part arrives in some pieces, the payloads that are given on
are those of the frames that have arrived whole, one connection after the other. -/
theorem run_framed (hr : run (step pb) (start pb config phys failed nonce) es = some p)
    (sent : Nat → List Bytes) (hsize : ∀ i, ∀ payload ∈ sent i, payload.length ≤ maxPacketSize)
    (hframed : ∀ i, (part p.reads i).flatten <+: stream (sent i)) :
    p.server.radioed = (List.range p.link.manager.tasks.length).flatMap
        (fun i => decode (part p.reads i).flatten) ∧
      ∀ i, decode (part p.reads i).flatten <+: sent i := by
  have hdelivers := run_delivers hr
  have hreads : ∀ i, ∀ c ∈ part p.reads i, c ≠ [] := by
    intro i c hc
    obtain ⟨x, hx, rfl⟩ := List.mem_map.mp hc
    exact hdelivers.nonempty x (List.mem_of_mem_filter hx)
  have hread (i : Nat) := readLoop_prefix (hsize i) (hreads i) (hframed i)
  constructor
  · rw [hdelivers.radioed, delivered]
    refine List.flatMap_congr ?_
    intro i _
    exact (hread i).1
  · intro i
    rw [← (hread i).1]
    exact (hread i).2

/-- The connection is lost within a frame, and made again. -/
def cutOff : List Event :=
  [.link (.resume 0 .started) 0,
    .link (.resume 0 (.chunk (frame unsetMessage ++ (frame unsetMessage).take 3))) 0,
    .link (.resume 0 (.chunk [])) 0, .link (.resume 1 .started) 0, .link (.resume 1 .returned) 0,
    .link (.resume 1 .returned) 0, .link (.resume 1 .returned) 0, .link (.resume 1 .returned) 0x07,
    .link (.resume 1 .returned) 0, .link (.resume 2 .started) 0,
    .link (.resume 2 (.chunk (frame unsetMessage))) 0]

theorem run_framed_cutOff : ∃ p, run (step wire) (start wire {} {} none 0x05) cutOff = some p ∧
    p.server.radioed = (List.range p.link.manager.tasks.length).flatMap
      fun i => decode (part p.reads i).flatten := by
  have hrun : (run (step wire) (start wire {} {} none 0x05) cutOff).map Program.reads =
      some [(0, frame unsetMessage ++ (frame unsetMessage).take 3), (2, frame unsetMessage)] := by
    decide
  obtain ⟨p, hp, hreads⟩ := Option.map_eq_some_iff.mp hrun
  have hsize : ∀ payload ∈ [unsetMessage, unsetMessage], payload.length ≤ maxPacketSize := by decide
  refine ⟨p, hp, (run_framed hp (fun _ => [unsetMessage, unsetMessage]) (fun _ => hsize) ?_).1⟩
  intro i
  rw [hreads]
  by_cases h0 : 0 = i
  · subst h0
    decide
  · by_cases h2 : 2 = i
    · subst h2
      decide
    · simp [part_cons, h0, h2]

open Server (Origin Registered processed queueOf handedOn echo connections fits) in
/-- **From the read loops to what a client decodes.** What a registered client is written are
whole frames. From its queue it is written, as far as it fits in frames, what was put
there first: the echoes of the packets forwarded since it connected, and what the read
loops of all connections deliver, from where `process_incoming` was when the client
connected to where it is now, each payload that parses, once, in order. -/
theorem run_downlink {before after : List Event} {peerIp : String} {u : Program E}
    (hu : run (step pb) (start pb config phys failed nonce) before = some u)
    (hr : run (step pb) u (.server (.connect peerIp) :: after) = some p)
    (hstay : u.server.handlers.length ∈ p.server.registry) :
    ∃ (h : ClientHandler E) (taken : List Bytes) (items : List (Origin × Bytes)),
      p.server.handlers[u.server.handlers.length]? = some h ∧
      drain frames (output h) = (h.written.map Prod.snd, []) ∧
      part h.written .queue = taken.filter fits ∧
      taken ++ h.queue = items.map Prod.snd ∧
      part items .radio ++ p.server.phys.readQueue.filterMap (handedOn pb) =
        ((delivered p).drop
          (u.server.radioed.length - u.server.phys.readQueue.length)).filterMap (handedOn pb) ∧
      part items .client = outputs (Server.step pb) (echo pb) u.server
        (expand (step pb) (serverEvents pb) u (.server (.connect peerIp) :: after)) := by
  obtain ⟨t, ht, hafter⟩ := run_cons.mp hr
  obtain ⟨hsound, hubefore⟩ := run_server hu
  have hconnect : Server.step pb u.server (.connect peerIp) = some t.server := by
    cases step_stepped ht with
    | server ha hserver => exact hserver
  have hserver := (embeds_server.run (hsound.step ht) hafter).2
  have hcount : connections (serverRun pb config phys failed nonce before) =
      u.server.handlers.length := by
    rw [Server.run_handlers_length hubefore]
    exact (Nat.zero_add _).symm
  have hwhole : run (Server.step pb) (Server.init config)
      (serverRun pb config phys failed nonce before ++
        .connect peerIp :: expand (step pb) (serverEvents pb) t after) = some p.server :=
    run_append.mpr ⟨_, hubefore, run_cons.mpr ⟨_, hconnect, hserver⟩⟩
  have hlt : u.server.handlers.length < t.server.handlers.length := by
    rw [Server.handlers_length_step hconnect]
    exact Nat.lt_succ_self _
  have hkept := ((Server.run_registry hlt hserver).mp hstay).2
  rw [← hcount] at hkept
  obtain ⟨t', items, ht', hqueue, hradio, hclient⟩ :=
    Server.run_subscribed config _ peerIp _ hwhole hkept
  obtain rfl : t' = t.server := by
    have hthere : run (Server.step pb) (Server.init config)
        (serverRun pb config phys failed nonce before ++ [.connect peerIp]) = some t.server :=
      run_append.mpr ⟨_, hubefore, run_cons.mpr ⟨_, hconnect, rfl⟩⟩
    exact Option.some.inj (ht'.symm.trans hthere)
  have hexpand : expand (step pb) (serverEvents pb) u (.server (.connect peerIp) :: after) =
      .connect peerIp :: expand (step pb) (serverEvents pb) t after := expand_cons ht
  have hthere : u.server.handlers.length < p.server.handlers.length := by
    have hregistered : Registered p.server :=
      invariant (fun s e t hreg => hreg.step) ⟨List.nodup_nil, List.forall_mem_nil _⟩ hwhole
    exact hregistered.connected _ hstay
  have hget := List.getElem?_eq_getElem hthere
  have hfresh : Server.fromQueueOf t.server u.server.handlers.length = [] := by
    rw [← Option.some.inj hconnect]
    simp [Server.fromQueueOf, Server.fromQueue, Server.connect]
  have hwritten := Server.run_written hserver u.server.handlers.length
  rw [hfresh, List.nil_append, Server.fromQueueOf, List.getElem?_map, hget] at hwritten
  rw [hcount, queueOf, hget] at hqueue
  refine ⟨_, _, items, hget, ?_, hwritten, hqueue, ?_, ?_⟩
  · exact Server.run_decodes config hwhole (List.getElem_mem hthere)
  · rw [hradio, ← (run_delivers (run_append.mpr ⟨u, hu, hr⟩)).radioed]
    have htaken := congrArg List.length (Server.run_taken hubefore rfl)
    rw [List.length_append] at htaken
    have hlen : u.server.radioed.length - u.server.phys.readQueue.length =
        (outputs (Server.step pb) processed (Server.init config)
          (serverRun pb config phys failed nonce before)).length := by
      rw [← htaken]
      exact Nat.add_sub_cancel _ _
    rw [hlen]
  · rw [hclient, hexpand, outputs_cons hconnect]
    rfl

def shownUnset : List Event :=
  [.link (.resume 0 (.chunk (frame unsetMessage))) 0, .server .processIncoming,
    .server .processIncoming]

set_option maxRecDepth 10000 in
/-- A client that connects before the payloads are processed is shown both. -/
theorem run_downlink_both : ∃ u p, run (step wire) (start wire {} {} none 0x05) comesUp = some u ∧
    run (step wire) u (.server (.connect "192.168.1.50") :: shownUnset) = some p ∧
    ∃ h taken items, p.server.handlers[0]? = some h ∧
      drain frames (output h) = (h.written.map Prod.snd, []) ∧
      taken ++ h.queue = items.map Prod.snd ∧
      part items Server.Origin.radio = [myInfoMessage, unsetMessage] := by
  have hbefore : (run (step wire) (start wire {} {} none 0x05) comesUp).map (fun u =>
      (u.server.handlers.length, u.server.radioed.length - u.server.phys.readQueue.length)) =
        some (0, 0) := by decide
  have hafter : (run (step wire) (start wire {} {} none 0x05)
      (comesUp ++ .server (.connect "192.168.1.50") :: shownUnset)).map (fun p =>
        (p.server.registry, p.server.phys.readQueue, delivered p)) =
          some ([0], [], [myInfoMessage, unsetMessage]) := by decide
  obtain ⟨p, hp, hend⟩ := Option.map_eq_some_iff.mp hafter
  obtain ⟨u, hu, hp⟩ := run_append.mp hp
  rw [hu] at hbefore
  simp only [Option.map_some, Option.some.injEq, Prod.mk.injEq] at hbefore hend
  obtain ⟨hlen, hcount⟩ := hbefore
  obtain ⟨hregistry, hqueue, hdelivered⟩ := hend
  obtain ⟨h, taken, items, hget, hdecodes, -, htaken, hradio, -⟩ :=
    run_downlink hu hp (by rw [hlen, hregistry]; decide)
  rw [hqueue, hcount, hdelivered, List.filterMap_nil, List.append_nil] at hradio
  exact ⟨u, p, hu, hp, h, taken, items, hlen ▸ hget, hdecodes, htaken, hradio.trans (by decide)⟩

end

end Multiplextashtic.Main
